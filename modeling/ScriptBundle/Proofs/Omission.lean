import ScriptBundle.Proofs.Building
import ScriptBundle.Proofs.Pruning
import ScriptBundle.Proofs.RenderFiles
import ScriptBundle.Proofs.Tree.Lacking
/-!
# Leaving out a render file

A render file that cannot be loaded adds nothing but its path to what is skipped
(`collect_erase`). So a project without it is built in the same way, `omits_unloadable`; only if it
stands where the directory for bundles is to be created, as in `output_directory_taken`, the project
can be built without it and not with it.
-/

namespace ScriptBundle

open FileOperation ScriptBundle.Tree

variable {t t₁ u u₁ : Tree} {dir p : Path} {ext : String} {loc kept : List String} {b : ByteArray}

namespace Tree.Lacks

/-! ## Pruning -/

theorem stale_iff (h : t.Lacks u loc b) (hdir : t.HasDirectory dir) :
    u.Stale dir ext kept p ↔ t.Stale dir ext kept p ∧ u.Has p :=
  Tree.stale_iff h.same (fun _ => h.has_of_has) (h.same.hasDirectory_iff.2 hdir).has

theorem exists_bundleFiles_iff (h : t.Lacks u loc b) :
    (∃ found, u.bundleFiles dir ext = .ok found) ↔ ∃ found, t.bundleFiles dir ext = .ok found :=
  exists_bundleFiles_congr h.wellFormed h.wellFormed' h.same fun _ => h.has_of_has

theorem clearable_iff (h : t.Lacks u loc b) (hdir : t.HasDirectory dir) :
    u.Clearable dir ext kept ↔ t.Clearable dir ext kept := by
  constructor
  · refine fun hu => ⟨h.exists_bundleFiles_iff.1 hu.found, fun p hp hd => ?_⟩
    have hd' := h.same.hasDirectory_iff.2 hd
    exact hu.files p ((h.stale_iff hdir).2 ⟨hp, hd'.has⟩) hd'
  · refine fun ht => ⟨h.exists_bundleFiles_iff.2 ht.found, fun p hp hd => ?_⟩
    exact ht.files p ((h.stale_iff hdir).1 hp).1 (h.same.hasDirectory_iff.1 hd)

/-- Pruning succeeds in one tree exactly if it does in the other. -/
theorem exists_prune_iff (h : t.Lacks u loc b) (hdir : t.HasDirectory dir) {written : List Path} :
    (∃ u₁, (pruneBundles dir ext written).run u = (.ok (), u₁)) ↔
      ∃ t₁, (pruneBundles dir ext written).run t = (.ok (), t₁) := by
  rw [exists_pruneBundles_iff h.wellFormed hdir.has,
    exists_pruneBundles_iff h.wellFormed' (h.same.hasDirectory_iff.2 hdir).has,
    h.clearable_iff hdir]

variable {written : List Path}

/-- What is pruned in one tree is pruned in the other. -/
theorem pruned (h : t.Lacks u loc b) (hdir : t.HasDirectory dir)
    (ht : (pruneBundles dir ext written).run t = (.ok (), t₁))
    (hu : (pruneBundles dir ext written).run u = (.ok (), u₁)) : t₁.Lacks u₁ loc b := by
  obtain ⟨ps, hps, hremoves⟩ := removes_of_pruneBundles h.wellFormed hdir.has ht
  obtain ⟨qs, hqs, hremoves'⟩ :=
    removes_of_pruneBundles h.wellFormed' (h.same.hasDirectory_iff.2 hdir).has hu
  have hsame := (hremoves.same.symm.trans h.same).trans hremoves'.same
  -- Where a stale path leads, something stands in both trees or only in the first.
  have hgone : ∀ loc', u.entryAt? loc' = t.entryAt? loc' →
      u₁.entryAt? loc' = t₁.entryAt? loc' := by
    intro loc' heq
    by_cases hsome : ∃ p ∈ ps, t.locate p = .ok loc'
    · obtain ⟨p, hp, hloc⟩ := hsome
      obtain ⟨q, hq, -, hnone⟩ := hremoves.gone p hp
      obtain rfl := Except.ok.inj (hq.symm.trans hloc)
      rw [hnone]
      by_cases hu : ∃ e, u.entryAt? q = some e
      · obtain ⟨e, he⟩ := hu
        have hstale := (h.stale_iff hdir).2
          ⟨(hps p).1 hp, q, e, h.same.locate_iff.2 hloc, he⟩
        obtain ⟨q', hq', -, hnone'⟩ := hremoves'.gone p ((hqs p).2 hstale)
        obtain rfl := Except.ok.inj ((h.same.locate_iff.2 hloc).symm.trans hq')
        exact hnone'
      · by_contra hsome
        obtain ⟨e, he⟩ := Option.ne_none_iff_exists'.1 hsome
        exact hu ⟨e, hremoves'.kept q e he⟩
    · have hsome' : ∀ p ∈ qs, u.locate p ≠ .ok loc' := fun p hp hloc =>
        hsome ⟨p, (hps p).2 ((h.stale_iff hdir).1 ((hqs p).1 hp)).1, h.same.locate_iff.1 hloc⟩
      rw [hremoves.others loc' fun p hp hloc => hsome ⟨p, hp, hloc⟩, hremoves'.others loc' hsome',
        heq]
  refine ⟨hremoves.wellFormed, hremoves'.wellFormed, hsame,
    fun loc' hne => hgone loc' (h.others loc' hne), ?_⟩
  obtain heq | ⟨hfile, hnone⟩ := h.own
  · exact .inl (hgone loc heq)
  · have hnone' : u₁.entryAt? loc = none := by
      by_contra hsome
      obtain ⟨e, he⟩ := Option.ne_none_iff_exists'.1 hsome
      rw [hremoves'.kept loc e he] at hnone
      cases hnone
    cases he : t₁.entryAt? loc with
    | none => exact .inl hnone'
    | some e => exact .inr ⟨(hremoves.kept loc e he).symm.trans hfile, hnone'⟩

/-! ## Passes -/

variable {o : EmissionOptions} {fs : List Fragment} {paths : List Path}

/-- A pass over one tree succeeds over the other, and changes both in the same way. -/
theorem emit (h : t.Lacks u loc b) (ht : (emit o fs dir).run t = (.ok paths, t₁)) :
    ∃ u₁, (ScriptBundle.emit o fs dir).run u = (.ok paths, u₁) ∧ t₁.Lacks u₁ loc b := by
  obtain ⟨t₂, hmake, hw, hpaths, ht⟩ := emit_eq_ok.1 ht
  obtain ⟨u₂, hmake', h₂⟩ := h.makeDirectories hmake
  have hw' : ∀ x ∈ o.files dir (groupFragments fs), u₂.Writable x.1 := fun x hx =>
    h₂.same.writable_iff.2 (hw x hx)
  have hwritten := h₂.writeAll hw
  have hdir := hasDirectory_writeAll hmake hw
  by_cases hprune : o.prune
  · rw [if_pos hprune] at ht
    obtain ⟨u₁, hu⟩ := (hwritten.exists_prune_iff hdir).2 ⟨t₁, ht⟩
    exact ⟨u₁, emit_eq_ok.2 ⟨u₂, hmake', hw', hpaths, by rw [if_pos hprune, hu]⟩,
      hwritten.pruned hdir ht hu⟩
  · rw [if_neg hprune] at ht
    cases ht
    exact ⟨_, emit_eq_ok.2 ⟨u₂, hmake', hw', hpaths, by rw [if_neg hprune]⟩, hwritten⟩

/-- A pass over the tree without the file succeeds over the one with it, if the directory can be
created there. -/
theorem exists_emit (h : t.Lacks u loc b)
    (hmake : ∃ t₁, (FileOperation.makeDirectories dir).run t = (.ok (), t₁))
    (hu : (ScriptBundle.emit o fs dir).run u = (.ok paths, u₁)) :
    ∃ t₁, (ScriptBundle.emit o fs dir).run t = (.ok paths, t₁) := by
  obtain ⟨t₂, hmake⟩ := hmake
  obtain ⟨u₂, hmake', hw', hpaths, hu⟩ := emit_eq_ok.1 hu
  obtain ⟨u₂', hmake'', h₂⟩ := h.makeDirectories hmake
  rw [hmake'] at hmake''
  cases hmake''
  have hw : ∀ x ∈ o.files dir (groupFragments fs), t₂.Writable x.1 := fun x hx =>
    h₂.same.writable_iff.1 (hw' x hx)
  have hwritten := h₂.writeAll hw
  have hdir := hasDirectory_writeAll hmake hw
  by_cases hprune : o.prune
  · rw [if_pos hprune] at hu
    obtain ⟨t₁, ht⟩ := (hwritten.exists_prune_iff hdir).1 ⟨u₁, hu⟩
    exact ⟨t₁, emit_eq_ok.2 ⟨t₂, hmake, hw, hpaths, by rw [if_pos hprune, ht]⟩⟩
  · exact ⟨_, emit_eq_ok.2 ⟨t₂, hmake, hw, hpaths, by rw [if_neg hprune]⟩⟩

end Tree.Lacks

/-! ## Collecting -/

section Collecting

variable {root f : Path} {m : Manifest} {files : List Path} {names : List String}

theorem Tree.Searchable.sameDirectories (h : t.Searchable root m) (hsame : t.SameDirectories u) :
    u.Searchable root m := by
  intro s hs
  obtain ⟨rel, found, rfl, hnul, hfound⟩ := h s hs
  have hok : ∃ found, u.existsAt (Path.resolve root (Path.ofString rel)) = .ok found := by
    refine exists_test_iff.2 ?_
    rw [Ne, hsame.tooLong_iff]
    exact exists_test_iff.1 ⟨found, hfound⟩
  obtain ⟨found, hfound⟩ := hok
  exact ⟨rel, found, rfl, hnul, hfound⟩

/-- Without a file the others are found. -/
theorem Tree.discover_erase (ht : t.WellFormed) (hb : t.entryAt? f.parts = some (.file b))
    (hfiles : (t.discover root m).result = .ok files) (hf : f ∈ files) :
    ((t.erase f.parts).discover root m).result = .ok (files.filter (· ≠ f)) := by
  have hu := ht.erase hb
  obtain ⟨files', hfiles'⟩ := ((searchable_of_discover hfiles).sameDirectories
    (ht.sameDirectories_erase hb)).discover
  have hlacks := ht.lacks_erase hb
  have hcovers := ((mem_discover ht hfiles).1 hf).1
  have hmem : ∀ p, p ∈ files' ↔ p ∈ files.filter (· ≠ f) := by
    intro p
    rw [mem_discover hu hfiles', List.mem_filter, mem_discover ht hfiles, and_assoc,
      decide_eq_true_iff]
    refine and_congr_right fun hp => ?_
    by_cases heq : p.parts = f.parts
    · have hpf : p = f := by rw [hp.eq, hcovers.eq, heq]
      refine iff_of_false (fun hne => hne ?_) fun h => h.2 hpf
      rw [heq, entryAt?_erase (ne_nil_of_not_directory (by rw [isDirectoryAt, hb])),
        if_pos (List.prefix_refl _)]
    · rw [hlacks.others _ heq]
      exact ⟨fun h => ⟨h, fun hpf => heq (by rw [hpf])⟩, And.left⟩
  rw [hfiles', (ordered_discover hu hfiles').ext ((ordered_discover ht hfiles).filter _) hmem]

theorem Tree.readFile_erase (ht : t.WellFormed) (hb : t.entryAt? f.parts = some (.file b))
    (hfiles : (t.discover root m).result = .ok files) (hf : f ∈ files) (hp : p ∈ files)
    (hne : p ≠ f) : (t.erase f.parts).readFile p = t.readFile p := by
  obtain ⟨hcovers, hstands⟩ := (mem_discover ht hfiles).1 hp
  obtain ⟨e, he⟩ := Option.ne_none_iff_exists'.1 hstands
  have hparts : p.parts ≠ f.parts := fun heq =>
    hne (by rw [hcovers.eq, ((mem_discover ht hfiles).1 hf).1.eq, heq])
  have he' : (t.erase f.parts).entryAt? p.parts = some e :=
    ((ht.lacks_erase hb).others _ hparts).trans he
  rw [hcovers.eq, readFile, readFile, stat, stat, ht.locate_of_entry he,
    (ht.erase hb).locate_of_entry he']
  dsimp only
  rw [he, he']

/-- Without a file that cannot be loaded the same fragments are found, and the same other files are
skipped. -/
theorem Tree.collect_erase (ht : t.WellFormed) (hb : t.entryAt? f.parts = some (.file b))
    (hnames : m.scriptNames = .ok names) (hfiles : (t.discover root m).result = .ok files)
    (hf : f ∈ files) (hun : t.isUnloadable f = true) :
    ((t.erase f.parts).collect root m).result = .ok ⟨files.flatMap (t.fragmentsIn names),
      (files.filter t.isUnloadable).filter (· ≠ f)⟩ := by
  have hread : ∀ p ∈ files.filter (· ≠ f), (t.erase f.parts).readFile p = t.readFile p := by
    intro p hp
    obtain ⟨hp, hne⟩ := List.mem_filter.1 hp
    exact readFile_erase ht hb hfiles hf hp (of_decide_eq_true hne)
  have hfragments : (files.filter (· ≠ f)).flatMap ((t.erase f.parts).fragmentsIn names) =
      files.flatMap (t.fragmentsIn names) := by
    rw [List.flatMap_congr fun p hp => fragmentsIn_congr (hread p hp)]
    refine flatMap_filter fun p _ hp => ?_
    rw [show p = f by simpa using hp, fragmentsIn_of_unloadable hun]
  have hskipped : (files.filter (· ≠ f)).filter (t.erase f.parts).isUnloadable =
      (files.filter t.isUnloadable).filter (· ≠ f) := by
    rw [List.filter_congr fun p hp => isUnloadable_congr (hread p hp), List.filter_filter,
      List.filter_filter]
    simp only [Bool.and_comm]
  rw [collect_eq hnames (discover_erase ht hb hfiles hf), hfragments, hskipped]

end Collecting

/-! ## Building -/

section Building

variable {root f : Path} {m : Manifest} {output : Option Path} {files : List Path}

/-- What is found in render files one by one. -/
theorem Tree.flatMap_fragmentsIn (names : List String) (files : List Path) :
    files.flatMap (t.fragmentsIn names) = ((files.filterMap fun p =>
      (t.loadRenderFile p).toOption).flatten).flatMap (·.fragments names) := by
  induction files with
  | nil => rfl
  | cons p files ih =>
    rw [List.flatMap_cons, ih, fragmentsIn]
    cases hl : t.loadRenderFile p with
    | ok cs => simp [hl, Except.toOption]
    | error e => simp [hl, Except.toOption]

/-- What changes if the render file `f`, which holds `b` and cannot be loaded, is left out of a
project. -/
structure Omits (t : Tree) (root : Path) (m : Manifest) (output : Option Path) (f : Path)
    (b : ByteArray) : Prop where
  /-- The same fragments are found, and only `f` is not skipped any more. -/
  collects : ∀ c, (t.collect root m).result = .ok c → ∃ before after,
    c.skipped = before ++ f :: after ∧ f ∉ before ++ after ∧
      ((t.erase f.parts).collect root m).result = .ok ⟨c.fragments, before ++ after⟩
  /-- If nothing can be collected then neither can it be without `f`. -/
  fails : ∀ e, (t.collect root m).result = .error e →
    ((t.erase f.parts).collect root m).result = .error e
  /-- If the project can be built then so it can without `f`, -/
  builds : ∀ r, (t.build root m output).1.result = .ok r → ∃ before after,
    r.skipped = before ++ f :: after ∧ f ∉ before ++ after ∧
      ((t.erase f.parts).build root m output).1.result =
        .ok ⟨r.outputDir, r.fragments, r.written, before ++ after⟩
  /-- what is written is the same, -/
  written : ∀ r, (t.build root m output).1.result = .ok r → ∀ p ∈ r.written, ∃ content,
    (t.build root m output).2.readFile p = .ok content ∧
      ((t.erase f.parts).build root m output).2.readFile p = .ok content
  /-- and so are the trees afterwards, except that `f` may still be there. -/
  elsewhere : ∀ r, (t.build root m output).1.result = .ok r →
    (t.build root m output).2.Lacks ((t.erase f.parts).build root m output).2 f.parts b
  /-- If it can be built without `f` then so it can with `f`, if the directory for bundles can be
  created. -/
  builds_of : ∀ r, ((t.erase f.parts).build root m output).1.result = .ok r →
    (∃ t₁, (makeDirectories (output.getD (m.outputPath root))).run t = (.ok (), t₁)) →
      ∃ r', (t.build root m output).1.result = .ok r'

section Omitted

variable (ht : t.WellFormed) (hb : t.entryAt? f.parts = some (.file b))
  (hfiles : (t.discover root m).result = .ok files) (hf : f ∈ files)
  (hun : t.isUnloadable f = true)

include ht hb hfiles hf hun

theorem Tree.exists_collect_erase {c : Collection} (hc : (t.collect root m).result = .ok c) :
    ∃ before after, c.skipped = before ++ f :: after ∧ f ∉ before ++ after ∧
      ((t.erase f.parts).collect root m).result = .ok ⟨c.fragments, before ++ after⟩ := by
  obtain ⟨names, files', hnames, hfiles', rfl⟩ := exists_of_collect hc
  obtain rfl := Except.ok.inj (hfiles.symm.trans hfiles')
  have hnodup := (nodup_of_discover hfiles).filter t.isUnloadable
  obtain ⟨before, after, heq⟩ := List.append_of_mem (List.mem_filter.2 ⟨hf, hun⟩)
  rw [heq, List.nodup_middle, List.nodup_cons] at hnodup
  have hothers : (before ++ after).filter (· ≠ f) = before ++ after := by
    refine List.filter_eq_self.2 fun p hp => decide_eq_true ?_
    rintro rfl
    exact hnodup.1 hp
  refine ⟨before, after, heq, hnodup.1, ?_⟩
  rw [collect_erase ht hb hnames hfiles hf hun, heq, List.filter_append,
    List.filter_cons_of_neg (by simp), ← List.filter_append, hothers]

theorem Tree.exists_build_erase {output : Option Path} {r : BuildResult}
    (hr : (t.build root m output).1.result = .ok r) : ∃ before after,
      r.skipped = before ++ f :: after ∧ f ∉ before ++ after ∧
        ((t.erase f.parts).build root m output).1.result =
          .ok ⟨r.outputDir, r.fragments, r.written, before ++ after⟩ ∧
        (t.build root m output).2.Lacks ((t.erase f.parts).build root m output).2 f.parts b := by
  obtain ⟨c, hc, hrun, heq⟩ := exists_of_build rfl hr
  obtain ⟨before, after, hskipped, hnot, hc'⟩ := exists_collect_erase ht hb hfiles hf hun hc
  obtain ⟨u, hrun', hlacks⟩ := (ht.lacks_erase hb).emit hrun
  have hbuild := build_of_ok rfl hc' hrun'
  rw [heq, hbuild]
  exact ⟨before, after, hskipped, hnot, rfl, hlacks⟩

/-- What is written with the file there is written without it. -/
theorem Tree.exists_readFile_erase {output : Option Path} {r : BuildResult}
    (hr : (t.build root m output).1.result = .ok r) (hp : p ∈ r.written) : ∃ content,
      (t.build root m output).2.readFile p = .ok content ∧
        ((t.erase f.parts).build root m output).2.readFile p = .ok content := by
  obtain ⟨before, after, -, -, hr', hlacks⟩ := exists_build_erase ht hb hfiles hf hun hr
  obtain ⟨_, -, hrun, -⟩ := exists_of_build rfl hr'
  obtain ⟨t₁, ps, hpass⟩ := pass_of_run (ht.erase hb) hrun
  obtain ⟨content, hcontent⟩ := hpass.exists_readFile (ht.erase hb) hp
  obtain ⟨hnul, loc, hloc, hfile⟩ := readFile_eq_ok.1 hcontent
  exact ⟨content, readFile_eq_ok.2 ⟨hnul, loc, hlacks.same.locate_iff.1 hloc, hlacks.kept hfile⟩,
    hcontent⟩

theorem Tree.exists_build_of_erase {output : Option Path} {r : BuildResult}
    (hr : ((t.erase f.parts).build root m output).1.result = .ok r)
    (hmake : ∃ t₁, (makeDirectories (output.getD (m.outputPath root))).run t = (.ok (), t₁)) :
    ∃ r', (t.build root m output).1.result = .ok r' := by
  obtain ⟨c, hc, hrun, -⟩ := exists_of_build rfl hr
  obtain ⟨names, _, hnames, -⟩ := exists_of_collect hc
  rw [collect_erase ht hb hnames hfiles hf hun] at hc
  cases hc
  obtain ⟨t₁, hrun'⟩ := (ht.lacks_erase hb).exists_emit hmake hrun
  exact ⟨_, congrArg (fun x => x.1.result) (build_of_ok rfl (collect_eq hnames hfiles) hrun')⟩

end Omitted

/-- **A render file that cannot be loaded changes nothing.** What is collected from a project are
the fragments of the components in the files that can be loaded, in order, and the files that
cannot. If one of these is left out, then the same fragments are found in the others, and the same
bundles are written. -/
theorem Tree.omits_unloadable (ht : t.WellFormed) (root : Path) (m : Manifest)
    (output : Option Path) :
    (∀ c, (t.collect root m).result = .ok c → ∃ names files, m.scriptNames = .ok names ∧
      (t.discover root m).result = .ok files ∧
      c.fragments = ((files.filterMap fun p => (t.loadRenderFile p).toOption).flatten).flatMap
        (·.fragments names) ∧
      c.skipped = files.filter fun p => !(t.loadRenderFile p).isOk) ∧
    ∀ files f b, (t.discover root m).result = .ok files → f ∈ files →
      t.entryAt? f.parts = some (.file b) → t.isUnloadable f = true →
        Omits t root m output f b := by
  constructor
  · intro c hc
    obtain ⟨names, files, hnames, hfiles, rfl⟩ := exists_of_collect hc
    exact ⟨names, files, hnames, hfiles, flatMap_fragmentsIn names files, rfl⟩
  · intro files f b hfiles hf hb hun
    refine
      { collects := fun c => exists_collect_erase ht hb hfiles hf hun
        fails := ?fails
        builds := fun r hr => ?builds
        written := fun r hr p => exists_readFile_erase ht hb hfiles hf hun hr
        elsewhere := fun r hr => ?elsewhere
        builds_of := fun r => exists_build_of_erase ht hb hfiles hf hun }
    case fails =>
      intro e he
      cases hnames : m.scriptNames with
      | error e' =>
        simp only [collect, hnames] at he ⊢
        exact he
      | ok names =>
        rw [collect_eq hnames hfiles] at he
        cases he
    case builds =>
      obtain ⟨before, after, hskipped, hnot, hr', -⟩ :=
        exists_build_erase ht hb hfiles hf hun hr
      exact ⟨before, after, hskipped, hnot, hr'⟩
    case elsewhere =>
      obtain ⟨_, _, -, -, -, hlacks⟩ := exists_build_erase ht hb hfiles hf hun hr
      exact hlacks

/-- The first of the two files is found, and cannot be loaded. -/
theorem Tree.exists_discover_twoFiles (hsources : m.sources = [.string "."])
    (hnames : m.scriptNames = .ok ["Script"]) : ∃ files,
      (twoFiles.discover ⟨1, []⟩ m).result = .ok files ∧ ⟨1, ["A.render.json"]⟩ ∈ files ∧
        twoFiles.isUnloadable ⟨1, ["A.render.json"]⟩ = true := by
  obtain ⟨_, files, -, hfiles, heq⟩ := exists_of_collect (collect_twoFiles hsources hnames)
  have hf : (⟨1, ["A.render.json"]⟩ : Path) ∈ files.filter twoFiles.isUnloadable := by
    rw [← (Collection.mk.inj heq).2]
    exact List.mem_singleton_self _
  exact ⟨files, hfiles, List.mem_filter.1 hf⟩

/-- A project with one file that cannot be loaded. -/
theorem Tree.omits_twoFiles :
    let f : Path := ⟨1, ["A.render.json"]⟩
    twoFiles.WellFormed ∧
      ∃ files, (twoFiles.discover ⟨1, []⟩ Manifest.defaults).result = .ok files ∧ f ∈ files ∧
        twoFiles.isUnloadable f = true ∧
          Omits twoFiles ⟨1, []⟩ Manifest.defaults none f "[]]".toUTF8 := by
  intro f
  have ht : twoFiles.WellFormed := by decide +kernel
  obtain ⟨files, hfiles, hf, hun⟩ :=
    exists_discover_twoFiles (m := Manifest.defaults) rfl (by decide +kernel)
  exact ⟨ht, files, hfiles, hf, hun,
    (Tree.omits_unloadable ht ⟨1, []⟩ Manifest.defaults none).2 files f _ hfiles hf rfl hun⟩

/-- With a file that cannot be loaded in the place of the directory for bundles nothing can be
built. Without the file the bundle of the other is written. -/
theorem Tree.output_directory_taken :
    let m : Manifest := { Manifest.defaults with staticRoot := ".", outputDir := "A.render.json" }
    let f : Path := ⟨1, ["A.render.json"]⟩
    twoFiles.WellFormed ∧
      (twoFiles.collect ⟨1, []⟩ m).result.map Collection.skipped = .ok [f] ∧
      (twoFiles.build ⟨1, []⟩ m none).1.result.map BuildResult.written =
        .error (.file (.refused .fileExists f)) ∧
      ((twoFiles.erase f.parts).build ⟨1, []⟩ m none).1.result.map BuildResult.written =
        .ok [⟨1, ["A.render.json", "B.index.g.js"]⟩] := by
  intro m f
  have ht : twoFiles.WellFormed := by decide +kernel
  have hnames : m.scriptNames = .ok ["Script"] := by decide +kernel
  obtain ⟨files, hfiles, hf, hun⟩ := exists_discover_twoFiles (m := m) rfl hnames
  have hcollect := collect_twoFiles (m := m) rfl hnames
  obtain ⟨before, after, -, -, herase⟩ := exists_collect_erase ht rfl hfiles hf hun hcollect
  have hdir : (none : Option Path).getD (m.outputPath ⟨1, []⟩) = f := by decide +kernel
  have hbuild := build_of_error hdir hcollect (e := .refused .fileExists f) (by decide +kernel)
  have hemit : (emit m.emissionOptions
      [⟨"B", "b()", false, some "index", none, true, none, false, false⟩] f).run
        (twoFiles.erase f.parts) = (.ok [⟨1, ["A.render.json", "B.index.g.js"]⟩], _) :=
    Prod.ext (by decide +kernel) rfl
  have hbuild' := build_of_ok hdir herase hemit
  exact ⟨ht, by rw [hcollect]; rfl, by rw [hbuild]; rfl, by rw [hbuild']; rfl⟩

end Building

end ScriptBundle
