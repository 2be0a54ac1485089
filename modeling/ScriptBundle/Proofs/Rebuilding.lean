import ScriptBundle.Proofs.Building
import ScriptBundle.Proofs.Pruning
import ScriptBundle.Proofs.RenderFiles
import ScriptBundle.Proofs.Tree.Names
import ScriptBundle.Proofs.Tree.Unchanged
/-!
# Building again

Bundles are written and removed under names that no render file has, so that a build leaves all that
the manifest covers as it is (`FullPass.readFile_of_covers`). So a second build reads what the first
one read, writes what is there and finds nothing to remove: `Tree.build_again`. Only a source with a
name that is too long for a file can stop it, when it lies in a directory that the first build
created: `Tree.build_again_fails` is such a project.
-/

namespace ScriptBundle

open FileOperation ScriptBundle.Tree

variable {t t₁ u : Tree} {root dir p : Path} {m : Manifest} {loc : List String}

/-! ## Names that are too long -/

theorem Tree.WellFormed.locate_root_tooLong (ht : t.WellFormed) {ps : List String}
    (hps : ".." ∉ ps) : t.locate ⟨1, ps⟩ = .error .nameTooLong ↔
      ∃ q n rest, ps = q ++ n :: rest ∧ t.isDirectoryAt q = true ∧ nameLimit < n.utf8ByteSize := by
  induction ps using List.reverseRecOn with
  | nil => exact iff_of_false nofun (by simp)
  | append_singleton ps n ih =>
    obtain ⟨hps, hn⟩ := not_or.1 (List.mem_append.not.1 hps)
    rw [locate_concat_tooLong, ih hps]
    constructor
    · rintro (⟨q, n', rest, rfl, hq⟩ | ⟨loc, hloc, hd, -, hlong⟩)
      · exact ⟨q, n', rest ++ [n], by simp, hq⟩
      · exact ⟨ps, n, [], rfl, eq_of_locate_root hps hloc ▸ hd, hlong⟩
    · rintro ⟨q, n', rest, heq, hd, hlong⟩
      obtain rfl | ⟨rest, m, rfl⟩ := List.eq_nil_or_concat rest
      · obtain ⟨rfl, hnn⟩ := List.append_inj' heq rfl
        cases hnn
        exact .inr ⟨_, ht.locate_of_entry (isDirectoryAt_iff.1 hd), hd,
          fun hdots => hn (by simp [hdots]), hlong⟩
      · rw [List.concat_eq_append, ← List.cons_append, ← List.append_assoc] at heq
        exact .inl ⟨q, n', rest, (List.append_inj' heq rfl).1, hd, hlong⟩

/-- A source has a name that is too long for a file, in a directory that is there in the tree `u`
and not in `t`. -/
def Manifest.Overlong (m : Manifest) (root : Path) (t u : Tree) : Prop :=
  ∃ rel q n rest, .string rel ∈ m.sources ∧
    (Path.resolve root (Path.ofString rel)).parts = q ++ n :: rest ∧
    (Path.resolve root (Path.ofString rel)).hasNul = false ∧
    nameLimit < n.utf8ByteSize ∧ u.isDirectoryAt q = true ∧ t.isDirectoryAt q = false

/-- In a tree with other directories the sources can still be looked up, unless there is a name that
is too long in one of these. -/
theorem Tree.Searchable.iff_not_overlong (ht : t.WellFormed) (hu : u.WellFormed)
    (h : t.Searchable root m) : u.Searchable root m ↔ ¬ m.Overlong root t u := by
  have hexists : ∀ v : Tree, v.WellFormed → ∀ rel,
      (∃ found, v.existsAt (Path.resolve root (Path.ofString rel)) = .ok found) ↔
        (Path.resolve root (Path.ofString rel)).hasNul = true ∨
          ¬ ∃ q n rest, (Path.resolve root (Path.ofString rel)).parts = q ++ n :: rest ∧
            v.isDirectoryAt q = true ∧ nameLimit < n.utf8ByteSize := by
    intro v hv rel
    rw [← hv.locate_root_tooLong (Path.notMem_resolve root (Path.ofString rel))]
    exact exists_test_iff
  constructor
  · rintro hsearch ⟨rel, q, n, rest, hrel, hparts, hnul, hlong, hd, -⟩
    obtain ⟨rel', found, heq, -, hfound⟩ := hsearch _ hrel
    cases heq
    obtain hnul' | hno := (hexists u hu rel).1 ⟨found, hfound⟩
    · rw [hnul] at hnul'
      cases hnul'
    · exact hno ⟨q, n, rest, hparts, hd, hlong⟩
  · intro hnot s hs
    obtain ⟨rel, found, rfl, hnul, hfound⟩ := h s hs
    have hok : ∃ found, u.existsAt (Path.resolve root (Path.ofString rel)) = .ok found := by
      refine (hexists u hu rel).2 ?_
      by_contra hboth
      obtain ⟨hnul', hlong⟩ := not_or.1 hboth
      obtain ⟨q, n, rest, hparts, hd, hlong⟩ := not_not.1 hlong
      obtain hnul'' | hno := (hexists t ht rel).1 ⟨found, hfound⟩
      · exact hnul' hnul''
      · refine hnot ⟨rel, q, n, rest, hs, hparts, by simpa using hnul', hlong, hd, ?_⟩
        rw [Bool.eq_false_iff]
        exact fun hd => hno ⟨q, n, rest, hparts, hd, hlong⟩
    obtain ⟨found, hfound⟩ := hok
    exact ⟨rel, found, rfl, hnul, hfound⟩

/-! ## What a pass leaves as it is -/

section Pass

variable {o : EmissionOptions} {fs : List Fragment} {paths ps : List Path}

/-- What looks like a bundle in a directory has a name that ends as names of bundles do. -/
theorem Tree.Stale.suffix_name {ext : String} (hext : PlainExtension ext) {kept : List String}
    (h : t.Stale dir ext kept p) : bundleEnd ext <:+ p.name.toList := by
  obtain ⟨n, rfl, -, hmatch, -⟩ := h.exists_name hext.slash
  have hname : (dir.below [n]).name = n := by simp [Path.name, Path.below]
  rw [hname]
  exact (hext.literal.nameMatches_bundlePattern n).1 hmatch

namespace FullPass

/-- A place changes only if its name ends as names of bundles do. -/
theorem entryAt?_of_name (h : FullPass o fs dir t t₁ paths ps u) (ht : t.WellFormed)
    (hext : PlainExtension o.scriptExt)
    (hname : ∀ n, loc.getLast? = some n → ¬ bundleEnd o.scriptExt <:+ n.toList) :
    u.entryAt? loc = t₁.entryAt? loc := by
  have hv := h.wellFormed ht
  have hsame := sameDirectories_writeAll h.writable
  rw [h.removes.others, entryAt?_writeAll_of_ne h.writable]
  · intro x hx hloc
    obtain ⟨-, loc', hloc', hd⟩ := h.writable x hx
    obtain rfl := Except.ok.inj (hloc'.symm.trans hloc)
    obtain ⟨b, -, rfl⟩ := List.mem_map.1 hx
    exact hname _ ((h.grows.wellFormed ht).getLast?_of_locate hloc hd)
      (suffix_name_bundlePath hext.slash rfl dir b.1)
  · intro p hp hloc
    obtain ⟨loc', hloc', hd, -⟩ := h.removes.gone p hp
    obtain rfl := Except.ok.inj (hloc'.symm.trans hloc)
    exact hname _ (hv.getLast?_of_locate hloc hd) (((h.cleared p).1 hp).2.suffix_name hext)

/-- What stands at a path that the manifest covers stays as it is. -/
theorem readFile_of_covers (h : FullPass o fs dir t t₁ paths ps u) (ht : t.WellFormed)
    (hext : PlainExtension o.scriptExt) (hp : m.Covers root p) (b : ByteArray) :
    u.readFile p = .ok b ↔ t.readFile p = .ok b := by
  have hentry : u.entryAt? p.parts = t₁.entryAt? p.parts := by
    refine h.entryAt?_of_name ht hext fun n hn hend => ?_
    have hname : p.name = n := by rw [Path.name, List.getLastD_eq_getLast?, hn]; rfl
    have hmatch := hext.not_matches_renderFilePattern hend
    rw [← hname, hp.name] at hmatch
    cases hmatch
  rw [hp.eq, readFile_root_iff h.removes.wellFormed hp.plain, readFile_root_iff ht hp.plain, hentry]
  exact ⟨h.grows.files _ b, h.grows.keeps _ _⟩

end FullPass

end Pass

/-! ## The second build -/

section Builds

variable {output : Option Path} {r : BuildResult}

/-- A build fails over a source whose name is too long, before it changes anything. -/
theorem Tree.Searchable.build_of_overlong (h : t.Searchable root m) (ht : t.WellFormed)
    (hu : u.WellFormed) (hover : m.Overlong root t u) :
    ∃ e log, u.build root m output = (⟨.error e, log⟩, u) := by
  cases hcollect : (u.collect root m).result with
  | error e => exact ⟨e, (u.collect root m).log, by simp only [build, hcollect]⟩
  | ok c =>
    obtain ⟨_, files, -, hfiles, -⟩ := exists_of_collect hcollect
    exact absurd hover ((h.iff_not_overlong ht hu).1 (searchable_of_discover hfiles))

/-- What a second build does after a first one that made the tree `t` into `u`. -/
structure BuildsAgain (t u : Tree) (root : Path) (m : Manifest) (output : Option Path)
    (r : BuildResult) : Prop where
  /-- It finds the same fragments, writes the same bundles, and leaves the tree as it is. -/
  same : ¬ m.Overlong root t u → ∃ skipped log,
    u.build root m output = (⟨.ok ⟨r.outputDir, r.fragments, r.written, skipped⟩, log⟩, u)
  /-- A source whose name is too long in a directory of the first build stops it, before it changes
  anything. -/
  fails : m.Overlong root t u → ∃ e log, u.build root m output = (⟨.error e, log⟩, u)

/-- **Building again changes nothing.** If a build succeeds, and the extension has no character that
means something in patterns or paths, then the same build on the tree that it leaves finds the same
fragments, writes the same bundles and leaves that tree as it is; unless a source has a name that is
too long for a file in a directory that the first build created, over which the second one fails. -/
theorem Tree.build_again (ht : t.WellFormed) (hext : PlainExtension m.scriptExt)
    (h : (t.build root m output).1.result = .ok r) :
    BuildsAgain t (t.build root m output).2 root m output r := by
  obtain ⟨c, hc, hrun, hr⟩ := exists_of_build rfl h
  set dir := output.getD (m.outputPath root) with hdir
  generalize (t.build root m output).2 = u at hrun ⊢
  obtain ⟨names, files, hnames, hfiles, rfl⟩ := exists_of_collect hc
  obtain ⟨t₁, ps, hpass⟩ := fullPass_of_run ht hrun
  have hu := hpass.removes.wellFormed
  have hsearch := searchable_of_discover hfiles
  refine ⟨fun hover => ?same, hsearch.build_of_overlong ht hu⟩
  case same =>
    obtain ⟨files', hfiles'⟩ := ((hsearch.iff_not_overlong ht hu).2 hover).discover
    have hfragments := flatMap_fragmentsIn_eq ht hu hfiles hfiles' fun p hp =>
      @fragmentsIn_congr_ok _ _ _ names (hpass.readFile_of_covers ht hext hp)
    have hcollect := collect_eq hnames hfiles'
    rw [hfragments] at hcollect
    have hw : ∀ x ∈ m.emissionOptions.files dir (groupFragments (files.flatMap
        (t.fragmentsIn names))), u.Writable x.1 :=
      fun x hx => hpass.same.writable_iff.2 (hpass.writable x hx)
    have hwrite := writeAll_of_holdsAll hu hw (hpass.holds ht)
    have hemit : (emit m.emissionOptions (files.flatMap (t.fragmentsIn names)) dir).run u =
        (.ok r.written, u) := by
      refine emit_eq_ok.2 ⟨u, run_makeDirectories_of_directory hpass.hasNul hpass.hasDirectory, hw,
        hpass.paths_eq, ?_⟩
      rw [hwrite]
      split_ifs with hprune
      · refine run_pruneBundles_of_none hu ?_ fun p => hpass.not_stale hprune
        exact (exists_bundleFiles_congr (hpass.wellFormed ht) hu hpass.removes.same
          fun q => hpass.has_of_has).2 (hpass.found hprune)
      · rfl
    have hbuild := build_of_ok rfl hcollect hemit
    rw [hr]
    exact ⟨_, _, hbuild⟩

/-- A project with one script, in whose directory bundles of earlier builds are removed. -/
theorem Tree.build_again_twoFiles :
    let m : Manifest := { Manifest.defaults with prune := true }
    let r := twoFiles.build ⟨1, []⟩ m none
    twoFiles.WellFormed ∧ PlainExtension m.scriptExt ∧ ∃ result, r.1.result = .ok result ∧
      result.written = [⟨1, ["wwwroot", "inlinejs", "B.index.g.js"]⟩] ∧
        BuildsAgain twoFiles r.2 ⟨1, []⟩ m none result := by
  intro m r
  have ht : twoFiles.WellFormed := by decide +kernel
  have hext : PlainExtension m.scriptExt := by decide +kernel
  have hr : ∃ result, r.1.result = .ok result ∧
      result.written = [⟨1, ["wwwroot", "inlinejs", "B.index.g.js"]⟩] := by
    refine ⟨_, congrArg (fun x => x.1.result) (build_of_ok rfl
      (collect_twoFiles (m := m) rfl (by decide +kernel)) (Prod.ext (by decide +kernel) rfl)), rfl⟩
  obtain ⟨result, hresult, hwritten⟩ := hr
  exact ⟨ht, hext, result, hresult, hwritten, Tree.build_again ht hext hresult⟩

/-! ## A project that can be built only once -/

/-- The settings of a project whose render files are to be looked for where no file can be: `n` is
too long for a name. -/
def Manifest.unreachable (n : String) : Manifest :=
  { Manifest.defaults with sources := [.string ("wwwroot" ++ "/" ++ n)] }

section

variable {n : String} (hslash : '/' ∉ n.toList) (hlong : nameLimit < n.utf8ByteSize)

include hlong

theorem ne_of_long {s : String} (hs : s.utf8ByteSize ≤ nameLimit) : n ≠ s := by
  rintro rfl
  exact absurd hlong (Nat.not_lt.2 hs)

include hslash

theorem Manifest.resolve_unreachable :
    Path.ofString ("wwwroot" ++ "/" ++ n) = ⟨0, ["wwwroot", n]⟩ ∧
      Path.resolve ⟨1, []⟩ ⟨0, ["wwwroot", n]⟩ = ⟨1, ["wwwroot", n]⟩ := by
  have hparts : Path.partsOf n = [n] := Path.partsOf_of_notMem hslash
    (ne_of_long hlong (by decide)) (ne_of_long hlong (by decide))
  have hslashes : Path.slashesOf ("wwwroot" ++ "/" ++ n).toList = 0 := by
    rw [String.toList_append, String.toList_append]
    rfl
  have hfirst : Path.partsOf "wwwroot" = ["wwwroot"] := by decide +kernel
  constructor
  · rw [Path.ofString, hslashes, Path.partsOf_append, hparts, hfirst]
    rfl
  · simp [Path.resolve, Path.join, Path.isAbsolute, Path.normalStep,
      ne_of_long hlong (s := "..") (by decide)]

/-- In an empty tree nothing is found, and the directory for bundles is created. -/
theorem Manifest.build_unreachable (hnul : '\x00' ∉ n.toList) :
    ∃ log, Tree.build ⟨[], []⟩ ⟨1, []⟩ (unreachable n) none =
      (⟨.ok ⟨⟨1, ["wwwroot", "inlinejs"]⟩, [], [], []⟩, log⟩,
        ((emit {} [] ⟨1, ["wwwroot", "inlinejs"]⟩).run ⟨[], []⟩).2) := by
  obtain ⟨hpath, hbase⟩ := Manifest.resolve_unreachable hslash hlong
  have hnuls : ∀ k, (Path.mk k ["wwwroot", n]).hasNul = false := fun k => by
    simpa [Path.hasNul] using hnul
  have hmissing : Tree.existsAt ⟨[], []⟩ ⟨1, ["wwwroot", n]⟩ = .ok false := by
    rw [existsAt, test, hnuls]
    rfl
  have hfound : (Tree.filesOfSources ⟨[], []⟩ ⟨1, []⟩ (unreachable n).sources).result = .ok [] := by
    simp only [unreachable, filesOfSources, sourceFiles, hpath, hbase, hnuls, hmissing]
    rfl
  have hfiles : (Tree.discover ⟨[], []⟩ ⟨1, []⟩ (unreachable n)).result = .ok [] := by
    rw [discover, hfound]
    exact congrArg Except.ok (List.mergeSort_of_pairwise .nil)
  have hnames : Manifest.defaults.scriptNames = .ok ["Script"] := by decide +kernel
  have hdir : (none : Option Path).getD (Manifest.defaults.outputPath ⟨1, []⟩) =
      ⟨1, ["wwwroot", "inlinejs"]⟩ := by decide +kernel
  have hemit : (emit {} [] ⟨1, ["wwwroot", "inlinejs"]⟩).run ⟨[], []⟩ =
      (.ok [], ((emit {} [] ⟨1, ["wwwroot", "inlinejs"]⟩).run ⟨[], []⟩).2) :=
    Prod.ext (by decide +kernel) rfl
  exact ⟨_, build_of_ok (m := unreachable n) hdir (collect_eq hnames hfiles)
    hemit⟩

theorem Manifest.overlong_unreachable (hnul : '\x00' ∉ n.toList) :
    (unreachable n).Overlong ⟨1, []⟩ ⟨[], []⟩
      ((emit {} [] ⟨1, ["wwwroot", "inlinejs"]⟩).run ⟨[], []⟩).2 := by
  obtain ⟨hpath, hbase⟩ := Manifest.resolve_unreachable hslash hlong
  refine ⟨_, ["wwwroot"], n, [], List.mem_singleton.2 rfl, ?_, ?_, hlong, by decide +kernel,
    by decide +kernel⟩
  · rw [hpath, hbase]
    rfl
  · rw [hpath, hbase]
    simpa [Path.hasNul] using hnul

theorem Manifest.unreachable_again (hnul : '\x00' ∉ n.toList) :
    let r := Tree.build ⟨[], []⟩ ⟨1, []⟩ (unreachable n) none
    r.1.result.map BuildResult.written = .ok [] ∧ ∃ e,
      (r.2.build ⟨1, []⟩ (unreachable n) none).1.result.map BuildResult.written = .error e := by
  intro r
  have ht : Tree.WellFormed ⟨[], []⟩ := by decide +kernel
  obtain ⟨log, hr⟩ := Manifest.build_unreachable hslash hlong hnul
  obtain ⟨c, hc, -⟩ := exists_of_build rfl (congrArg (fun x => x.1.result) hr)
  obtain ⟨_, files, -, hfiles, -⟩ := exists_of_collect hc
  obtain ⟨e, log', hagain⟩ := @Searchable.build_of_overlong _ _ _ _ none
    (searchable_of_discover hfiles) ht (by decide +kernel)
    (Manifest.overlong_unreachable hslash hlong hnul)
  have hr : r = _ := hr
  rw [hr]
  dsimp only
  rw [hagain]
  exact ⟨rfl, e, rfl⟩

end

theorem utf8ByteSize_replicate (c : Char) (hc : c.utf8Size = 1) (k : Nat) :
    (String.ofList (List.replicate k c)).utf8ByteSize = k := by
  induction k with
  | zero => rfl
  | succ k ih =>
    have hpush : String.ofList (List.replicate (k + 1) c) =
        (String.ofList (List.replicate k c)).push c := by
      rw [← String.toList_inj, String.toList_push, String.toList_ofList, String.toList_ofList,
        List.replicate_succ']
    rw [hpush, String.utf8ByteSize_push, ih, hc]

/-- Of 256 letters `a`, a name is too long: a project whose source is to be found under this name in
`wwwroot`, where nothing is before the first build, can be built only once. -/
theorem Tree.build_again_fails :
    let m := Manifest.unreachable (String.ofList (List.replicate 256 'a'))
    let r := Tree.build ⟨[], []⟩ ⟨1, []⟩ m none
    WellFormed ⟨[], []⟩ ∧ PlainExtension m.scriptExt ∧
      r.1.result.map BuildResult.written = .ok [] ∧
        ∃ e, (r.2.build ⟨1, []⟩ m none).1.result.map BuildResult.written = .error e := by
  have hext : PlainExtension Manifest.defaults.scriptExt := by decide +kernel
  have hchar : ∀ c ∈ (String.ofList (List.replicate 256 'a')).toList, c = 'a' := fun c hc => by
    rw [String.toList_ofList] at hc
    exact List.eq_of_mem_replicate hc
  have hslash : '/' ∉ (String.ofList (List.replicate 256 'a')).toList := fun hc => by
    cases hchar _ hc
  have hnul : '\x00' ∉ (String.ofList (List.replicate 256 'a')).toList := fun hc => by
    cases hchar _ hc
  have hlong : nameLimit < (String.ofList (List.replicate 256 'a')).utf8ByteSize := by
    rw [utf8ByteSize_replicate 'a' rfl]
    decide
  have ht : WellFormed ⟨[], []⟩ := by decide +kernel
  generalize String.ofList (List.replicate 256 'a') = n at hslash hnul hlong ⊢
  exact ⟨ht, hext, Manifest.unreachable_again hslash hlong hnul⟩

end Builds

end ScriptBundle
