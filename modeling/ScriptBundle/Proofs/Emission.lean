import ScriptBundle.Proofs.Bundles
import ScriptBundle.Proofs.Tree.Unchanged
/-!
# Bundles on disk

Writing bundles that are allowed where they go succeeds (`run_writeBundles`), and else the first
that is not ends it (`run_writeBundles_of_not`). A pass that succeeds (`emit_eq_ok`, `pass_of_run`)
creates directories, writes the files of the bundles and removes some of the others; `emits_run`
says what is there afterwards. In `bundle_overwritten` two bundles are written to the same file.
-/

namespace ScriptBundle

namespace EmissionOptions

/-- The name of the file of a bundle is one component of a path. -/
def Plain (o : EmissionOptions) (key : String) : Prop :=
  '/' ∉ (bundleFileName key o.scriptExt).toList

theorem bundlePath_of_plain {o : EmissionOptions} {key : String} (h : o.Plain key) (dir : Path) :
    o.bundlePath dir key =
      { dir with parts := dir.parts ++ [bundleFileName key o.scriptExt] } :=
  Path.child_of_notMem h (bundleFileName_ne (by simp)) (bundleFileName_ne (by simp)) dir

/-- The bundles of groups that have content: their keys and their texts. -/
def bundles (o : EmissionOptions) (gs : List BundleGroup) : List (String × String) :=
  gs.filterMap fun g => (g.render o.classWrapping).map fun text => (g.key, text)

/-- The files of the bundles of groups. -/
def files (o : EmissionOptions) (dir : Path) (gs : List BundleGroup) : List (Path × ByteArray) :=
  (o.bundles gs).map fun b => (o.bundlePath dir b.1, b.2.toUTF8)

end EmissionOptions

theorem mem_bundles {o : EmissionOptions} {gs : List BundleGroup} {b : String × String} :
    b ∈ o.bundles gs ↔ ∃ g ∈ gs, g.key = b.1 ∧ g.render o.classWrapping = some b.2 := by
  obtain ⟨key, text⟩ := b
  simp only [EmissionOptions.bundles, List.mem_filterMap, Option.map_eq_some_iff, Prod.mk.injEq]
  constructor
  · rintro ⟨g, hg, _, htext, rfl, rfl⟩
    exact ⟨g, hg, rfl, htext⟩
  · rintro ⟨g, hg, rfl, htext⟩
    exact ⟨g, hg, text, htext, rfl, rfl⟩

/-- No two bundles have the same key. -/
theorem nodup_bundles {o : EmissionOptions} (fs : List Fragment) :
    (o.bundles (groupFragments fs)).Pairwise fun b c => b.1 ≠ c.1 := by
  refine (List.pairwise_map.1 (nodup_groupFragments fs)).filterMap _ fun g g' hne b hb b' hb' => ?_
  obtain ⟨text, -, rfl⟩ := Option.map_eq_some_iff.1 hb
  obtain ⟨text', -, rfl⟩ := Option.map_eq_some_iff.1 hb'
  exact hne

/-- The keys under which there is something to write: that of a script which is not blank, and that
of any script in a class. -/
def EmissionOptions.filledKeys (o : EmissionOptions) (fs : List Fragment) : List String :=
  (fs.map Fragment.bundleKey).eraseDups.filter fun key =>
    fs.any fun f => f.bundleKey = key && (!f.isBlank || (o.classWrapping && f.asClass))

theorem isSome_render_groupOf (classWrapping : Bool) (fs : List Fragment) (key : String) :
    ((groupOf fs key).render classWrapping).isSome =
      fs.any fun f => f.bundleKey = key && (!f.isBlank || (classWrapping && f.asClass)) := by
  rw [Bool.eq_iff_iff, Option.isSome_iff_ne_none, Ne, BundleGroup.render_eq_none_iff,
    List.any_eq_true]
  simp only [groupOf, List.mem_filter, decide_eq_true_eq, and_imp, not_forall, Bool.and_eq_true,
    Bool.or_eq_true, Bool.not_eq_true', exists_prop, not_and, Bool.not_eq_true]
  refine exists_congr fun f => and_congr_right fun _ => and_congr_right fun _ => ?_
  cases f.isBlank <;> cases classWrapping <;> cases f.asClass <;> decide

/-- The bundles that have content. -/
theorem map_fst_bundles_eq (o : EmissionOptions) (fs : List Fragment) :
    (o.bundles (groupFragments fs)).map Prod.fst = o.filledKeys fs := by
  have hkeys : ∀ gs : List BundleGroup, (o.bundles gs).map Prod.fst =
      (gs.filter fun g => (g.render o.classWrapping).isSome).map BundleGroup.key := by
    intro gs
    induction gs with
    | nil => rfl
    | cons g gs ih =>
      rw [EmissionOptions.bundles] at ih ⊢
      cases hr : g.render o.classWrapping with
      | none => simp [hr, ih]
      | some text => simp [hr, ih]
  rw [hkeys, groupFragments_eq, List.filter_map, List.map_map, EmissionOptions.filledKeys]
  refine (List.map_id _).trans (List.filter_congr fun key _ => ?_)
  exact isSome_render_groupOf o.classWrapping fs key

/-- The bundles of fragments that are not blank are those of all groups. -/
theorem map_fst_bundles {o : EmissionOptions} {fs : List Fragment}
    (h : ∀ f ∈ fs, f.isBlank = false) :
    (o.bundles (groupFragments fs)).map Prod.fst = (groupFragments fs).map BundleGroup.key := by
  rw [map_fst_bundles_eq, keys_groupFragments, EmissionOptions.filledKeys, List.filter_eq_self]
  intro key hkey
  obtain ⟨f, hf, rfl⟩ := List.mem_map.1 (List.mem_eraseDups.1 hkey)
  exact List.any_eq_true.2 ⟨f, hf, by simp [h f hf]⟩

/-! ## Writing -/

section Writing

variable {o : EmissionOptions} {dir : Path} {gs : List BundleGroup} {t : Tree}

open FileOperation

theorem files_cons_of_none {g : BundleGroup} (h : g.render o.classWrapping = none) :
    o.files dir (g :: gs) = o.files dir gs := by
  simp [EmissionOptions.files, EmissionOptions.bundles, h]

theorem files_cons_of_some {g : BundleGroup} {text : String}
    (h : g.render o.classWrapping = some text) :
    o.files dir (g :: gs) = (o.bundlePath dir g.key, text.toUTF8) :: o.files dir gs := by
  simp [EmissionOptions.files, EmissionOptions.bundles, h]

theorem writeBundles_of_none {g : BundleGroup} (h : g.render o.classWrapping = none) :
    writeBundles o dir (g :: gs) = writeBundles o dir gs := by
  simp [writeBundles, writeBundle, h]

theorem writeBundles_of_some {g : BundleGroup} {text : String}
    (h : g.render o.classWrapping = some text) : writeBundles o dir (g :: gs) = (do
      writeFile (o.bundlePath dir g.key) text.toUTF8
      let paths ← writeBundles o dir gs
      pure (o.bundlePath dir g.key :: paths)) := by
  simp [writeBundles, writeBundle_eq h]

theorem run_writeBundles (h : ∀ x ∈ o.files dir gs, t.Writable x.1) :
    (writeBundles o dir gs).run t =
      (.ok ((o.files dir gs).map Prod.fst), t.writeAll (o.files dir gs)) := by
  induction gs generalizing t with
  | nil => rfl
  | cons g gs ih =>
    cases hr : g.render o.classWrapping with
    | none =>
      rw [files_cons_of_none hr] at h ⊢
      rw [writeBundles_of_none hr, ih h]
    | some text =>
      rw [files_cons_of_some hr] at h ⊢
      rw [writeBundles_of_some hr, run_bind, run_writeFile (h _ List.mem_cons_self)]
      dsimp only
      rw [run_bind, ih (Tree.writable_tail h)]
      rfl

/-- Writing stops at the first file that cannot be written: those before it have been, and none
after it is. -/
theorem run_writeBundles_of_not {before after : List (Path × ByteArray)} {x : Path × ByteArray}
    (hf : o.files dir gs = before ++ x :: after) (h : ∀ y ∈ before, t.Writable y.1)
    (hx : ¬ t.Writable x.1) :
    ∃ e, (writeBundles o dir gs).run t = (.error e, t.writeAll before) := by
  induction gs generalizing t before with
  | nil => simp [EmissionOptions.files, EmissionOptions.bundles] at hf
  | cons g gs ih =>
    cases hr : g.render o.classWrapping with
    | none =>
      rw [files_cons_of_none hr] at hf
      rw [writeBundles_of_none hr]
      exact ih hf h hx
    | some text =>
      rw [files_cons_of_some hr] at hf
      rw [writeBundles_of_some hr, run_bind]
      cases before with
      | nil =>
        obtain ⟨hx', -⟩ := List.cons.inj hf
        obtain ⟨e, he⟩ := run_writeFile_of_not (p := o.bundlePath dir g.key)
          (by rwa [← hx'] at hx) text.toUTF8
        exact ⟨e, by rw [he]; rfl⟩
      | cons y before =>
        obtain ⟨hy, hf⟩ := List.cons.inj hf
        have hw := h y List.mem_cons_self
        have hsame := hw.sameDirectories y.2
        obtain ⟨e, he⟩ := ih (t := t.write y.1 y.2) hf (Tree.writable_tail h)
          fun hx' => hx (hsame.writable_iff.1 hx')
        subst hy
        refine ⟨e, ?_⟩
        rw [run_writeFile hw]
        dsimp only
        rw [run_bind, he]
        rfl

theorem writable_of_run {paths : List Path} {t' : Tree}
    (h : (writeBundles o dir gs).run t = (.ok paths, t')) :
    ∀ x ∈ o.files dir gs, t.Writable x.1 := by
  by_contra hnot
  obtain ⟨before, x, after, hf, hb, hx⟩ := exists_first_not hnot
  obtain ⟨e, he⟩ := run_writeBundles_of_not hf hb hx
  rw [he] at h
  cases h

end Writing

/-! ## Removing -/

section Removing

open FileOperation ScriptBundle.Tree

variable {t u : Tree} {p : Path} {ps : List Path}

/-- A path leads to a place where something may stand. -/
def Tree.Leads (t : Tree) (p : Path) : Prop :=
  p.hasNul = false ∧ ∃ loc, t.locate p = .ok loc

theorem Tree.WellFormed.leads_of_has (ht : t.WellFormed) (h : t.Has p) : t.Leads p := by
  obtain ⟨loc, -, hloc, -⟩ := id h
  exact ⟨ht.hasNul_of_has h, loc, hloc⟩

theorem Tree.SameDirectories.leads (h : t.SameDirectories u) (hp : t.Leads p) : u.Leads p := by
  obtain ⟨hnul, loc, hloc⟩ := hp
  exact ⟨hnul, loc, h.locate_iff.2 hloc⟩

theorem run_removeFound (hnul : p.hasNul = false) {loc : List String}
    (hloc : t.locate p = .ok loc) : (removeFound p).run t =
      if t.entryAt? loc = none then (.ok (), t) else (removeFile p).run t := by
  have hexists : t.existsAt p = .ok (t.entryAt? loc).isSome := by
    rw [existsAt, test, hnul, if_neg Bool.false_ne_true, stat, hloc]
    dsimp only
    cases t.entryAt? loc <;> rfl
  rw [removeFound, run_get_bind, hexists]
  cases t.entryAt? loc with
  | none => rw [if_pos rfl]; rfl
  | some e => rw [if_neg (Option.some_ne_none e)]; rfl

/-- What removing the files where paths lead comes to. -/
structure Removes (t : Tree) (ps : List Path) (u : Tree) : Prop where
  wellFormed : u.WellFormed
  same : t.SameDirectories u
  kept : ∀ loc e, u.entryAt? loc = some e → t.entryAt? loc = some e
  gone : ∀ p ∈ ps, ∃ loc, t.locate p = .ok loc ∧ t.isDirectoryAt loc = false ∧
    u.entryAt? loc = none
  others : ∀ loc, (∀ p ∈ ps, t.locate p ≠ .ok loc) → u.entryAt? loc = t.entryAt? loc

/-- One path after the other. -/
theorem Removes.cons {t₁ : Tree} (h : Removes t [p] t₁) (h' : Removes t₁ ps u) :
    Removes t (p :: ps) u := by
  refine ⟨h'.wellFormed, h.same.trans h'.same, fun loc e he => h.kept loc e (h'.kept loc e he),
    fun q hq => ?_, fun loc hne => ?_⟩
  · obtain rfl | hq := List.mem_cons.1 hq
    · obtain ⟨loc, hloc, hd, hnone⟩ := h.gone q List.mem_cons_self
      refine ⟨loc, hloc, hd, ?_⟩
      by_contra hsome
      obtain ⟨e, he⟩ := Option.ne_none_iff_exists'.1 hsome
      rw [h'.kept loc e he] at hnone
      cases hnone
    · obtain ⟨loc, hloc, hd, hnone⟩ := h'.gone q hq
      exact ⟨loc, h.same.locate_iff.1 hloc, (h.same.isDirectoryAt loc).symm.trans hd, hnone⟩
  · rw [h'.others loc fun q hq hloc =>
      hne q (List.mem_cons_of_mem _ hq) (h.same.locate_iff.1 hloc)]
    exact h.others loc fun q hq => List.mem_singleton.1 hq ▸ hne p List.mem_cons_self

theorem removes_of_removeFound (ht : t.WellFormed) (hp : t.Leads p)
    (h : (removeFound p).run t = (.ok (), u)) : Removes t [p] u := by
  obtain ⟨hnul, loc, hloc⟩ := hp
  rw [run_removeFound hnul hloc] at h
  split_ifs at h with hnone
  · cases h
    exact ⟨ht, .refl _, fun _ _ => id, fun q hq => List.mem_singleton.1 hq ▸
      ⟨loc, hloc, by rw [isDirectoryAt, hnone], hnone⟩, fun _ _ => rfl⟩
  · obtain ⟨-, loc', b, hloc', hb, rfl⟩ := removed_of_run h
    have hnil : loc' ≠ [] := by
      rintro rfl
      cases hb
    have herased : (t.erase loc').entryAt? loc' = none := by
      rw [entryAt?_erase hnil, if_pos (List.prefix_refl _)]
    refine ⟨ht.erase hb, ht.sameDirectories_erase hb, fun q e he => ?_, fun q hq => ?_,
      fun q hne => ?_⟩
    · rwa [ht.entryAt?_erase hb] at he
      rintro rfl
      rw [herased] at he
      cases he
    · obtain rfl := List.mem_singleton.1 hq
      exact ⟨loc', hloc', by rw [isDirectoryAt, hb], herased⟩
    · refine ht.entryAt?_erase hb ?_
      rintro rfl
      exact hne p (List.mem_singleton_self p) hloc'

theorem removes_of_run (ht : t.WellFormed) (hps : ∀ p ∈ ps, t.Leads p)
    (h : (removeFiles ps).run t = (.ok (), u)) : Removes t ps u := by
  induction ps generalizing t with
  | nil =>
    cases h
    exact ⟨ht, .refl _, fun _ _ => id, nofun, fun _ _ => rfl⟩
  | cons p ps ih =>
    obtain ⟨_, t₁, hp, hrest⟩ := run_bind_eq_ok h
    have hfirst := removes_of_removeFound ht (hps p List.mem_cons_self) hp
    exact hfirst.cons (ih hfirst.wellFormed
      (fun q hq => hfirst.same.leads (hps q (List.mem_cons_of_mem _ hq))) hrest)

/-- Files can be removed exactly if none of the paths leads to a directory. -/
theorem exists_removeFiles_iff (ht : t.WellFormed) (hps : ∀ p ∈ ps, t.Leads p) :
    (∃ u, (removeFiles ps).run t = (.ok (), u)) ↔ ∀ p ∈ ps, ¬ t.HasDirectory p := by
  constructor
  · rintro ⟨u, hu⟩ p hp ⟨loc, hloc, hd⟩
    obtain ⟨loc', hloc', hno, -⟩ := (removes_of_run ht hps hu).gone p hp
    obtain rfl := Except.ok.inj (hloc'.symm.trans hloc)
    rw [hd] at hno
    cases hno
  · intro hno
    induction ps generalizing t with
    | nil => exact ⟨t, rfl⟩
    | cons p ps ih =>
      obtain ⟨hp, hrest⟩ := List.forall_mem_cons.1 hps
      obtain ⟨hnul, loc, hloc⟩ := id hp
      obtain ⟨t₁, ht₁⟩ : ∃ t₁, (removeFound p).run t = (.ok (), t₁) := by
        rw [run_removeFound hnul hloc]
        cases he : t.entryAt? loc with
        | none => exact ⟨t, if_pos rfl⟩
        | some e =>
          cases e with
          | directory =>
            exact absurd ⟨loc, hloc, isDirectoryAt_iff.2 he⟩ (hno p List.mem_cons_self)
          | file b =>
            rw [if_neg (Option.some_ne_none _)]
            exact ⟨_, run_removeFile hnul hloc he⟩
      have hfirst := removes_of_removeFound ht hp ht₁
      obtain ⟨u, hu⟩ := ih hfirst.wellFormed (fun q hq => hfirst.same.leads (hrest q hq))
        fun q hq hd => hno q (List.mem_cons_of_mem _ hq) (hfirst.same.hasDirectory_iff.1 hd)
      exact ⟨u, by rw [removeFiles, run_bind, ht₁]; exact hu⟩

end Removing

/-! ## Pruning -/

section Pruning

open FileOperation ScriptBundle.Tree

variable {t u : Tree} {dir p : Path} {ext : String} {written found : List Path}

theorem Tree.mem_bundleFiles (ht : t.WellFormed) (h : t.bundleFiles dir ext = .ok found) :
    p ∈ found ↔ ∃ selectors onlyDirectories,
      Glob.selectors? (bundlePattern ext) = some (selectors, onlyDirectories) ∧
        Glob.Chosen t onlyDirectories selectors dir p := by
  rw [bundleFiles] at h
  split at h
  next => cases h
  next selectors onlyDirectories hs =>
    rw [hs, Glob.mem_select ht h]
    constructor
    · exact fun hp => ⟨selectors, onlyDirectories, rfl, hp⟩
    · rintro ⟨_, _, heq, hp⟩
      cases heq
      exact hp

theorem run_pruneBundles_of_found (h : t.bundleFiles dir ext = .ok found) :
    (pruneBundles dir ext written).run t =
      (removeFiles (found.filter fun p => !(written.map Path.name).contains p.name)).run t := by
  rw [pruneBundles, run_get_bind, h]

theorem exists_found_of_run (h : (pruneBundles dir ext written).run t = (.ok (), u)) :
    ∃ found, t.bundleFiles dir ext = .ok found := by
  rw [pruneBundles, run_get_bind] at h
  split at h
  next => cases h
  next found hfound => exact ⟨found, hfound⟩

theorem leads_of_mem_filter (ht : t.WellFormed) (hdir : t.Has dir)
    (h : t.bundleFiles dir ext = .ok found) :
    ∀ p ∈ found.filter (fun p => !(written.map Path.name).contains p.name), t.Leads p := by
  intro p hp
  obtain ⟨selectors, only, -, hchosen⟩ := (mem_bundleFiles ht h).1 (List.mem_filter.1 hp).1
  exact ht.leads_of_has (hchosen.has hdir)

end Pruning

/-! ## A pass -/

section Pass

open FileOperation ScriptBundle.Tree

variable {o : EmissionOptions} {fs : List Fragment} {dir : Path} {t t₁ u : Tree}
  {paths ps : List Path}

/-- A pass succeeds exactly if the directory can be created, the file of each bundle can be written,
and the stale paths can be cleared away if there is pruning. -/
theorem emit_eq_ok : (emit o fs dir).run t = (.ok paths, u) ↔ ∃ t₁,
    (makeDirectories dir).run t = (.ok (), t₁) ∧
    (∀ x ∈ o.files dir (groupFragments fs), t₁.Writable x.1) ∧
    paths = (o.files dir (groupFragments fs)).map Prod.fst ∧
    (if o.prune then
      (pruneBundles dir o.scriptExt paths).run (t₁.writeAll (o.files dir (groupFragments fs)))
    else (.ok (), t₁.writeAll (o.files dir (groupFragments fs)))) = (.ok (), u) := by
  constructor
  · intro h
    obtain ⟨_, t₁, hmake, h⟩ := run_bind_eq_ok h
    obtain ⟨written, t₂, hwrite, h⟩ := run_bind_eq_ok h
    have hw := writable_of_run hwrite
    rw [run_writeBundles hw] at hwrite
    cases hwrite
    refine ⟨t₁, hmake, hw, ?_⟩
    split_ifs at h ⊢ with hprune
    · obtain ⟨_, t₃, hremove, h⟩ := run_bind_eq_ok h
      cases h
      exact ⟨rfl, hremove⟩
    · cases h
      exact ⟨rfl, rfl⟩
  · rintro ⟨t₁, hmake, hw, rfl, h⟩
    rw [emit, run_bind, hmake]
    dsimp only
    rw [run_bind, run_writeBundles hw]
    dsimp only
    split_ifs at h ⊢ with hprune
    · rw [run_bind, h]
      rfl
    · cases h
      rfl

theorem hasDirectory_writeAll (hmake : (makeDirectories dir).run t = (.ok (), t₁))
    {files : List (Path × ByteArray)} (hw : ∀ x ∈ files, t₁.Writable x.1) :
    (t₁.writeAll files).HasDirectory dir :=
  (sameDirectories_writeAll hw).hasDirectory_iff.2
    ((creates_makeDirectories dir).directory _ _ hmake).2

/-- A pass that succeeds: the directory is there in `t₁`, the files are written to it, and `ps` are
removed. -/
structure Pass (o : EmissionOptions) (fs : List Fragment) (dir : Path) (t t₁ : Tree)
    (paths ps : List Path) (u : Tree) : Prop where
  grows : t.Grows t₁
  directory : ∃ loc, t₁.locate dir = .ok loc ∧ t₁.isDirectoryAt loc = true
  writable : ∀ x ∈ o.files dir (groupFragments fs), t₁.Writable x.1
  paths_eq : paths = (o.files dir (groupFragments fs)).map Prod.fst
  removes : Removes (t₁.writeAll (o.files dir (groupFragments fs))) ps u
  /-- What is removed looks like a bundle and has another name than what is written. -/
  stale : ∀ p ∈ ps, p.name ∉ paths.map Path.name ∧ o.prune = true ∧ ∃ found,
    (t₁.writeAll (o.files dir (groupFragments fs))).bundleFiles dir o.scriptExt = .ok found ∧
      p ∈ found

theorem pass_of_run (ht : t.WellFormed) (h : (emit o fs dir).run t = (.ok paths, u)) :
    ∃ t₁ ps, Pass o fs dir t t₁ paths ps u := by
  obtain ⟨t₁, hmake, hw, hpaths, h⟩ := emit_eq_ok.1 h
  have hgrows := grows_of_makeDirectories hmake
  have hdir := ((creates_makeDirectories dir).directory _ _ hmake).2
  have ht₂ := (hgrows.wellFormed ht).writeAll hw
  split_ifs at h with hprune
  · obtain ⟨found, hfound⟩ := exists_found_of_run h
    rw [run_pruneBundles_of_found hfound] at h
    refine ⟨t₁, _, hgrows, hdir, hw, hpaths, removes_of_run ht₂ (leads_of_mem_filter ht₂
      (hasDirectory_writeAll hmake hw).has hfound) h, fun p hp => ?_⟩
    obtain ⟨hmem, hname⟩ := List.mem_filter.1 hp
    exact ⟨by simpa using hname, hprune, found, hfound, hmem⟩
  · cases h
    exact ⟨t₁, [], hgrows, hdir, hw, hpaths, ⟨ht₂, .refl _, fun _ _ => id, nofun, fun _ _ => rfl⟩,
      nofun⟩

namespace Pass

theorem wellFormed (h : Pass o fs dir t t₁ paths ps u) (ht : t.WellFormed) :
    (t₁.writeAll (o.files dir (groupFragments fs))).WellFormed :=
  (h.grows.wellFormed ht).writeAll h.writable

theorem same (h : Pass o fs dir t t₁ paths ps u) : t₁.SameDirectories u :=
  (sameDirectories_writeAll h.writable).trans h.removes.same

/-- Nothing is removed where a path leads to which something was written. -/
theorem spares (h : Pass o fs dir t t₁ paths ps u) (ht : t.WellFormed) {x : Path × ByteArray}
    (hx : x ∈ o.files dir (groupFragments fs)) {loc : List String}
    (hloc : t₁.locate x.1 = .ok loc) : u.entryAt? loc =
      (t₁.writeAll (o.files dir (groupFragments fs))).entryAt? loc := by
  have hsame := sameDirectories_writeAll h.writable
  refine h.removes.others loc fun p hp hp' => (h.stale p hp).1 ?_
  obtain ⟨q, hq, hd, -⟩ := h.removes.gone p hp
  obtain rfl : q = loc := Except.ok.inj (hq.symm.trans hp')
  obtain ⟨a, ha, -⟩ := (h.wellFormed ht).exists_of_locate hp' hd
  obtain ⟨b, hb, -⟩ := (h.wellFormed ht).exists_of_locate (hsame.locate_iff.2 hloc) hd
  have hname : p.name = x.1.name := by
    have hlast := congrArg List.getLast? (ha.symm.trans hb)
    simpa using hlast
  rw [hname, h.paths_eq]
  exact List.mem_map_of_mem (List.mem_map_of_mem hx)

/-- A bundle with a plain key is written directly in the directory. -/
theorem locate_of_plain (h : Pass o fs dir t t₁ paths ps u) {loc : List String}
    (hdir : u.locate dir = .ok loc) {b : String × String} (hb : b ∈ o.bundles (groupFragments fs))
    (hplain : o.Plain b.1) :
    u.locate (o.bundlePath dir b.1) = .ok (loc ++ [bundleFileName b.1 o.scriptExt]) := by
  obtain ⟨-, q, hq, -⟩ := h.writable _ (List.mem_map_of_mem hb)
  have hq := h.same.locate_iff.2 hq
  rw [EmissionOptions.bundlePath_of_plain hplain] at hq ⊢
  obtain ⟨q', hq', hn⟩ := locate_concat.1 hq
  obtain rfl : q' = loc := Except.ok.inj (hq'.symm.trans hdir)
  obtain ⟨-, ⟨hdots, -⟩ | ⟨-, -, rfl⟩⟩ := enter_eq_ok.1 hn
  · exact absurd hdots (bundleFileName_ne (by simp))
  · exact hq

/-- The paths of two bundles with plain keys lead to the same place only if the keys are the
same. -/
theorem locate_eq_iff (h : Pass o fs dir t t₁ paths ps u) {b c : String × String}
    (hb : b ∈ o.bundles (groupFragments fs)) (hc : c ∈ o.bundles (groupFragments fs))
    (hb' : o.Plain b.1) (hc' : o.Plain c.1) :
    u.locate (o.bundlePath dir b.1) = u.locate (o.bundlePath dir c.1) ↔ b.1 = c.1 := by
  refine ⟨fun heq => ?_, fun heq => by rw [heq]⟩
  obtain ⟨loc, hdir, -⟩ := h.directory
  have hdir := h.same.locate_iff.2 hdir
  rw [h.locate_of_plain hdir hb hb', h.locate_of_plain hdir hc hc'] at heq
  have hlast := congrArg List.getLast? (Except.ok.inj heq)
  exact bundleFileName_injective (by simpa using hlast)

/-- Bundles with plain keys are written to different places. -/
theorem apart_of_plain (h : Pass o fs dir t t₁ paths ps u) :
    (o.bundles (groupFragments fs)).Pairwise fun b c => o.Plain b.1 → o.Plain c.1 →
      u.locate (o.bundlePath dir c.1) ≠ u.locate (o.bundlePath dir b.1) :=
  (nodup_bundles fs).imp_of_mem fun hb hc hne hb' hc' heq =>
    hne ((h.locate_eq_iff hc hb hc' hb').1 heq).symm

theorem holds (h : Pass o fs dir t t₁ paths ps u) (ht : t.WellFormed) :
    u.HoldsAll (o.files dir (groupFragments fs)) := by
  intro before x after heq hlast
  have hx : x ∈ o.files dir (groupFragments fs) := heq ▸ by simp
  obtain ⟨hnul, loc, hloc, -⟩ := h.writable x hx
  have hloc' := h.same.locate_iff.2 hloc
  have hw := h.writable
  have hspared := h.spares ht hx hloc
  rw [heq] at hw hspared
  rw [entryAt?_writeAll hw hloc fun y hy hy' =>
    hlast y hy ((h.same.locate_iff.2 hy').trans hloc'.symm)] at hspared
  exact readFile_eq_ok.2 ⟨hnul, loc, hloc', hspared⟩

/-- Where the path of a bundle leads stands a file. -/
theorem exists_readFile (h : Pass o fs dir t t₁ paths ps u) (ht : t.WellFormed) {p : Path}
    (hp : p ∈ paths) : ∃ content, u.readFile p = .ok content := by
  rw [h.paths_eq] at hp
  obtain ⟨x, hx, rfl⟩ := List.mem_map.1 hp
  obtain ⟨hnul, loc, hloc, -⟩ := h.writable x hx
  have hloc := h.same.locate_iff.2 hloc
  obtain ⟨-, y, -, -, -, -, hfile⟩ := (h.holds ht).entryAt? hx hloc
  exact ⟨y.2, readFile_eq_ok.2 ⟨hnul, loc, hloc, hfile⟩⟩

/-- A path is written for each key under which there is something to write. -/
theorem paths_eq_map (h : Pass o fs dir t t₁ paths ps u) :
    paths = (o.filledKeys fs).map (o.bundlePath dir) := by
  rw [h.paths_eq, ← map_fst_bundles_eq, EmissionOptions.files, List.map_map, List.map_map]
  rfl

/-- A file that was not written was there before. -/
theorem elsewhere (h : Pass o fs dir t t₁ paths ps u) {loc : List String} {content : ByteArray}
    (hc : u.entryAt? loc = some (.file content)) (hne : ∀ p ∈ paths, u.locate p ≠ .ok loc) :
    t.entryAt? loc = some (.file content) := by
  have hc := h.removes.kept loc _ hc
  rw [entryAt?_writeAll_of_ne h.writable] at hc
  · exact h.grows.files loc content hc
  · intro x hx hloc
    exact hne x.1 (h.paths_eq ▸ List.mem_map_of_mem hx) (h.same.locate_iff.2 hloc)

/-- A file that was there before stays if it was not written, and does not stand in the directory
if there is pruning. -/
theorem spared (h : Pass o fs dir t t₁ paths ps u) (ht : t.WellFormed) {loc : List String}
    {content : ByteArray} (hc : t.entryAt? loc = some (.file content))
    (hne : ∀ p ∈ paths, u.locate p ≠ .ok loc)
    (hprune : o.prune = true → '/' ∉ o.scriptExt.toList ∧ u.locate dir ≠ .ok loc.dropLast) :
    u.entryAt? loc = some (.file content) := by
  rw [h.removes.others loc, entryAt?_writeAll_of_ne h.writable, h.grows.keeps loc _ hc]
  · intro x hx hloc
    exact hne x.1 (h.paths_eq ▸ List.mem_map_of_mem hx) (h.same.locate_iff.2 hloc)
  · intro p hp hloc
    obtain ⟨-, hon, found, hfound, hmem⟩ := h.stale p hp
    obtain ⟨hext, hdir⟩ := hprune hon
    obtain ⟨q, hq, hd, -⟩ := h.removes.gone p hp
    obtain rfl : q = loc := Except.ok.inj (hq.symm.trans hloc)
    obtain ⟨n, rfl⟩ := exists_of_mem_bundleFiles hext hfound hmem
    obtain ⟨a, ha, hn⟩ := locate_concat.1 hloc
    obtain ⟨had, ⟨-, rfl⟩ | ⟨-, -, rfl⟩⟩ := enter_eq_ok.1 hn
    · rw [(h.wellFormed ht).parent_of_entry (isDirectoryAt_iff.1 had)] at hd
      cases hd
    · rw [List.dropLast_concat] at hdir
      exact hdir (h.removes.same.locate_iff.2 ha)

end Pass

/-- What a pass that succeeds has written, by which the tree `t` has become `u`. -/
structure Emits (o : EmissionOptions) (fs : List Fragment) (dir : Path) (t u : Tree)
    (paths : List Path) : Prop where
  /-- There is a path for each bundle that has content, in the order in which the keys appear
  first. -/
  paths_eq : paths = (o.bundles (groupFragments fs)).map fun b => o.bundlePath dir b.1
  /-- These keys are different. -/
  keys : (o.bundles (groupFragments fs)).Pairwise fun b c => b.1 ≠ c.1
  /-- Where a path leads stands the file of the bundle, unless the path of a later bundle leads
  there too. -/
  holds : u.HoldsAll (o.files dir (groupFragments fs))
  /-- Any other file was there before. -/
  elsewhere : ∀ loc content, u.entryAt? loc = some (.file content) →
    (∀ p ∈ paths, u.locate p ≠ .ok loc) → t.entryAt? loc = some (.file content)
  /-- Any other file that was there before still is, unless it stands in the directory and there is
  pruning. -/
  spared : ∀ loc content, t.entryAt? loc = some (.file content) →
    (∀ p ∈ paths, u.locate p ≠ .ok loc) →
    (o.prune = true → '/' ∉ o.scriptExt.toList ∧ u.locate dir ≠ .ok loc.dropLast) →
      u.entryAt? loc = some (.file content)
  /-- A bundle is written directly in the directory if the name of its file has no slash, -/
  direct : ∃ loc, u.locate dir = .ok loc ∧ u.isDirectoryAt loc = true ∧
    ∀ b ∈ o.bundles (groupFragments fs), o.Plain b.1 →
      u.locate (o.bundlePath dir b.1) = .ok (loc ++ [bundleFileName b.1 o.scriptExt])
  /-- and two such bundles are written to different places. -/
  apart : (o.bundles (groupFragments fs)).Pairwise fun b c => o.Plain b.1 → o.Plain c.1 →
    u.locate (o.bundlePath dir c.1) ≠ u.locate (o.bundlePath dir b.1)
  /-- So if all are such then no two of the paths are the same, -/
  distinct : (∀ b ∈ o.bundles (groupFragments fs), o.Plain b.1) → paths.Nodup
  /-- and the file of the bundle of any fragment holds the scripts with its key. -/
  own : (∀ b ∈ o.bundles (groupFragments fs), o.Plain b.1) → ∀ f ∈ fs, ∀ text,
    BundleGroup.render o.classWrapping
      ⟨f.bundleKey, fs.filter fun e => e.bundleKey = f.bundleKey⟩ = some text →
        u.readFile (o.bundlePath dir f.bundleKey) = .ok text.toUTF8
  /-- Another pass may follow. -/
  wellFormed : u.WellFormed

/-- **No bundle is lost.** When bundles are written, then each one that has content is written to a
place of its own directly in the directory, if no slash stands in the names of the files, and is not
changed afterwards. In general a bundle is lost only if the path of a later one leads to the same
place. -/
theorem emits_run (ht : t.WellFormed) (h : (emit o fs dir).run t = (.ok paths, u)) :
    Emits o fs dir t u paths := by
  obtain ⟨t₁, ps, hpass⟩ := pass_of_run ht h
  obtain ⟨loc, hdir, hd⟩ := hpass.directory
  have hdir := hpass.same.locate_iff.2 hdir
  have hpaths : paths = (o.bundles (groupFragments fs)).map fun b => o.bundlePath dir b.1 := by
    rw [hpass.paths_eq, EmissionOptions.files, List.map_map]
    rfl
  have hholds := hpass.holds ht
  have hapart : (∀ b ∈ o.bundles (groupFragments fs), o.Plain b.1) →
      (o.bundles (groupFragments fs)).Pairwise fun b c =>
        u.locate (o.bundlePath dir c.1) ≠ u.locate (o.bundlePath dir b.1) := fun hplain =>
    hpass.apart_of_plain.imp_of_mem fun hb hc hne => hne (hplain _ hb) (hplain _ hc)
  refine
    { paths_eq := hpaths
      keys := nodup_bundles fs
      holds := hholds
      elsewhere := fun loc content => hpass.elsewhere
      spared := fun loc content => hpass.spared ht
      direct := ⟨loc, hdir, (hpass.same.isDirectoryAt loc).trans hd,
        fun b hb => hpass.locate_of_plain hdir hb⟩
      apart := hpass.apart_of_plain
      distinct := fun hplain => ?distinct
      own := fun hplain f hf text htext => ?own
      wellFormed := hpass.removes.wellFormed }
  case distinct =>
    rw [hpaths, List.Nodup, List.pairwise_map]
    exact (hapart hplain).imp fun hne heq => hne (congrArg u.locate heq.symm)
  case own =>
    obtain ⟨g, hg, hfg⟩ := exists_group_of_mem hf
    have hkey := key_of_mem_groupFragments hg f hfg
    have hgroup : ⟨f.bundleKey, fs.filter fun e => e.bundleKey = f.bundleKey⟩ = g := by
      rw [hkey, ← fragments_eq_filter hg]
    have hb : (g.key, text) ∈ o.bundles (groupFragments fs) :=
      mem_bundles.2 ⟨g, hg, rfl, hgroup ▸ htext⟩
    have hfiles : (o.files dir (groupFragments fs)).Pairwise
        fun x y => u.locate y.1 ≠ u.locate x.1 := by
      rw [EmissionOptions.files, List.pairwise_map]
      exact hapart hplain
    rw [hkey]
    exact hholds.read hfiles (List.mem_map.2 ⟨_, hb, rfl⟩)

/-- Two bundles are written into a directory, and one that is there is removed. -/
theorem emits_two_bundles :
    let f : Fragment := ⟨"App.A", "first()", true, some "x", none, true, none, false, false⟩
    let g : Fragment := ⟨"App.B", "second()", false, none, none, true, none, false, false⟩
    let t : Tree := ⟨[(["out"], .directory), (["out", "old.g.js"], .file .empty)], []⟩
    let dir : Path := ⟨0, ["out"]⟩
    let paths : List Path := [⟨0, ["out", "x.g.js"]⟩, ⟨0, ["out", "App.B.index.g.js"]⟩]
    let r := (emit { prune := true } [f, g] dir).run t
    t.WellFormed ∧ r = (.ok paths, r.2) ∧ Emits { prune := true } [f, g] dir t r.2 paths := by
  intro f g t dir paths r
  have ht : t.WellFormed := by decide +kernel
  have hr : r = (.ok paths, r.2) := Prod.ext (by decide +kernel) rfl
  exact ⟨ht, hr, emits_run ht hr⟩

/-- With a slash in its name, one bundle is written over another: the keys `x` and `./x` lead to the
same file, where only the script of the second is left. -/
theorem bundle_overwritten :
    let f : Fragment := ⟨"App.A", "first()", true, some "x", none, true, none, false, false⟩
    let g : Fragment := ⟨"App.B", "second()", true, some "./x", none, true, none, false, false⟩
    let file : Path := ⟨0, ["out", "x.g.js"]⟩
    let r := (emit {} [f, g] ⟨0, ["out"]⟩).run ⟨[], []⟩
    f.bundleKey ≠ g.bundleKey ∧ r.1 = .ok [file, file] ∧
      BundleGroup.render false ⟨"x", [f]⟩ = some "// Auto-generated bundle: x\nfirst()\n" ∧
      r.2.readFile file = .ok "// Auto-generated bundle: ./x\nsecond()\n".toUTF8 := by
  decide +kernel

end Pass

end ScriptBundle
