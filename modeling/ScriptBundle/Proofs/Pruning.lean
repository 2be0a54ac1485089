import ScriptBundle.Proofs.Emission
/-!
# Stale bundles

What pruning removes are the stale paths: those that look like bundles under names that are not
among those to keep (`Tree.Stale`). It succeeds if none of them leads to a directory
(`exists_pruneBundles_iff`), and then nothing else is removed (`removes_of_pruneBundles`). With this
the conditions under which a pass succeeds, and what it leads to, are complete (`emit_eq_ok`).
-/

namespace ScriptBundle

open FileOperation ScriptBundle.Tree

variable {t u : Tree} {dir p : Path} {ext : String} {loc kept : List String}

/-! ## Stale paths -/

/-- A path that looks like a bundle in a directory, and whose name is not to be kept. -/
def Tree.Stale (t : Tree) (dir : Path) (ext : String) (kept : List String) (p : Path) : Prop :=
  p.name ∉ kept ∧ ∃ selectors onlyDirectories,
    Glob.selectors? (bundlePattern ext) = some (selectors, onlyDirectories) ∧
      Glob.Chosen t onlyDirectories selectors dir p

theorem Tree.exists_bundleFiles_congr (ht : t.WellFormed) (hu : u.WellFormed)
    (hsame : t.SameDirectories u) (hfewer : ∀ q, u.Has q → t.Has q) :
    (∃ found, u.bundleFiles dir ext = .ok found) ↔ ∃ found, t.bundleFiles dir ext = .ok found := by
  simp only [bundleFiles]
  split
  · exact Iff.rfl
  · exact Glob.exists_select_congr ht hu hsame hfewer

/-- In a tree with the same directories and fewer files, the stale paths are those that still lead
to something. -/
theorem Tree.stale_iff (hsame : t.SameDirectories u) (hfewer : ∀ q, u.Has q → t.Has q)
    (hdir : u.Has dir) : u.Stale dir ext kept p ↔ t.Stale dir ext kept p ∧ u.Has p := by
  simp only [Stale, Glob.chosen_iff hsame hfewer hdir]
  constructor
  · rintro ⟨hname, selectors, only, hs, hp, hhas⟩
    exact ⟨⟨hname, selectors, only, hs, hp⟩, hhas⟩
  · rintro ⟨⟨hname, selectors, only, hs, hp⟩, hhas⟩
    exact ⟨hname, selectors, only, hs, hp, hhas⟩

theorem Tree.Stale.has (h : t.Stale dir ext kept p) (hdir : t.Has dir) : t.Has p := by
  obtain ⟨-, selectors, only, -, hp⟩ := h
  exact hp.has hdir

/-- What is stale depends on where something stands, and not on what stands there. -/
theorem Tree.stale_congr {kept' : List String} (hsame : t.SameDirectories u)
    (hhas : ∀ q, u.Has q ↔ t.Has q) (hkept : ∀ n, n ∈ kept' ↔ n ∈ kept) (hdir : t.Has dir) :
    u.Stale dir ext kept' p ↔ t.Stale dir ext kept p := by
  have hnames : u.Stale dir ext kept' p ↔ u.Stale dir ext kept p := by
    simp only [Stale, hkept]
  rw [hnames, stale_iff hsame (fun q => (hhas q).1) ((hhas dir).2 hdir), hhas p]
  exact and_iff_left_of_imp fun hp => hp.has hdir

/-- If there is no slash in the extension then stale paths are names in the directory. -/
theorem Tree.stale_iff_name (hslash : '/' ∉ ext.toList) : t.Stale dir ext kept p ↔
    Glob.hasDoubleStar ext.toList = false ∧ t.HasDirectory dir ∧ ∃ n, p = dir.below [n] ∧
      IsName n ∧ n ∉ kept ∧ Glob.nameMatches (bundlePattern ext) n = true ∧ t.Has p := by
  have hname : ∀ n, (dir.below [n]).name = n := fun n => by simp [Path.name, Path.below]
  rw [Stale, Glob.selectors?_bundlePattern hslash]
  constructor
  · rintro ⟨hkept, selectors, only, hs, hp⟩
    split_ifs at hs with hstars
    cases hs
    obtain ⟨_, ⟨hdir, n, rfl, hn, hmatch, hhas, -⟩, rfl⟩ := hp
    exact ⟨Bool.eq_false_iff.2 hstars, hdir, n, rfl, hn, hname n ▸ hkept, hmatch, hhas⟩
  · rintro ⟨hstars, hdir, n, rfl, hn, hkept, hmatch, hhas⟩
    rw [hstars, if_neg Bool.false_ne_true]
    exact ⟨(hname n).symm ▸ hkept, _, _, rfl, _,
      ⟨hdir, n, rfl, hn, hmatch, hhas, fun hon => absurd hon Bool.false_ne_true⟩, rfl⟩

theorem Tree.Stale.exists_name (h : t.Stale dir ext kept p) (hslash : '/' ∉ ext.toList) :
    ∃ n, p = dir.below [n] ∧ IsName n ∧ Glob.nameMatches (bundlePattern ext) n = true ∧
      t.Has p := by
  obtain ⟨-, -, n, hp, hn, -, hmatch, hhas⟩ := (stale_iff_name hslash).1 h
  exact ⟨n, hp, hn, hmatch, hhas⟩

/-- Stale paths can be found, and none of them leads to a directory. -/
structure Tree.Clearable (t : Tree) (dir : Path) (ext : String) (kept : List String) : Prop where
  found : ∃ found, t.bundleFiles dir ext = .ok found
  files : ∀ p, t.Stale dir ext kept p → ¬ t.HasDirectory p

theorem Tree.Clearable.congr {kept' : List String} (h : t.Clearable dir ext kept)
    (ht : t.WellFormed) (hu : u.WellFormed) (hsame : t.SameDirectories u)
    (hhas : ∀ q, u.Has q ↔ t.Has q) (hkept : ∀ n, n ∈ kept' ↔ n ∈ kept) (hdir : t.Has dir) :
    u.Clearable dir ext kept' where
  found := (exists_bundleFiles_congr ht hu hsame fun q => (hhas q).1).2 h.found
  files p hp hd := h.files p ((stale_congr hsame hhas hkept hdir).1 hp)
    (hsame.hasDirectory_iff.1 hd)

/-! ## Pruning -/

variable {written : List Path}

theorem mem_filter_stale (ht : t.WellFormed) {found : List Path}
    (h : t.bundleFiles dir ext = .ok found) :
    p ∈ found.filter (fun p => !(written.map Path.name).contains p.name) ↔
      t.Stale dir ext (written.map Path.name) p := by
  rw [List.mem_filter, mem_bundleFiles ht h, Stale, and_comm]
  simp

/-- Pruning succeeds exactly if the stale paths can be cleared away. -/
theorem exists_pruneBundles_iff (ht : t.WellFormed) (hdir : t.Has dir) :
    (∃ u, (pruneBundles dir ext written).run t = (.ok (), u)) ↔
      t.Clearable dir ext (written.map Path.name) := by
  have hiff : ∀ {found}, t.bundleFiles dir ext = .ok found →
      ((∃ u, (pruneBundles dir ext written).run t = (.ok (), u)) ↔
        ∀ p, t.Stale dir ext (written.map Path.name) p → ¬ t.HasDirectory p) := by
    intro found hfound
    rw [run_pruneBundles_of_found hfound,
      exists_removeFiles_iff ht (leads_of_mem_filter ht hdir hfound)]
    simp only [mem_filter_stale ht hfound]
  constructor
  · rintro ⟨u, h⟩
    obtain ⟨found, hfound⟩ := exists_found_of_run h
    exact ⟨⟨found, hfound⟩, (hiff hfound).1 ⟨u, h⟩⟩
  · rintro ⟨⟨found, hfound⟩, hfiles⟩
    exact (hiff hfound).2 hfiles

/-- Pruning removes the stale paths. -/
theorem removes_of_pruneBundles (ht : t.WellFormed) (hdir : t.Has dir)
    (h : (pruneBundles dir ext written).run t = (.ok (), u)) :
    ∃ ps, (∀ p, p ∈ ps ↔ t.Stale dir ext (written.map Path.name) p) ∧ Removes t ps u := by
  obtain ⟨found, hfound⟩ := exists_found_of_run h
  rw [run_pruneBundles_of_found hfound] at h
  exact ⟨_, fun p => mem_filter_stale ht hfound,
    removes_of_run ht (leads_of_mem_filter ht hdir hfound) h⟩

/-- Pruning leaves the tree as it is if nothing is stale. -/
theorem run_pruneBundles_of_none (ht : t.WellFormed)
    (hfound : ∃ found, t.bundleFiles dir ext = .ok found)
    (h : ∀ p, ¬ t.Stale dir ext (written.map Path.name) p) :
    (pruneBundles dir ext written).run t = (.ok (), t) := by
  obtain ⟨found, hfound⟩ := hfound
  rw [run_pruneBundles_of_found hfound, List.eq_nil_iff_forall_not_mem.2 fun p hp =>
    h p ((mem_filter_stale ht hfound).1 hp)]
  rfl

/-! ## Passes -/

section Passes

variable {o : EmissionOptions} {fs : List Fragment} {paths : List Path}

/-- A pass that succeeds, in full: the directory is created, the files are written, and of the paths
in the directory all that are stale are removed, if there is pruning. -/
structure FullPass (o : EmissionOptions) (fs : List Fragment) (dir : Path) (t t₁ : Tree)
    (paths ps : List Path) (u : Tree) : Prop extends Pass o fs dir t t₁ paths ps u where
  made : (makeDirectories dir).run t = (.ok (), t₁)
  found : o.prune = true → ∃ found,
    (t₁.writeAll (o.files dir (groupFragments fs))).bundleFiles dir o.scriptExt = .ok found
  cleared : ∀ p, p ∈ ps ↔ o.prune = true ∧
    (t₁.writeAll (o.files dir (groupFragments fs))).Stale dir o.scriptExt (paths.map Path.name) p

theorem fullPass_of_run (ht : t.WellFormed) (h : (emit o fs dir).run t = (.ok paths, u)) :
    ∃ t₁ ps, FullPass o fs dir t t₁ paths ps u := by
  obtain ⟨t₁, hmake, hw, hpaths, h⟩ := emit_eq_ok.1 h
  have hgrows := grows_of_makeDirectories hmake
  have hdir := ((creates_makeDirectories dir).directory _ _ hmake).2
  have hv := (hgrows.wellFormed ht).writeAll hw
  split_ifs at h with hprune
  · obtain ⟨found, hfound⟩ := exists_found_of_run h
    obtain ⟨ps, hps, hremoves⟩ := removes_of_pruneBundles hv (hasDirectory_writeAll hmake hw).has h
    refine ⟨t₁, ps, ⟨hgrows, hdir, hw, hpaths, hremoves, fun p hp => ?_⟩, hmake,
      fun _ => ⟨found, hfound⟩, by simp [hps, hprune]⟩
    exact ⟨((hps p).1 hp).1, hprune, found, hfound, (mem_bundleFiles hv hfound).2 ((hps p).1 hp).2⟩
  · cases h
    exact ⟨t₁, [], ⟨hgrows, hdir, hw, hpaths, ⟨hv, .refl _, fun _ _ => id, nofun, fun _ _ => rfl⟩,
      nofun⟩, hmake, fun hon => absurd hon hprune, by simp [hprune]⟩

namespace FullPass

variable {t₁ : Tree} {ps : List Path}

theorem hasNul (h : FullPass o fs dir t t₁ paths ps u) : dir.hasNul = false :=
  ((creates_makeDirectories dir).directory _ _ h.made).1

theorem hasDirectory (h : FullPass o fs dir t t₁ paths ps u) : u.HasDirectory dir :=
  h.same.hasDirectory_iff.2 h.directory

/-- What is left has been written. -/
theorem has_of_has (h : FullPass o fs dir t t₁ paths ps u) {q : Path} (hq : u.Has q) :
    (t₁.writeAll (o.files dir (groupFragments fs))).Has q := by
  obtain ⟨loc, e, hloc, he⟩ := hq
  exact ⟨loc, e, h.removes.same.locate_iff.1 hloc, h.removes.kept loc e he⟩

/-- After pruning nothing is stale. -/
theorem not_stale (h : FullPass o fs dir t t₁ paths ps u) (hprune : o.prune = true) :
    ¬ u.Stale dir o.scriptExt (paths.map Path.name) p := by
  intro hp
  obtain ⟨hstale, loc, e, hloc, he⟩ :=
    (stale_iff h.removes.same (fun q => h.has_of_has) h.hasDirectory.has).1 hp
  obtain ⟨loc', hloc', -, hnone⟩ := h.removes.gone p ((h.cleared p).2 ⟨hprune, hstale⟩)
  obtain rfl := Except.ok.inj ((h.removes.same.locate_iff.1 hloc).symm.trans hloc')
  rw [hnone] at he
  cases he

end FullPass

end Passes

end ScriptBundle
