import ScriptBundle.Proofs.Declarations
import ScriptBundle.Proofs.Pruning
import ScriptBundle.Proofs.Sections
/-!
# Components in another order

The order of components decides no more than the order in which bundles are written, and that of the
scripts in a bundle that components share. Groups are the same but for their order
(`keys_groupFragments_perm`, `groupFragments_filter`), and so are the sections of a bundle
(`sameSections_of_perm`); from this `emit_reordered` says what two passes have in common. That the
scripts of a shared bundle keep the order of the components is shown by `shared_bundle_ordered`.
-/

namespace ScriptBundle

open FileOperation ScriptBundle.Tree

/-! ## Groups -/

section Groups

variable {fs fs' : List Fragment} {key : String}

/-- The keys of the groups depend on the order only in their own. -/
theorem keys_groupFragments_perm (h : fs.Perm fs') :
    ((groupFragments fs).map BundleGroup.key).Perm ((groupFragments fs').map BundleGroup.key) := by
  refine (List.perm_ext_iff_of_nodup (nodup_groupFragments fs) (nodup_groupFragments fs')).2 ?_
  intro key
  simp only [mem_keys_groupFragments, h.mem_iff]

/-- Groups are formed without regard to those of other keys. -/
theorem groupFragments_filter (keep : String → Bool) (fs : List Fragment) :
    (groupFragments fs).filter (fun g => keep g.key) =
      groupFragments (fs.filter fun f => keep f.bundleKey) := by
  have hkeys : (fs.filter fun f => keep f.bundleKey).map Fragment.bundleKey =
      (fs.map Fragment.bundleKey).filter keep := List.filter_map.symm
  rw [groupFragments_eq, groupFragments_eq, hkeys, eraseDups_filter, List.filter_map]
  refine List.map_congr_left fun key hkey => ?_
  have hkeep : keep key = true := (List.mem_filter.1 hkey).2
  rw [groupOf, groupOf, List.filter_filter]
  congr 1
  refine List.filter_congr fun f _ => ?_
  by_cases hf : f.bundleKey = key
  · rw [hf, hkeep, Bool.and_true]
  · rw [decide_eq_false hf, Bool.false_and]

end Groups

/-! ## Sections -/

/-- Sections that differ at most in the order of what stands in a class. -/
inductive Section.Alike : Section → Section → Prop
  | plain (f : Fragment) : Alike (.plain f) (.plain f)
  | wrapped (name : String) {members members' : List Fragment} (h : members.Perm members') :
      Alike (.wrapped name members) (.wrapped name members')

/-- The same sections in any order. -/
def SameSections (ss ss' : List Section) : Prop :=
  ∃ ss₁, List.Forall₂ Section.Alike ss ss₁ ∧ ss₁.Perm ss'

section Sections

variable {fs fs' : List Fragment}

/-- The same fragments in another order make the same sections. -/
theorem sameSections_of_perm (h : fs.Perm fs') (classWrapping : Bool) :
    SameSections (sections classWrapping fs) (sections classWrapping fs') := by
  have hclasses : (classNames classWrapping fs).Perm (classNames classWrapping fs') := by
    refine (List.perm_ext_iff_of_nodup (nodup_classNames _ _) (nodup_classNames _ _)).2 ?_
    simp only [mem_classNames, h.mem_iff, implies_true]
  -- Class by class, the members of one list and then those of the other.
  have halike : List.Forall₂ Section.Alike
      ((fs.filter fun f => !(classWrapping && f.asClass)).map Section.plain ++
        (classNames classWrapping fs).map (classSection classWrapping fs))
      ((fs.filter fun f => !(classWrapping && f.asClass)).map Section.plain ++
        (classNames classWrapping fs).map (classSection classWrapping fs')) := by
    refine List.rel_append (List.forall₂_same.2 fun s hs => ?_) ?_
    · obtain ⟨f, -, rfl⟩ := List.mem_map.1 hs
      exact .plain f
    · rw [List.forall₂_map_left_iff, List.forall₂_map_right_iff, List.forall₂_same]
      exact fun name _ => .wrapped name (h.filter _)
  obtain ⟨ss, hss, hperm₁⟩ := List.perm_comp_forall₂ (sections_perm classWrapping fs) halike
  refine ⟨ss, hss, hperm₁.trans (.trans ?_ (sections_perm classWrapping fs').symm)⟩
  exact ((h.filter _).map _).append (hclasses.map _)

/-- What alike sections say: the same lines, of which those between the first and the last ones may
stand in another order. -/
theorem Section.Alike.exists_text {s s' : Section} (h : s.Alike s') :
    ∃ start lines lines' finish, lines.Perm lines' ∧
      s.text = "\n".intercalate (start ++ ["\n".intercalate lines] ++ finish) ∧
        s'.text = "\n".intercalate (start ++ ["\n".intercalate lines'] ++ finish) := by
  cases h with
  | plain f =>
    exact ⟨[], [f.body], [f.body], [], .refl _, by simp [Section.text], by simp [Section.text]⟩
  | @wrapped name members members' h =>
    have hany : ∀ p : Fragment → Bool, members'.any p = members.any p := fun p => by
      rw [Bool.eq_iff_iff, List.any_eq_true, List.any_eq_true]
      simp only [h.mem_iff]
    have hlines := h.flatMap_right fun f => (Text.lines f.body).map indentLine
    simp only [Section.text, classLines, hany]
    split_ifs
    · exact ⟨[_], _, _, [_, _], hlines, rfl, rfl⟩
    · exact ⟨[_], _, _, [_, _], hlines, rfl, rfl⟩
    · exact ⟨[_], _, _, [_], hlines, rfl, rfl⟩
    · exact ⟨[_], _, _, [_], hlines, rfl, rfl⟩

end Sections

/-! ## Files -/

section Files

variable {o : EmissionOptions} {dir : Path} {fs fs' : List Fragment}

theorem files_filter (keep : Path → Bool) (gs : List BundleGroup) :
    (o.files dir gs).filter (fun x => keep x.1) =
      o.files dir (gs.filter fun g => keep (o.bundlePath dir g.key)) := by
  induction gs with
  | nil => rfl
  | cons g gs ih =>
    cases hr : g.render o.classWrapping with
    | none =>
      rw [files_cons_of_none hr, ih, List.filter_cons]
      split_ifs
      · rw [files_cons_of_none hr]
      · rfl
    | some text =>
      rw [files_cons_of_some hr, List.filter_cons, List.filter_cons, ih]
      split_ifs
      · rw [files_cons_of_some hr]
      · rfl

/-- The file of a bundle without a blank script is written. -/
theorem map_fst_files (h : ∀ f ∈ fs, f.isBlank = false) :
    (o.files dir (groupFragments fs)).map Prod.fst =
      ((groupFragments fs).map BundleGroup.key).map (o.bundlePath dir) := by
  rw [← map_fst_bundles h, EmissionOptions.files, List.map_map, List.map_map]
  rfl

theorem map_fst_files_perm (h : fs.Perm fs') (hblank : ∀ f ∈ fs, f.isBlank = false) :
    ((o.files dir (groupFragments fs)).map Prod.fst).Perm
      ((o.files dir (groupFragments fs')).map Prod.fst) := by
  rw [map_fst_files hblank, map_fst_files fun f hf => hblank f (h.mem_iff.2 hf)]
  exact (keys_groupFragments_perm h).map _

end Files

/-! ## Passes -/

/-- The components with scripts that are written to the place at a location. -/
def Tree.contributors (t : Tree) (o : EmissionOptions) (dir : Path) (names : List String)
    (cs : List Component) (loc : List String) : List Component :=
  cs.filter fun c => (c.fragments names).any fun f =>
    t.locate (o.bundlePath dir f.bundleKey) = .ok loc

/-- The sections of the bundle of a key. -/
def bundleSections (o : EmissionOptions) (names : List String) (cs : List Component)
    (key : String) : List Section :=
  sections o.classWrapping ((cs.flatMap (·.fragments names)).filter fun f => f.bundleKey = key)

/-- The text of the bundle of a key. -/
def bundleText (key : String) (ss : List Section) : String :=
  bannerStart ++ key ++ "\n" ++ String.join (ss.map fun s => s.text ++ "\n")

/-- What two passes have in common that start in the same tree, one over the fragments of the
components `cs`, which leads to `u`, and one over those of `cs'`, which leads to `u'`. -/
structure Reordered (o : EmissionOptions) (dir : Path) (names : List String)
    (cs cs' : List Component) (u u' : Tree) (paths paths' : List Path) : Prop where
  /-- The same paths have been written, -/
  written : paths.Perm paths'
  /-- and there are the same directories, -/
  same : u.SameDirectories u'
  /-- with files in the same places. -/
  places : ∀ loc, u'.entryAt? loc = none ↔ u.entryAt? loc = none
  /-- Where the components whose scripts are written to a place come in the same order, the file is
  the same, -/
  contents : ∀ loc, u.contributors o dir names cs' loc = u.contributors o dir names cs loc →
    u'.entryAt? loc = u.entryAt? loc
  /-- as it is if there is only one such component. -/
  own : ∀ loc c, (∀ c' ∈ u.contributors o dir names cs loc, c' = c) →
    u'.entryAt? loc = u.entryAt? loc
  /-- In a file that is shared by components, but not by bundles, the sections are the same in any
  case, but may come in another order. -/
  shared : ∀ c ∈ cs, ∀ f ∈ c.fragments names,
    (∀ c' ∈ cs, ∀ e ∈ c'.fragments names, ∀ loc, u.locate (o.bundlePath dir e.bundleKey) = .ok loc →
      u.locate (o.bundlePath dir f.bundleKey) = .ok loc → e.bundleKey = f.bundleKey) →
    SameSections (bundleSections o names cs f.bundleKey)
      (bundleSections o names cs' f.bundleKey) ∧
    u.readFile (o.bundlePath dir f.bundleKey) =
      .ok (bundleText f.bundleKey (bundleSections o names cs f.bundleKey)).toUTF8 ∧
    u'.readFile (o.bundlePath dir f.bundleKey) =
      .ok (bundleText f.bundleKey (bundleSections o names cs' f.bundleKey)).toUTF8

section Passes

variable {o : EmissionOptions} {dir : Path} {t t₁ u u' : Tree} {fs fs' : List Fragment}
  {files files' : List (Path × ByteArray)} {paths paths' ps ps' : List Path} {loc : List String}

theorem Tree.entryAt?_writeAll_eq_none (hw : ∀ x ∈ files, t.Writable x.1) :
    (t.writeAll files).entryAt? loc = none ↔
      (∀ p ∈ files.map Prod.fst, t.locate p ≠ .ok loc) ∧ t.entryAt? loc = none := by
  rw [entryAt?_writeAll_eq hw, Option.or_eq_none_iff, Option.map_eq_none_iff,
    List.getLast?_eq_none_iff, List.filter_eq_nil_iff]
  simp

section Writing

variable (hw : ∀ x ∈ files, t.Writable x.1) (hw' : ∀ x ∈ files', t.Writable x.1)
  (hpaths : (files.map Prod.fst).Perm (files'.map Prod.fst))

include hw hpaths in
theorem Tree.writable_of_perm : ∀ x ∈ files', t.Writable x.1 := by
  intro x hx
  obtain ⟨y, hy, heq⟩ := List.mem_map.1 (hpaths.mem_iff.2 (List.mem_map_of_mem hx))
  exact heq ▸ hw y hy

include hw hw' hpaths

/-- Files written to the same paths stand in the same places. -/
theorem Tree.writeAll_none_iff : (t.writeAll files').entryAt? loc = none ↔
    (t.writeAll files).entryAt? loc = none := by
  simp only [entryAt?_writeAll_eq_none hw, entryAt?_writeAll_eq_none hw', hpaths.mem_iff]

theorem Tree.has_writeAll_iff {q : Path} :
    (t.writeAll files').Has q ↔ (t.writeAll files).Has q := by
  have hsome : ∀ loc, (∃ e, (t.writeAll files').entryAt? loc = some e) ↔
      ∃ e, (t.writeAll files).entryAt? loc = some e := fun loc => by
    rw [← Option.ne_none_iff_exists', ← Option.ne_none_iff_exists', Ne, Ne,
      writeAll_none_iff hw hw' hpaths]
  simp only [Has, exists_and_left, hsome, (sameDirectories_writeAll hw).locate_iff,
    (sameDirectories_writeAll hw').locate_iff]

end Writing

/-- A pass succeeds whatever order the fragments come in, if it does so for one. -/
theorem exists_emit_of_perm (ht : t.WellFormed) (h : fs.Perm fs')
    (hblank : ∀ f ∈ fs, f.isBlank = false) (hrun : (emit o fs dir).run t = (.ok paths, u)) :
    ∃ paths' u', (emit o fs' dir).run t = (.ok paths', u') := by
  obtain ⟨t₁, hmake, hw, rfl, hrun⟩ := emit_eq_ok.1 hrun
  have hpaths := @map_fst_files_perm o dir _ _ h hblank
  have hw' := writable_of_perm hw hpaths
  have ht₁ := (grows_of_makeDirectories hmake).wellFormed ht
  by_cases hprune : o.prune
  · rw [if_pos hprune] at hrun
    have hdir := hasDirectory_writeAll hmake hw
    have hsame := (sameDirectories_writeAll hw).symm.trans (sameDirectories_writeAll hw')
    have hclear := (exists_pruneBundles_iff (ht₁.writeAll hw) hdir.has).1 ⟨u, hrun⟩
    have hclear' := hclear.congr (ht₁.writeAll hw) (ht₁.writeAll hw') hsame
      (fun q => has_writeAll_iff hw hw' hpaths) (fun n => (hpaths.map _).symm.mem_iff) hdir.has
    have hhas := (hsame.hasDirectory_iff.2 hdir).has
    obtain ⟨u', hrun'⟩ := (exists_pruneBundles_iff (ht₁.writeAll hw') hhas).2 hclear'
    exact ⟨_, u', emit_eq_ok.2 ⟨t₁, hmake, hw', rfl, by rw [if_pos hprune, hrun']⟩⟩
  · exact ⟨_, _, emit_eq_ok.2 ⟨t₁, hmake, hw', rfl, by rw [if_neg hprune]⟩⟩

/-- What two passes leave: what they have written, unless it is removed in both. -/
theorem FullPass.entryAt?_or (h : FullPass o fs dir t t₁ paths ps u)
    (h' : FullPass o fs' dir t t₁ paths' ps' u') (hps : ∀ p, p ∈ ps' ↔ p ∈ ps)
    (loc : List String) : (u.entryAt? loc = none ∧ u'.entryAt? loc = none) ∨
      (u.entryAt? loc = (t₁.writeAll (o.files dir (groupFragments fs))).entryAt? loc ∧
        u'.entryAt? loc = (t₁.writeAll (o.files dir (groupFragments fs'))).entryAt? loc) := by
  have hsame := sameDirectories_writeAll h.writable
  have hsame' := sameDirectories_writeAll h'.writable
  by_cases hsome : ∃ p ∈ ps, t₁.locate p = .ok loc
  · obtain ⟨p, hp, hloc⟩ := hsome
    obtain ⟨q, hq, -, hnone⟩ := h.removes.gone p hp
    obtain ⟨q', hq', -, hnone'⟩ := h'.removes.gone p ((hps p).2 hp)
    obtain rfl := Except.ok.inj (hq.symm.trans (hsame.locate_iff.2 hloc))
    obtain rfl := Except.ok.inj (hq'.symm.trans (hsame'.locate_iff.2 hloc))
    exact .inl ⟨hnone, hnone'⟩
  · exact .inr
      ⟨h.removes.others loc fun p hp hloc => hsome ⟨p, hp, hsame.locate_iff.1 hloc⟩,
        h'.removes.others loc fun p hp hloc => hsome ⟨p, (hps p).1 hp, hsame'.locate_iff.1 hloc⟩⟩

section Reordered

variable (ht : t.WellFormed) (h : fs.Perm fs') (hblank : ∀ f ∈ fs, f.isBlank = false)
  (hrun : (emit o fs dir).run t = (.ok paths, u))
  (hrun' : (emit o fs' dir).run t = (.ok paths', u'))

include ht h hblank hrun hrun'

theorem exists_fullPass_of_perm : ∃ t₁ ps ps', FullPass o fs dir t t₁ paths ps u ∧
    FullPass o fs' dir t t₁ paths' ps' u' ∧ ∀ p, p ∈ ps' ↔ p ∈ ps := by
  obtain ⟨t₁, ps, hpass⟩ := fullPass_of_run ht hrun
  obtain ⟨t₁', ps', hpass'⟩ := fullPass_of_run ht hrun'
  obtain rfl : t₁' = t₁ := (Prod.mk.inj (hpass'.made.symm.trans hpass.made)).2
  have hpaths := @map_fst_files_perm o dir _ _ h hblank
  refine ⟨t₁', ps, ps', hpass, hpass', fun p => ?_⟩
  rw [hpass.cleared, hpass'.cleared, hpass.paths_eq, hpass'.paths_eq]
  have hsame := sameDirectories_writeAll hpass.writable
  have hsame' := sameDirectories_writeAll hpass'.writable
  exact and_congr_right fun _ => stale_congr (hsame.symm.trans hsame')
    (fun q => has_writeAll_iff hpass.writable hpass'.writable hpaths)
    (fun n => (hpaths.map _).symm.mem_iff) (hsame.hasDirectory_iff.2 hpass.directory).has

theorem sameDirectories_of_perm : u.SameDirectories u' := by
  obtain ⟨t₁, ps, ps', hpass, hpass', -⟩ := exists_fullPass_of_perm ht h hblank hrun hrun'
  exact hpass.same.symm.trans hpass'.same

theorem perm_of_perm : paths.Perm paths' := by
  obtain ⟨t₁, ps, ps', hpass, hpass', -⟩ := exists_fullPass_of_perm ht h hblank hrun hrun'
  rw [hpass.paths_eq, hpass'.paths_eq]
  exact map_fst_files_perm h hblank

theorem entryAt?_none_iff_of_perm (loc : List String) :
    u'.entryAt? loc = none ↔ u.entryAt? loc = none := by
  obtain ⟨t₁, ps, ps', hpass, hpass', hps⟩ := exists_fullPass_of_perm ht h hblank hrun hrun'
  obtain ⟨hnone, hnone'⟩ | ⟨heq, heq'⟩ := hpass.entryAt?_or hpass' hps loc
  · exact iff_of_true hnone' hnone
  · rw [heq, heq', writeAll_none_iff hpass.writable hpass'.writable (map_fst_files_perm h hblank)]

/-- What is written to a place depends only on the fragments that go there. -/
theorem entryAt?_eq_of_perm (hfilter :
    (fs'.filter fun f => u.locate (o.bundlePath dir f.bundleKey) = .ok loc) =
      fs.filter fun f => u.locate (o.bundlePath dir f.bundleKey) = .ok loc) :
    u'.entryAt? loc = u.entryAt? loc := by
  obtain ⟨t₁, ps, ps', hpass, hpass', hps⟩ := exists_fullPass_of_perm ht h hblank hrun hrun'
  obtain ⟨hnone, hnone'⟩ | ⟨heq, heq'⟩ := hpass.entryAt?_or hpass' hps loc
  · rw [hnone, hnone']
  · simp only [hpass.same.locate_iff] at hfilter
    rw [heq, heq', entryAt?_writeAll_eq hpass.writable, entryAt?_writeAll_eq hpass'.writable,
      files_filter fun p => t₁.locate p = .ok loc, files_filter fun p => t₁.locate p = .ok loc,
      groupFragments_filter fun key => t₁.locate (o.bundlePath dir key) = .ok loc,
      groupFragments_filter fun key => t₁.locate (o.bundlePath dir key) = .ok loc, hfilter]

end Reordered

theorem BundleGroup.eq_bundleText {classWrapping : Bool} {g : BundleGroup} {text : String}
    (h : g.render classWrapping = some text) :
    text = bundleText g.key (sections classWrapping g.fragments) := by
  rw [render] at h
  split_ifs at h
  exact (Option.some.inj h).symm

/-- A file that only one bundle is written to holds the sections of that bundle. -/
theorem readFile_of_own (ht : t.WellFormed) (hblank : ∀ f ∈ fs, f.isBlank = false)
    (hrun : (emit o fs dir).run t = (.ok paths, u)) {f : Fragment} (hf : f ∈ fs)
    (hown : ∀ e ∈ fs, ∀ loc, u.locate (o.bundlePath dir e.bundleKey) = .ok loc →
      u.locate (o.bundlePath dir f.bundleKey) = .ok loc → e.bundleKey = f.bundleKey) :
    u.readFile (o.bundlePath dir f.bundleKey) = .ok (bundleText f.bundleKey
      (sections o.classWrapping (fs.filter fun e => e.bundleKey = f.bundleKey))).toUTF8 := by
  obtain ⟨t₁, ps, hpass⟩ := pass_of_run ht hrun
  obtain ⟨g, hg, hfg⟩ := exists_group_of_mem hf
  obtain ⟨text, htext⟩ := g.render_ne_none hfg (hblank f hf) o.classWrapping
  have hkey := key_of_mem_groupFragments hg f hfg
  have hb : (g.key, text) ∈ o.bundles (groupFragments fs) := mem_bundles.2 ⟨g, hg, rfl, htext⟩
  have hkeys : ∀ c ∈ o.bundles (groupFragments fs),
      u.locate (o.bundlePath dir c.1) = u.locate (o.bundlePath dir g.key) → c.1 = g.key := by
    intro c hc hlocate
    obtain ⟨g', hg', hkey', -⟩ := mem_bundles.1 hc
    obtain ⟨e, he, hekey⟩ := mem_keys_groupFragments.1 (List.mem_map_of_mem hg')
    obtain ⟨-, loc, hloc, -⟩ := hpass.writable _ (List.mem_map_of_mem hb)
    have hloc := hpass.same.locate_iff.2 hloc
    rw [← hkey', ← hekey] at hlocate ⊢
    rw [← hkey] at hloc hlocate ⊢
    exact hown e he loc (hlocate.trans hloc) hloc
  obtain ⟨before, after, heq⟩ := List.append_of_mem hb
  have hne := nodup_bundles (o := o) fs
  rw [heq] at hne hkeys
  have hread := hpass.holds ht (before.map fun b => (o.bundlePath dir b.1, b.2.toUTF8))
    (o.bundlePath dir g.key, text.toUTF8) (after.map fun b => (o.bundlePath dir b.1, b.2.toUTF8))
    (by rw [EmissionOptions.files, heq, List.map_append, List.map_cons])
    fun y hy hlocate => by
      obtain ⟨c, hc, rfl⟩ := List.mem_map.1 hy
      exact (List.pairwise_cons.1 (List.pairwise_append.1 hne).2.1).1 c hc
        (hkeys c (List.mem_append_right _ (List.mem_cons_of_mem _ hc)) hlocate).symm
  rw [hkey, hread, g.eq_bundleText htext, fragments_eq_filter hg]

end Passes

/-! ## Components in another order -/

section Components

variable {o : EmissionOptions} {dir : Path} {names : List String} {t u u' : Tree}
  {cs cs' : List Component} {paths paths' : List Path}

theorem filter_flatMap_fragments (keep : Fragment → Bool) (cs : List Component) :
    (cs.flatMap (·.fragments names)).filter keep =
      (cs.filter fun c => (c.fragments names).any keep).flatMap
        fun c => (c.fragments names).filter keep := by
  rw [List.filter_flatMap, flatMap_filter fun c _ hc => ?_]
  simpa using hc

/-- **The order of components.** Whatever order the components of a project come in, the same files
are written, and a file is the same if the components with scripts in it come in the same order. In
a file that components share the same sections stand in any case. -/
theorem emit_reordered (ht : t.WellFormed) (h : cs.Perm cs') (o : EmissionOptions) (dir : Path)
    (names : List String) :
    ((∃ paths u, (emit o (cs.flatMap (·.fragments names)) dir).run t = (.ok paths, u)) ↔
      ∃ paths u, (emit o (cs'.flatMap (·.fragments names)) dir).run t = (.ok paths, u)) ∧
    ∀ paths paths' u u', (emit o (cs.flatMap (·.fragments names)) dir).run t = (.ok paths, u) →
      (emit o (cs'.flatMap (·.fragments names)) dir).run t = (.ok paths', u') →
        Reordered o dir names cs cs' u u' paths paths' := by
  have hperm : (cs.flatMap (·.fragments names)).Perm (cs'.flatMap (·.fragments names)) :=
    h.flatMap_right _
  have hblank : ∀ cs : List Component, ∀ f ∈ cs.flatMap (·.fragments names), f.isBlank = false := by
    intro cs f hf
    obtain ⟨c, -, hf⟩ := List.mem_flatMap.1 hf
    exact isBlank_of_mem_fragments hf
  refine ⟨⟨?_, ?_⟩, fun paths paths' u u' hrun hrun' => ?_⟩
  · rintro ⟨paths, u, hrun⟩
    exact exists_emit_of_perm ht hperm (hblank cs) hrun
  · rintro ⟨paths, u, hrun⟩
    exact exists_emit_of_perm ht hperm.symm (hblank cs') hrun
  · have hcontents : ∀ loc, u.contributors o dir names cs' loc = u.contributors o dir names cs loc →
        u'.entryAt? loc = u.entryAt? loc := by
      intro loc hloc
      refine entryAt?_eq_of_perm ht hperm (hblank cs) hrun hrun' ?_
      rw [filter_flatMap_fragments, filter_flatMap_fragments]
      exact congrArg (List.flatMap _) hloc
    refine
      { written := perm_of_perm ht hperm (hblank cs) hrun hrun'
        same := sameDirectories_of_perm ht hperm (hblank cs) hrun hrun'
        places := entryAt?_none_iff_of_perm ht hperm (hblank cs) hrun hrun'
        contents := hcontents
        own := fun loc c hc => hcontents loc ?own
        shared := fun c hc f hf hown => ?shared }
    case own =>
      have hone := List.eq_replicate_of_mem hc
      have hperm : (u.contributors o dir names cs loc).Perm (u.contributors o dir names cs' loc) :=
        h.filter _
      rw [hone] at hperm ⊢
      exact List.perm_replicate.1 hperm.symm
    case shared =>
      have hsame := sameDirectories_of_perm ht hperm (hblank cs) hrun hrun'
      have hf : f ∈ cs.flatMap (·.fragments names) := List.mem_flatMap.2 ⟨c, hc, hf⟩
      have hown : ∀ e ∈ cs.flatMap (·.fragments names), ∀ loc,
          u.locate (o.bundlePath dir e.bundleKey) = .ok loc →
            u.locate (o.bundlePath dir f.bundleKey) = .ok loc → e.bundleKey = f.bundleKey := by
        intro e he
        obtain ⟨c', hc', he⟩ := List.mem_flatMap.1 he
        exact hown c' hc' e he
      refine ⟨sameSections_of_perm (hperm.filter _) _, readFile_of_own ht (hblank cs) hrun hf hown,
        readFile_of_own ht (hblank cs') hrun' (hperm.mem_iff.1 hf) fun e he loc hloc hloc' => ?_⟩
      exact hown e (hperm.mem_iff.2 he) loc (hsame.locate_iff.1 hloc) (hsame.locate_iff.1 hloc')

/-- A component with one script, which goes to the bundle `index` if it is global. -/
def scriptComponent (name body : String) (globalBundle : Bool) : Component where
  name := name
  scope := none
  instructions := [⟨.openComponent, 0, some "Script", .null, true⟩,
    ⟨.addComponentParameter, 1, some "GlobalBundle", .bool globalBundle, true⟩,
    ⟨.addContent, 2, none, .string body, true⟩, ⟨.closeComponent, 3, none, .null, true⟩]

/-- Two components that share a bundle, and one with its own. -/
theorem emit_reordered_three :
    let a := scriptComponent "A" "a()" true
    let b := scriptComponent "B" "b()" true
    let c := scriptComponent "C" "c()" false
    let dir : Path := ⟨0, ["out"]⟩
    let shared : Path := ⟨0, ["out", "index.g.js"]⟩
    let own : Path := ⟨0, ["out", "C.index.g.js"]⟩
    let r := (emit {} ([a, b, c].flatMap (·.fragments ["Script"])) dir).run ⟨[], []⟩
    let r' := (emit {} ([b, c, a].flatMap (·.fragments ["Script"])) dir).run ⟨[], []⟩
    WellFormed ⟨[], []⟩ ∧ [a, b, c].Perm [b, c, a] ∧ r = (.ok [shared, own], r.2) ∧
      r' = (.ok [shared, own], r'.2) ∧
      Reordered {} dir ["Script"] [a, b, c] [b, c, a] r.2 r'.2 [shared, own] [shared, own] := by
  intro a b c dir shared own r r'
  have ht : WellFormed ⟨[], []⟩ := by decide +kernel
  have h : [a, b, c].Perm [b, c, a] := (List.Perm.swap b a [c]).trans (.cons b (.swap c a []))
  have hr : r = (.ok [shared, own], r.2) := Prod.ext (by decide +kernel) rfl
  have hr' : r' = (.ok [shared, own], r'.2) := Prod.ext (by decide +kernel) rfl
  exact ⟨ht, h, hr, hr', (emit_reordered ht h {} dir ["Script"]).2 _ _ _ _ hr hr'⟩

/-- In a bundle that two components share their scripts stand in the order in which the components
come. -/
theorem shared_bundle_ordered :
    let a := scriptComponent "A" "a()" true
    let b := scriptComponent "B" "b()" true
    let file : Path := ⟨0, ["out", "index.g.js"]⟩
    let r := (emit {} ([a, b].flatMap (·.fragments ["Script"])) ⟨0, ["out"]⟩).run ⟨[], []⟩
    let r' := (emit {} ([b, a].flatMap (·.fragments ["Script"])) ⟨0, ["out"]⟩).run ⟨[], []⟩
    [a, b].Perm [b, a] ∧ r.1 = .ok [file] ∧ r'.1 = .ok [file] ∧
      r.2.readFile file = .ok "// Auto-generated bundle: index\na()\nb()\n".toUTF8 ∧
      r'.2.readFile file = .ok "// Auto-generated bundle: index\nb()\na()\n".toUTF8 := by
  intro a b file r r'
  exact ⟨.swap _ _ _, by decide +kernel⟩

end Components

end ScriptBundle
