import Mathlib.Data.List.Induction
import ScriptBundle.Bundle.Render
import ScriptBundle.Proofs.Lists
/-!
# Groups as a partition

The groups of a list of fragments are, key by key in the order in which the keys first appear, the
fragments with that key (`groupFragments_eq`). One more fragment joins the group of its key or opens
it at the end, which carries the induction. So the groups are the only partition of the fragments by
their keys that keeps the order of both (`Partitions.eq`), and `groupFragments_stable` says what
follows for lists that hold the same fragments in another order.
-/

namespace ScriptBundle

/-- The group of a key among fragments. -/
def groupOf (fs : List Fragment) (key : String) : BundleGroup :=
  ⟨key, fs.filter fun f => f.bundleKey = key⟩

section Groups

variable {f : Fragment} {fs fs' : List Fragment} {g : BundleGroup} {gs : List BundleGroup}
  {key : String}

/-! ## One more fragment -/

theorem groupOf_concat (fs : List Fragment) (f : Fragment) (key : String) :
    groupOf (fs ++ [f]) key =
      ⟨key, (groupOf fs key).fragments ++ if f.bundleKey = key then [f] else []⟩ := by
  rw [groupOf, List.filter_append, List.filter_cons, List.filter_nil, groupOf]
  simp only [decide_eq_true_eq]

theorem groupOf_concat_of_ne (h : f.bundleKey ≠ key) :
    groupOf (fs ++ [f]) key = groupOf fs key := by
  rw [groupOf_concat, if_neg h, List.append_nil]
  rfl

/-- A fragment is added to the groups of keys among which its own may be. -/
theorem addToGroups_map (f : Fragment) (fs : List Fragment) {keys : List String}
    (hn : keys.Nodup) : addToGroups f (keys.map (groupOf fs)) =
      keys.map (groupOf (fs ++ [f])) ++
        if f.bundleKey ∈ keys then [] else [⟨f.bundleKey, [f]⟩] := by
  induction keys with
  | nil => rfl
  | cons key keys ih =>
    obtain ⟨hnot, hn⟩ := List.nodup_cons.1 hn
    rw [List.map_cons, addToGroups]
    by_cases hkey : key = f.bundleKey
    · have hrest : keys.map (groupOf (fs ++ [f])) = keys.map (groupOf fs) :=
        List.map_congr_left fun k hk => groupOf_concat_of_ne fun heq => hnot (hkey ▸ heq ▸ hk)
      rw [if_pos (show (groupOf fs key).key = f.bundleKey from hkey),
        if_pos (List.mem_cons.2 (.inl hkey.symm)), List.map_cons, hrest, groupOf_concat,
        if_pos hkey.symm, List.append_nil]
      rfl
    · have hmem : f.bundleKey ∈ key :: keys ↔ f.bundleKey ∈ keys := by
        rw [List.mem_cons, or_iff_right (Ne.symm hkey)]
      rw [if_neg (show (groupOf fs key).key ≠ f.bundleKey from hkey), ih hn, List.map_cons,
        groupOf_concat_of_ne (Ne.symm hkey), List.cons_append]
      simp only [hmem]

theorem groupFragments_append_singleton (fs : List Fragment) (f : Fragment) :
    groupFragments (fs ++ [f]) = addToGroups f (groupFragments fs) := by
  rw [groupFragments, List.foldl_append]
  rfl

/-- The groups of fragments, key by key. -/
theorem groupFragments_eq (fs : List Fragment) :
    groupFragments fs = (fs.map Fragment.bundleKey).eraseDups.map (groupOf fs) := by
  induction fs using List.reverseRecOn with
  | nil => rfl
  | append_singleton fs f ih =>
    rw [groupFragments_append_singleton, ih, addToGroups_map f fs (nodup_eraseDups _),
      List.map_append, List.map_singleton, eraseDups_concat, List.map_append]
    simp only [List.mem_eraseDups]
    split_ifs with hkey
    · rfl
    · have hnone : fs.filter (fun e => e.bundleKey = f.bundleKey) = [] :=
        List.filter_eq_nil_iff.2 fun e he heq =>
          hkey (of_decide_eq_true heq ▸ List.mem_map_of_mem he)
      rw [List.map_singleton, groupOf_concat, if_pos rfl, groupOf, hnone, List.nil_append]

/-! ## What is in a group -/

theorem keys_groupFragments (fs : List Fragment) :
    (groupFragments fs).map BundleGroup.key = (fs.map Fragment.bundleKey).eraseDups := by
  rw [groupFragments_eq, List.map_map]
  exact List.map_id _

theorem mem_keys_groupFragments :
    key ∈ (groupFragments fs).map BundleGroup.key ↔ ∃ f ∈ fs, f.bundleKey = key := by
  rw [keys_groupFragments, List.mem_eraseDups, List.mem_map]

/-- No two groups have the same key. -/
theorem nodup_groupFragments (fs : List Fragment) :
    ((groupFragments fs).map BundleGroup.key).Nodup := by
  rw [keys_groupFragments]
  exact nodup_eraseDups _

/-- The groups are those of the keys that fragments have. -/
theorem mem_groupFragments :
    g ∈ groupFragments fs ↔ g = groupOf fs g.key ∧ g.fragments ≠ [] := by
  rw [groupFragments_eq, List.mem_map]
  constructor
  · rintro ⟨key, hkey, rfl⟩
    obtain ⟨f, hf, rfl⟩ := List.mem_map.1 (List.mem_eraseDups.1 hkey)
    exact ⟨rfl, List.ne_nil_of_mem (List.mem_filter.2 ⟨hf, decide_eq_true rfl⟩)⟩
  · rintro ⟨heq, hne⟩
    obtain ⟨f, hf⟩ := List.exists_mem_of_ne_nil _ hne
    rw [heq] at hf
    obtain ⟨hmem, hkey⟩ := List.mem_filter.1 hf
    exact ⟨g.key, List.mem_eraseDups.2 (List.mem_map.2 ⟨f, hmem, of_decide_eq_true hkey⟩), heq.symm⟩

/-- The fragments of a group are all that have its key, in the order in which they were found. -/
theorem fragments_eq_filter (hg : g ∈ groupFragments fs) :
    g.fragments = fs.filter fun f => f.bundleKey = g.key :=
  congrArg BundleGroup.fragments (mem_groupFragments.1 hg).1

theorem ne_nil_of_mem_groupFragments (hg : g ∈ groupFragments fs) : g.fragments ≠ [] :=
  (mem_groupFragments.1 hg).2

/-- A group holds only fragments of its key. -/
theorem key_of_mem_groupFragments (hg : g ∈ groupFragments fs) :
    ∀ f ∈ g.fragments, f.bundleKey = g.key := by
  intro f hf
  rw [fragments_eq_filter hg] at hf
  exact of_decide_eq_true (List.mem_filter.1 hf).2

theorem groupOf_mem (hf : f ∈ fs) : groupOf fs f.bundleKey ∈ groupFragments fs :=
  mem_groupFragments.2
    ⟨rfl, List.ne_nil_of_mem (List.mem_filter.2 ⟨hf, decide_eq_true rfl⟩)⟩

/-- Every fragment is in a group. -/
theorem exists_group_of_mem (hf : f ∈ fs) : ∃ g ∈ groupFragments fs, f ∈ g.fragments :=
  ⟨_, groupOf_mem hf, List.mem_filter.2 ⟨hf, decide_eq_true rfl⟩⟩

theorem flatMap_addToGroups_perm (f : Fragment) (gs : List BundleGroup) :
    ((addToGroups f gs).flatMap BundleGroup.fragments).Perm
      (gs.flatMap BundleGroup.fragments ++ [f]) := by
  induction gs with
  | nil => exact .refl _
  | cons g gs ih =>
    rw [addToGroups]
    split_ifs
    · simp only [List.flatMap_cons, List.append_assoc]
      exact .append_left _ List.perm_append_comm
    · simp only [List.flatMap_cons, List.append_assoc]
      exact .append_left _ ih

/-- The groups hold each fragment once. -/
theorem flatMap_groupFragments_perm (fs : List Fragment) :
    ((groupFragments fs).flatMap BundleGroup.fragments).Perm fs := by
  induction fs using List.reverseRecOn with
  | nil => exact .refl _
  | append_singleton fs f ih =>
    rw [groupFragments_append_singleton]
    exact (flatMap_addToGroups_perm f _).trans (ih.append_right _)

/-! ## Groups one after the other -/

/-- The keys of groups are those of their fragments, each at its first occurrence. -/
theorem eraseDups_keys (hn : (gs.map BundleGroup.key).Nodup) (hne : ∀ g ∈ gs, g.fragments ≠ []) :
    (gs.flatMap fun g => g.fragments.map fun _ => g.key).eraseDups = gs.map BundleGroup.key := by
  induction gs with
  | nil => rfl
  | cons g gs ih =>
    obtain ⟨hg, hgs⟩ := List.forall_mem_cons.1 hne
    obtain ⟨hkey, hn⟩ := List.nodup_cons.1 hn
    obtain ⟨f, fs, hfs⟩ := List.exists_cons_of_ne_nil hg
    have hown : (fs.map fun _ => g.key).filter (fun k => !k == g.key) = [] := by
      simp
    have hothers : (gs.flatMap fun g => g.fragments.map fun _ => g.key).filter
        (fun k => !k == g.key) = gs.flatMap fun g => g.fragments.map fun _ => g.key := by
      rw [List.filter_eq_self]
      intro k hk
      obtain ⟨g', hg', hk⟩ := List.mem_flatMap.1 hk
      obtain ⟨-, -, rfl⟩ := List.mem_map.1 hk
      simpa using fun heq : g'.key = g.key => hkey (heq ▸ List.mem_map_of_mem hg')
    rw [List.flatMap_cons, hfs, List.map_cons, List.cons_append, List.eraseDups_cons,
      List.filter_append, hown, hothers, List.nil_append, ih hn hgs, List.map_cons]

/-- Among the fragments of groups, those of a key are its group. -/
theorem filter_flatMap_groups (hn : (gs.map BundleGroup.key).Nodup)
    (hown : ∀ g ∈ gs, ∀ f ∈ g.fragments, f.bundleKey = g.key) (hg : g ∈ gs) :
    (gs.flatMap BundleGroup.fragments).filter (fun f => f.bundleKey = g.key) = g.fragments := by
  obtain ⟨before, after, rfl⟩ := List.append_of_mem hg
  have hnone : ∀ others : List BundleGroup, (∀ g' ∈ others, g' ∈ before ++ g :: after) →
      (∀ g' ∈ others, g'.key ≠ g.key) →
        (others.flatMap BundleGroup.fragments).filter (fun f => f.bundleKey = g.key) = [] := by
    intro others hmem hne
    rw [List.filter_eq_nil_iff]
    intro f hf heq
    obtain ⟨g', hg', hf⟩ := List.mem_flatMap.1 hf
    exact hne g' hg' ((hown g' (hmem g' hg') f hf).symm.trans (of_decide_eq_true heq))
  have hself : g.fragments.filter (fun f => f.bundleKey = g.key) = g.fragments :=
    List.filter_eq_self.2 fun f hf => decide_eq_true (hown g hg f hf)
  rw [List.map_append, List.map_cons, List.nodup_middle, List.nodup_cons, ← List.map_append] at hn
  have hne : ∀ g' ∈ before ++ after, g'.key ≠ g.key := fun g' hg' heq =>
    hn.1 (heq ▸ List.mem_map_of_mem hg')
  rw [List.flatMap_append, List.flatMap_cons, List.filter_append, List.filter_append, hself,
    hnone before (fun g' hg' => List.mem_append_left _ hg')
      fun g' hg' => hne g' (List.mem_append_left _ hg'),
    hnone after (fun g' hg' => List.mem_append_right _ (List.mem_cons_of_mem _ hg'))
      fun g' hg' => hne g' (List.mem_append_right _ hg'),
    List.nil_append, List.append_nil]

/-! ## The partition -/

/-- Groups are the fragments, parted by their keys. -/
structure Partitions (fs : List Fragment) (gs : List BundleGroup) : Prop where
  /-- The keys of the groups are those of the fragments, each at its first occurrence, -/
  keys_eq : gs.map BundleGroup.key = (fs.map Fragment.bundleKey).eraseDups
  /-- and no two groups have the same. -/
  nodup : (gs.map BundleGroup.key).Nodup
  ne_nil : ∀ g ∈ gs, g.fragments ≠ []
  /-- A group is the fragments with its key, in the order in which they were found. -/
  fragments_eq : ∀ g ∈ gs, g.fragments = fs.filter fun f => f.bundleKey = g.key
  /-- So each fragment is in one group, -/
  unique : ∀ f ∈ fs, ∃! g, g ∈ gs ∧ f ∈ g.fragments
  /-- as often as it was found. -/
  perm : (gs.flatMap BundleGroup.fragments).Perm fs

/-- There is no other way to part fragments. -/
theorem Partitions.eq (h : Partitions fs gs) : gs = groupFragments fs := by
  rw [groupFragments_eq, ← h.keys_eq, List.map_map]
  refine (List.map_id gs).symm.trans (List.map_congr_left fun g hg => ?_)
  exact congrArg (BundleGroup.mk g.key) (h.fragments_eq g hg)

theorem partitions_groupFragments (fs : List Fragment) : Partitions fs (groupFragments fs) where
  keys_eq := keys_groupFragments fs
  nodup := nodup_groupFragments fs
  ne_nil _ := ne_nil_of_mem_groupFragments
  fragments_eq _ := fragments_eq_filter
  unique f hf := by
    refine ⟨groupOf fs f.bundleKey, ⟨groupOf_mem hf, ?_⟩, ?_⟩
    · exact List.mem_filter.2 ⟨hf, decide_eq_true rfl⟩
    · rintro g ⟨hg, hfg⟩
      rw [key_of_mem_groupFragments hg f hfg]
      exact (mem_groupFragments.1 hg).1
  perm := flatMap_groupFragments_perm fs

/-- Groups whose fragments are grouped again are the same. -/
theorem groupFragments_flatMap (fs : List Fragment) :
    groupFragments ((groupFragments fs).flatMap BundleGroup.fragments) = groupFragments fs := by
  have hn := nodup_groupFragments fs
  have hown : ∀ g ∈ groupFragments fs, ∀ f ∈ g.fragments, f.bundleKey = g.key :=
    fun _ => key_of_mem_groupFragments
  rw [groupFragments_eq ((groupFragments fs).flatMap BundleGroup.fragments), List.map_flatMap,
    List.flatMap_congr fun g hg => List.map_congr_left (hown g hg),
    eraseDups_keys hn fun _ => ne_nil_of_mem_groupFragments, List.map_map]
  refine (List.map_congr_left fun g hg => ?_).trans (List.map_id _)
  exact congrArg (BundleGroup.mk g.key) (filter_flatMap_groups hn hown hg)

/-- Fragments make the same groups if they are the same key by key, and only then. -/
theorem perm_groupFragments_iff : (groupFragments fs').Perm (groupFragments fs) ↔
    ∀ key, (fs'.filter fun f => f.bundleKey = key) = fs.filter fun f => f.bundleKey = key := by
  rw [List.perm_ext_iff_of_nodup (nodup_groupFragments fs').of_map (nodup_groupFragments fs).of_map]
  constructor
  · intro h key
    have hsame : ∀ fs₁ fs₂ : List Fragment, (∀ g ∈ groupFragments fs₁, g ∈ groupFragments fs₂) →
        (groupOf fs₁ key).fragments ≠ [] → groupOf fs₁ key = groupOf fs₂ key :=
      fun fs₁ fs₂ hsub hne => (mem_groupFragments.1 (hsub _ (mem_groupFragments.2 ⟨rfl, hne⟩))).1
    change (groupOf fs' key).fragments = (groupOf fs key).fragments
    by_cases hne' : (groupOf fs' key).fragments = []
    · by_cases hne : (groupOf fs key).fragments = []
      · rw [hne, hne']
      · rw [hsame fs fs' (fun g => (h g).2) hne]
    · rw [hsame fs' fs (fun g => (h g).1) hne']
  · intro h g
    have hgroup : groupOf fs' g.key = groupOf fs g.key := congrArg (BundleGroup.mk g.key) (h g.key)
    rw [mem_groupFragments, mem_groupFragments, hgroup]

end Groups

/-- **Grouping is a stable partition.** The groups part the fragments by their keys, which can be
done in one way only, and are the same if their fragments are grouped again. They depend on the
order in which the fragments of different keys come only in their own order: fragments that are the
same key by key make the same groups, which are rendered to the same texts. -/
theorem groupFragments_stable (fs : List Fragment) :
    Partitions fs (groupFragments fs) ∧ (∀ gs, Partitions fs gs → gs = groupFragments fs) ∧
    groupFragments ((groupFragments fs).flatMap BundleGroup.fragments) = groupFragments fs ∧
    ∀ fs', (∀ key, (fs'.filter fun f => f.bundleKey = key) =
        fs.filter fun f => f.bundleKey = key) ↔
      (groupFragments fs').Perm (groupFragments fs) ∧ ∀ classWrapping,
        ((groupFragments fs').map fun g => (g.key, g.render classWrapping)).Perm
          ((groupFragments fs).map fun g => (g.key, g.render classWrapping)) := by
  refine ⟨partitions_groupFragments fs, fun gs h => h.eq, groupFragments_flatMap fs, fun fs' => ?_⟩
  rw [← perm_groupFragments_iff]
  exact ⟨fun h => ⟨h, fun classWrapping => h.map _⟩, And.left⟩

end ScriptBundle
