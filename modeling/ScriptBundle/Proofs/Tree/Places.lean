import Mathlib.Data.List.Induction
import ScriptBundle.Proofs.Pairs
import ScriptBundle.Tree.Change
/-!
# Places in a tree

In a tree that is well-formed, `Tree.WellFormed`, everything stands in a directory, under a name
that is one, and nothing stands twice. So a path that does not lead to a directory leads to a place
of the name that it ends in (`WellFormed.getLast?_of_locate`).

Where a path leads depends only on what is a directory, and what stands there only on the place:
`Tree.put` changes one place (`entryAt?_put`) and `Tree.erase` those at and below one
(`entryAt?_erase`).
-/

namespace ScriptBundle

namespace Tree

variable {t u : Tree} {loc loc' : List String} {e : Entry} {n : String}

/-! ## Entries -/

@[simp] theorem entryAt?_nil : t.entryAt? [] = some .directory := rfl

theorem entryAt?_eq_lookup (h : loc ≠ []) : t.entryAt? loc = t.entries.lookup loc := by
  rw [entryAt?, List.isEmpty_eq_false_iff.2 h]
  rfl

theorem isDirectoryAt_iff : t.isDirectoryAt loc = true ↔ t.entryAt? loc = some .directory := by
  rw [isDirectoryAt]
  split
  next h => simp [h]
  next h => simpa using h

theorem ne_nil_of_not_directory (h : t.isDirectoryAt loc = false) : loc ≠ [] := by
  rintro rfl
  cases h

theorem mem_entries (h : loc ≠ []) (he : t.entryAt? loc = some e) : (loc, e) ∈ t.entries :=
  mem_of_lookup ((entryAt?_eq_lookup h).symm.trans he)

theorem entries_put (t : Tree) (loc : List String) (e : Entry) : (t.put loc e).entries =
    if loc ∈ t.entries.map Prod.fst then
      t.entries.map fun x => if x.1 = loc then (loc, e) else x
    else t.entries ++ [(loc, e)] := by
  have hany : t.entries.any (·.1 = loc) = true ↔ loc ∈ t.entries.map Prod.fst := by simp
  rw [put]
  split_ifs with h h' h'
  · rfl
  · exact absurd (hany.1 h) h'
  · exact absurd (hany.2 h') h
  · rfl

@[simp] theorem here_put : (t.put loc e).here = t.here := by
  rw [put]
  split_ifs <;> rfl

@[simp] theorem here_erase : (t.erase loc).here = t.here := rfl

theorem entryAt?_put (h : loc ≠ []) (loc' : List String) :
    (t.put loc e).entryAt? loc' = if loc' = loc then some e else t.entryAt? loc' := by
  by_cases hnil : loc' = []
  · subst hnil
    rw [if_neg h.symm, entryAt?_nil, entryAt?_nil]
  · rw [entryAt?_eq_lookup hnil, entryAt?_eq_lookup hnil, entries_put]
    split_ifs with hmem hloc hloc
    · subst hloc
      rw [lookup_replace, if_pos rfl]
      obtain ⟨x, hx, rfl⟩ := List.mem_map.1 hmem
      cases hl : t.entries.lookup x.1 with
      | none => exact absurd hx (not_mem_of_lookup_eq_none hl x.2)
      | some => rfl
    · rw [lookup_replace, if_neg hloc]
    · subst hloc
      have hnone : t.entries.lookup loc' = none := List.lookup_eq_none_iff.2 fun x hx => by
        simpa using fun hk : loc' = x.1 => hmem (hk ▸ List.mem_map_of_mem hx)
      rw [List.lookup_append, hnone, List.lookup_cons_self]
      rfl
    · rw [List.lookup_append, lookup_cons_ne hloc]
      simp

theorem entryAt?_erase (h : loc ≠ []) (loc' : List String) :
    (t.erase loc).entryAt? loc' = if loc <+: loc' then none else t.entryAt? loc' := by
  by_cases hnil : loc' = []
  · subst hnil
    rw [if_neg (by simpa using h), entryAt?_nil, entryAt?_nil]
  · rw [entryAt?_eq_lookup hnil, entryAt?_eq_lookup hnil, erase]
    rw [lookup_filter fun l => !loc.isPrefixOf l]
    by_cases hp : loc <+: loc'
    · rw [if_pos hp, List.isPrefixOf_iff_prefix.2 hp]
      rfl
    · rw [if_neg hp, Bool.eq_false_iff.2 fun h => hp (List.isPrefixOf_iff_prefix.1 h)]
      rfl

/-! ## Well-formed trees -/

/-- Holds of a name that a file or a directory can have. -/
def IsName (n : String) : Prop :=
  n ≠ ".." ∧ '\x00' ∉ n.toList ∧ n.utf8ByteSize ≤ nameLimit

/-- Everything stands once, under a name, in a directory. -/
structure WellFormed (t : Tree) : Prop where
  distinct : (t.entries.map Prod.fst).Nodup
  parent : ∀ x ∈ t.entries, t.isDirectoryAt x.1.dropLast = true
  names : ∀ x ∈ t.entries, ∀ n ∈ x.1, IsName n
  here : t.isDirectoryAt t.here = true

instance (n : String) : Decidable (IsName n) :=
  inferInstanceAs (Decidable (n ≠ ".." ∧ '\x00' ∉ n.toList ∧ n.utf8ByteSize ≤ nameLimit))

instance (t : Tree) : Decidable t.WellFormed :=
  decidable_of_iff ((t.entries.map Prod.fst).Nodup ∧
      (∀ x ∈ t.entries, t.isDirectoryAt x.1.dropLast = true) ∧
      (∀ x ∈ t.entries, ∀ n ∈ x.1, IsName n) ∧ t.isDirectoryAt t.here = true)
    ⟨fun h => ⟨h.1, h.2.1, h.2.2.1, h.2.2.2⟩, fun h => ⟨h.1, h.2, h.3, h.4⟩⟩

namespace WellFormed

theorem parent_of_entry (h : t.WellFormed) (he : t.entryAt? loc = some e) :
    t.isDirectoryAt loc.dropLast = true := by
  by_cases hnil : loc = []
  · subst hnil
    rfl
  · exact h.parent _ (mem_entries hnil he)

/-- All that stands above something is a directory. -/
theorem above (h : t.WellFormed) (hp : loc <+: loc') (hne : loc ≠ loc')
    (he : t.entryAt? loc' = some e) : t.isDirectoryAt loc = true := by
  induction loc' using List.reverseRecOn generalizing e with
  | nil => exact absurd (List.prefix_nil.1 hp) hne
  | append_singleton loc' n ih =>
    have hparent := h.parent_of_entry he
    rw [List.dropLast_concat] at hparent
    obtain heq | hp := List.prefix_concat_iff.1 hp
    · exact absurd heq hne
    · by_cases heq : loc = loc'
      · exact heq ▸ hparent
      · exact ih hp heq (isDirectoryAt_iff.1 hparent)

/-- Nothing stands below a file. -/
theorem eq_of_prefix_of_file (h : t.WellFormed) {b : ByteArray}
    (hf : t.entryAt? loc = some (.file b)) (hp : loc <+: loc') (he : t.entryAt? loc' = some e) :
    loc' = loc := by
  by_contra hne
  have hd := isDirectoryAt_iff.1 (h.above hp (Ne.symm hne) he)
  rw [hf] at hd
  cases hd

theorem isName (h : t.WellFormed) (he : t.entryAt? loc = some e) (hn : n ∈ loc) : IsName n :=
  h.names _ (mem_entries (List.ne_nil_of_mem hn) he) n hn

end WellFormed

/-! ## Where paths lead -/

theorem enter_eq_ok : t.enter loc n = .ok loc' ↔ t.isDirectoryAt loc = true ∧
    (n = ".." ∧ loc' = loc.dropLast ∨
      n ≠ ".." ∧ n.utf8ByteSize ≤ nameLimit ∧ loc' = loc ++ [n]) := by
  rw [enter, isDirectoryAt]
  cases t.entryAt? loc with
  | none => simp
  | some e =>
    cases e with
    | file b => simp
    | directory =>
      by_cases hn : n = ".."
      · simp [hn, eq_comm]
      · by_cases hlong : nameLimit < n.utf8ByteSize
        · simp [hn, hlong, Nat.not_le.2 hlong]
        · simp [hn, hlong, eq_comm, Nat.not_lt.1 hlong]

theorem locate_concat_eq (t : Tree) (s : Nat) (ps : List String) (n : String) :
    t.locate ⟨s, ps ++ [n]⟩ = (t.locate ⟨s, ps⟩).bind fun loc => t.enter loc n := by
  rw [locate, List.foldlM_append]
  exact congrArg _ (funext fun loc => bind_pure _)

theorem locate_concat {s : Nat} {ps : List String} : t.locate ⟨s, ps ++ [n]⟩ = .ok loc' ↔
    ∃ loc, t.locate ⟨s, ps⟩ = .ok loc ∧ t.enter loc n = .ok loc' := by
  rw [locate_concat_eq]
  cases t.locate ⟨s, ps⟩ with
  | error k => simp [Except.bind]
  | ok loc => simp [Except.bind]

/-- A path leads to the same place when there are more directories. -/
theorem locate_mono (hhere : u.here = t.here)
    (h : ∀ loc, t.isDirectoryAt loc = true → u.isDirectoryAt loc = true) {p : Path}
    (hp : t.locate p = .ok loc) : u.locate p = .ok loc := by
  obtain ⟨s, ps⟩ := p
  induction ps using List.reverseRecOn generalizing loc with
  | nil =>
    rw [locate] at hp ⊢
    rwa [hhere]
  | append_singleton ps n ih =>
    obtain ⟨q, hq, hn⟩ := locate_concat.1 hp
    obtain ⟨hd, hn⟩ := enter_eq_ok.1 hn
    exact locate_concat.2 ⟨q, ih hq, enter_eq_ok.2 ⟨h q hd, hn⟩⟩

theorem WellFormed.parent_of_locate (h : t.WellFormed) {p : Path} (hp : t.locate p = .ok loc) :
    t.isDirectoryAt loc.dropLast = true := by
  have dropLast : ∀ {q}, t.isDirectoryAt q = true → t.isDirectoryAt q.dropLast = true :=
    fun hq => h.parent_of_entry (isDirectoryAt_iff.1 hq)
  obtain ⟨s, ps⟩ := p
  induction ps using List.reverseRecOn generalizing loc with
  | nil =>
    rw [locate, List.foldlM_nil] at hp
    cases hp
    split_ifs
    · rfl
    · exact dropLast h.here
  | append_singleton ps n ih =>
    obtain ⟨q, hq, hn⟩ := locate_concat.1 hp
    obtain ⟨hd, ⟨-, rfl⟩ | ⟨-, -, rfl⟩⟩ := enter_eq_ok.1 hn
    · exact dropLast (dropLast hd)
    · rwa [List.dropLast_concat]

/-- A path that does not lead to a directory ends in the name of the place it leads to. -/
theorem WellFormed.exists_of_locate (h : t.WellFormed) {p : Path} (hp : t.locate p = .ok loc)
    (hd : t.isDirectoryAt loc = false) : ∃ q, loc = q ++ [p.name] ∧ t.isDirectoryAt q = true ∧
      p.name ∈ p.parts ∧ p.name ≠ ".." ∧ p.name.utf8ByteSize ≤ nameLimit := by
  have hlast := h.parent_of_locate hp
  obtain ⟨s, ps⟩ := p
  obtain rfl | ⟨ps, n, rfl⟩ := List.eq_nil_or_concat ps
  · rw [locate, List.foldlM_nil] at hp
    cases hp
    split_ifs at hd
    · cases hd
    · rw [h.here] at hd
      cases hd
  · rw [List.concat_eq_append] at *
    obtain ⟨q, hq, hn⟩ := locate_concat.1 hp
    have hname : Path.name ⟨s, ps ++ [n]⟩ = n := by simp [Path.name]
    obtain ⟨hdir, ⟨-, rfl⟩ | ⟨hdots, hsize, rfl⟩⟩ := enter_eq_ok.1 hn
    · rw [h.parent_of_entry (isDirectoryAt_iff.1 hdir)] at hd
      cases hd
    · exact ⟨q, by rw [hname], hdir, by simp [hname], by rwa [hname], by rwa [hname]⟩

theorem WellFormed.getLast?_of_locate (h : t.WellFormed) {p : Path} (hp : t.locate p = .ok loc)
    (hd : t.isDirectoryAt loc = false) : loc.getLast? = some p.name := by
  obtain ⟨q, rfl, -⟩ := h.exists_of_locate hp hd
  exact List.getLast?_concat

theorem readFile_eq_ok {p : Path} {b : ByteArray} : t.readFile p = .ok b ↔
    p.hasNul = false ∧ ∃ loc, t.locate p = .ok loc ∧ t.entryAt? loc = some (.file b) := by
  rw [readFile, stat]
  cases p.hasNul with
  | true => simp
  | false =>
    cases t.locate p with
    | error k => simp
    | ok loc =>
      cases he : t.entryAt? loc with
      | none => simp [he]
      | some e => cases e <;> simp [he]

/-! ## Trees with the same directories -/

/-- The same places are directories, and relative paths start from the same. -/
structure SameDirectories (t u : Tree) : Prop where
  here : u.here = t.here
  isDirectoryAt : ∀ loc, u.isDirectoryAt loc = t.isDirectoryAt loc

namespace SameDirectories

theorem refl (t : Tree) : t.SameDirectories t := ⟨rfl, fun _ => rfl⟩

theorem trans {v : Tree} (h : t.SameDirectories u) (h' : u.SameDirectories v) :
    t.SameDirectories v :=
  ⟨h'.here.trans h.here, fun loc => (h'.isDirectoryAt loc).trans (h.isDirectoryAt loc)⟩

theorem symm (h : t.SameDirectories u) : u.SameDirectories t :=
  ⟨h.here.symm, fun loc => (h.isDirectoryAt loc).symm⟩

theorem locate_iff (h : t.SameDirectories u) {p : Path} :
    u.locate p = .ok loc ↔ t.locate p = .ok loc :=
  ⟨locate_mono h.here.symm fun loc hd => (h.isDirectoryAt loc).symm.trans hd,
    locate_mono h.here fun loc hd => (h.isDirectoryAt loc).trans hd⟩

end SameDirectories

/-- A file in place of something that is no directory. -/
theorem sameDirectories_put (h : t.isDirectoryAt loc = false) (b : ByteArray) :
    t.SameDirectories (t.put loc (.file b)) := by
  refine ⟨here_put, fun loc' => ?_⟩
  rw [Bool.eq_iff_iff, isDirectoryAt_iff, isDirectoryAt_iff,
    entryAt?_put (ne_nil_of_not_directory h)]
  split_ifs with heq
  · subst heq
    rw [← isDirectoryAt_iff, h]
    simp
  · rfl

theorem WellFormed.sameDirectories_erase (h : t.WellFormed) {b : ByteArray}
    (hf : t.entryAt? loc = some (.file b)) : t.SameDirectories (t.erase loc) := by
  have hnil : loc ≠ [] := by
    rintro rfl
    cases hf
  refine ⟨here_erase, fun loc' => ?_⟩
  rw [Bool.eq_iff_iff, isDirectoryAt_iff, isDirectoryAt_iff, entryAt?_erase hnil]
  split_ifs with hp
  · refine ⟨nofun, fun hd => ?_⟩
    rw [h.eq_of_prefix_of_file hf hp hd, hf] at hd
    cases hd
  · rfl

/-- Below a file there is nothing to erase with it. -/
theorem WellFormed.entryAt?_erase (h : t.WellFormed) {b : ByteArray}
    (hf : t.entryAt? loc = some (.file b)) (hne : loc' ≠ loc) :
    (t.erase loc).entryAt? loc' = t.entryAt? loc' := by
  have hnil : loc ≠ [] := by
    rintro rfl
    cases hf
  rw [Tree.entryAt?_erase hnil]
  split_ifs with hp
  · cases he : t.entryAt? loc' with
    | none => rfl
    | some e => exact absurd (h.eq_of_prefix_of_file hf hp he) hne
  · rfl

/-! ## Trees that stay well-formed -/

theorem mem_entries_put {x : List String × Entry} (h : x ∈ (t.put loc e).entries) :
    x ∈ t.entries ∨ x.1 = loc := by
  rw [entries_put] at h
  split_ifs at h
  · obtain ⟨y, hy, rfl⟩ := List.mem_map.1 h
    split_ifs
    · exact .inr rfl
    · exact .inl hy
  · obtain h | h := List.mem_append.1 h
    · exact .inl h
    · exact .inr (congrArg Prod.fst (List.mem_singleton.1 h))

theorem keys_put : (t.put loc e).entries.map Prod.fst =
    if loc ∈ t.entries.map Prod.fst then t.entries.map Prod.fst
    else t.entries.map Prod.fst ++ [loc] := by
  rw [entries_put]
  split_ifs
  · rw [List.map_map]
    refine List.map_congr_left fun x _ => ?_
    rw [Function.comp_apply]
    split_ifs with h
    · exact h.symm
    · rfl
  · rw [List.map_append]
    rfl

/-- Something new in a directory, or in place of a file. -/
theorem WellFormed.put (h : t.WellFormed) (hd : t.isDirectoryAt loc = true) (hn : IsName n)
    (hno : t.isDirectoryAt (loc ++ [n]) = false) (e : Entry) :
    (t.put (loc ++ [n]) e).WellFormed := by
  have stays : ∀ q, t.isDirectoryAt q = true → (t.put (loc ++ [n]) e).isDirectoryAt q = true := by
    intro q hq
    rw [isDirectoryAt_iff, entryAt?_put (by simp), if_neg, ← isDirectoryAt_iff, hq]
    rintro rfl
    rw [hno] at hq
    cases hq
  refine ⟨?_, fun x hx => ?_, fun x hx m hm => ?_, ?_⟩
  · rw [keys_put]
    split_ifs with hmem
    · exact h.distinct
    · rw [List.nodup_append]
      refine ⟨h.distinct, List.nodup_singleton _, fun a ha b hb heq => hmem ?_⟩
      rwa [← List.mem_singleton.1 hb, ← heq]
  · obtain hx | hx := mem_entries_put hx
    · exact stays _ (h.parent x hx)
    · rw [hx, List.dropLast_concat]
      exact stays _ hd
  · obtain hx | hx := mem_entries_put hx
    · exact h.names x hx m hm
    · rw [hx, List.mem_append, List.mem_singleton] at hm
      obtain hm | rfl := hm
      · exact h.isName (isDirectoryAt_iff.1 hd) hm
      · exact hn
  · rw [here_put]
    exact stays _ h.here

theorem WellFormed.erase (h : t.WellFormed) {b : ByteArray}
    (hf : t.entryAt? loc = some (.file b)) : (t.erase loc).WellFormed := by
  have hsame := h.sameDirectories_erase hf
  have hsub : (t.erase loc).entries ⊆ t.entries := fun x hx => (List.mem_filter.1 hx).1
  refine ⟨?_, fun x hx => ?_, fun x hx => h.names x (hsub hx), ?_⟩
  · exact h.distinct.sublist ((List.filter_sublist ..).map _)
  · rw [hsame.isDirectoryAt]
    exact h.parent x (hsub hx)
  · rw [hsame.isDirectoryAt, here_erase]
    exact h.here

end Tree

end ScriptBundle
