import Mathlib.Data.List.Nodup
/-!
# Looking up keys in lists of pairs

What a key is found with when the keys are distinct (`lookup_of_mem`, `lookup_perm`), when some of
them are taken out (`lookup_filter`), and when one is given another value (`lookup_replace`).
-/

namespace ScriptBundle

variable {α β : Type} [BEq α] [LawfulBEq α] {l : List (α × β)} {k : α} {v : β}

theorem lookup_of_mem (hn : (l.map Prod.fst).Nodup) (h : (k, v) ∈ l) : l.lookup k = some v := by
  obtain ⟨l₁, l₂, rfl⟩ := List.append_of_mem h
  refine List.lookup_eq_some_iff.2 ⟨l₁, l₂, rfl, fun p hp => ?_⟩
  rw [List.map_append, List.map_cons] at hn
  have hne : p.1 ≠ k := fun e =>
    List.disjoint_of_nodup_append hn (List.mem_map_of_mem hp) (e ▸ List.mem_cons_self)
  simpa using hne.symm

theorem mem_of_lookup (h : l.lookup k = some v) : (k, v) ∈ l := by
  obtain ⟨l₁, l₂, rfl, -⟩ := List.lookup_eq_some_iff.1 h
  exact List.mem_append_right _ List.mem_cons_self

theorem not_mem_of_lookup_eq_none (h : l.lookup k = none) (v : β) : (k, v) ∉ l := fun hm => by
  simpa using List.lookup_eq_none_iff.1 h _ hm

/-- The order of pairs with distinct keys does not matter. -/
theorem lookup_perm {l' : List (α × β)} (h : l.Perm l') (hn : (l.map Prod.fst).Nodup) (k : α) :
    l.lookup k = l'.lookup k := by
  have hn' : (l'.map Prod.fst).Nodup := (h.map Prod.fst).nodup_iff.1 hn
  cases hk : l.lookup k with
  | some v => exact (lookup_of_mem hn' (h.subset (mem_of_lookup hk))).symm
  | none =>
    symm
    rw [List.lookup_eq_none_iff] at hk ⊢
    intro p hp
    exact hk p (h.symm.subset hp)

theorem lookup_cons_ne {k' : α} (h : k ≠ k') (w : β) : ((k', w) :: l).lookup k = l.lookup k := by
  rw [List.lookup_cons, beq_false_of_ne h]

theorem lookup_filter (p : α → Bool) :
    (l.filter fun e => p e.1).lookup k = if p k then l.lookup k else none := by
  induction l with
  | nil => simp
  | cons e l ih =>
    obtain ⟨k', w⟩ := e
    by_cases hk : k = k'
    · subst hk
      by_cases hp : p k <;> simp [hp, ih]
    · by_cases hp : p k' <;> simp [hp, ih, lookup_cons_ne hk]

theorem lookup_filter_ne [DecidableEq α] {k' : α} (h : k ≠ k') :
    (l.filter fun e => e.1 ≠ k').lookup k = l.lookup k := by
  rw [lookup_filter fun x => decide (x ≠ k'), if_pos (decide_eq_true h)]

theorem lookup_filter_self [DecidableEq α] : (l.filter fun e => e.1 ≠ k).lookup k = none := by
  rw [lookup_filter fun x => decide (x ≠ k), if_neg (by simp)]

/-- A key gets another value. -/
theorem lookup_replace [DecidableEq α] {k' : α} (v : β) :
    (l.map fun e => if e.1 = k' then (k', v) else e).lookup k =
      if k = k' then (l.lookup k).map fun _ => v else l.lookup k := by
  induction l with
  | nil => simp
  | cons e l ih =>
    obtain ⟨k₁, w⟩ := e
    rw [List.map_cons]
    by_cases hk : k = k₁
    · subst hk
      by_cases h : k = k' <;> simp [h]
    · by_cases h : k₁ = k'
      · subst h
        rw [if_pos rfl, lookup_cons_ne hk, lookup_cons_ne hk, ih]
      · rw [if_neg h, lookup_cons_ne hk, lookup_cons_ne hk, ih]

/-- Lists with the same keys, each once, in which every key is found with the same are equal. -/
theorem eq_of_lookup {l' : List (α × β)} (hkeys : l'.map Prod.fst = l.map Prod.fst)
    (hn : (l.map Prod.fst).Nodup) (h : ∀ k, l'.lookup k = l.lookup k) : l' = l := by
  induction l generalizing l' with
  | nil => exact List.map_eq_nil_iff.1 hkeys
  | cons e l ih =>
    obtain ⟨k, v⟩ := e
    cases l' with
    | nil => cases hkeys
    | cons e' l' =>
      obtain ⟨k', v'⟩ := e'
      obtain ⟨hk, hnodup⟩ := List.nodup_cons.1 hn
      obtain ⟨heq, htail⟩ := List.cons.inj hkeys
      obtain rfl : k' = k := heq
      have hv := h k'
      rw [List.lookup_cons_self, List.lookup_cons_self] at hv
      have hnone : ∀ m : List (α × β), m.map Prod.fst = l.map Prod.fst → m.lookup k' = none :=
        fun m hm => List.lookup_eq_none_iff.2 fun p hp => by
          have hmem : p.1 ∈ l.map Prod.fst := hm ▸ List.mem_map_of_mem hp
          simpa using fun heq : k' = p.1 => hk (heq ▸ hmem)
      have hrest : l' = l := by
        refine ih htail hnodup fun k => ?_
        by_cases heq : k = k'
        · rw [heq, hnone l' htail, hnone l rfl]
        · have hrest := h k
          rwa [lookup_cons_ne heq, lookup_cons_ne heq] at hrest
      rw [hrest, Option.some.inj hv]

end ScriptBundle
