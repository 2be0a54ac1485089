import Mathlib.Algebra.Order.BigOperators.Group.List
import Mathlib.Algebra.Order.Group.Nat
import Mathlib.Logic.Relation
import ScriptBundle.Owner.Hierarchy
import ScriptBundle.Proofs.Lists
/-!
# Linearizations

A merge takes the lists apart from the front (`MergesTo`), and its fuel is never used up
(`mergeLists?_eq_some`). It keeps the order of each list, has the elements of all, and none of them
twice. So the linearization of a class starts with the class, has all that the class inherits from,
and keeps the order of its bases and of their linearizations (`Linearized.isLinearization`).
-/

namespace ScriptBundle

/-! ## Merges -/

/-- A merge of lists, one element after the other. -/
inductive MergesTo : List (List Nat) → List Nat → Prop
  | nil {lists : List (List Nat)} (h : ∀ l ∈ lists, l = []) : MergesTo lists []
  | cons {lists : List (List Nat)} {c : Nat} {merged : List Nat}
      (next : nextInMerge? lists = some c) (rest : MergesTo (dropHead c lists) merged) :
      MergesTo lists (c :: merged)

section Merges

variable {lists : List (List Nat)} {l merged : List Nat} {c : Nat}

/-- What comes next is a head, and stands behind no head. -/
theorem nextInMerge?_eq_some (h : nextInMerge? lists = some c) :
    (∃ l, c :: l ∈ lists) ∧ ∀ l ∈ lists, c ∉ l.tail := by
  obtain ⟨hfree, -⟩ := List.find?_eq_some_iff_append.1 h
  obtain ⟨l, hl, hhead⟩ := List.mem_filterMap.1 (List.mem_of_find?_eq_some h)
  obtain ⟨l, rfl⟩ := List.head?_eq_some_iff.1 hhead
  exact ⟨⟨l, hl⟩, by simpa using hfree⟩

theorem not_forall_nil (h : nextInMerge? lists = some c) : ¬ ∀ l ∈ lists, l = [] := by
  intro hnil
  obtain ⟨⟨l, hl⟩, -⟩ := nextInMerge?_eq_some h
  cases hnil _ hl

theorem mem_dropHead : l ∈ dropHead c lists ↔
    c :: l ∈ lists ∨ l ∈ lists ∧ l.head? ≠ some c := by
  rw [dropHead, List.mem_map]
  constructor
  · rintro ⟨m, hm, rfl⟩
    split_ifs with hhead
    · obtain ⟨m, rfl⟩ := List.head?_eq_some_iff.1 hhead
      exact .inl hm
    · exact .inr ⟨hm, hhead⟩
  · rintro (hl | ⟨hl, hhead⟩)
    · exact ⟨c :: l, hl, by simp⟩
    · exact ⟨l, hl, if_neg hhead⟩

/-- What was taken is in no list any more. -/
theorem not_mem_dropHead (next : nextInMerge? lists = some c) (hl : l ∈ dropHead c lists) :
    c ∉ l := by
  obtain ⟨-, hfree⟩ := nextInMerge?_eq_some next
  obtain hl | ⟨hl, hhead⟩ := mem_dropHead.1 hl
  · exact hfree _ hl
  · intro hc
    cases l with
    | nil => cases hc
    | cons d l =>
      obtain rfl | hc := List.mem_cons.1 hc
      · exact hhead rfl
      · exact hfree _ hl hc

theorem length_dropHead_lt (h : nextInMerge? lists = some c) :
    (dropHead c lists).flatten.length < lists.flatten.length := by
  obtain ⟨⟨l, hl⟩, -⟩ := nextInMerge?_eq_some h
  rw [List.length_flatten, List.length_flatten, dropHead, List.map_map]
  refine List.sum_lt_sum _ _ (fun l _ => ?_) ⟨c :: l, hl, by simp⟩
  rw [Function.comp_apply]
  split_ifs
  · exact l.tail_sublist.length_le
  · exact le_rfl

theorem mergesTo_iff_nil (h : ∀ l ∈ lists, l = []) : MergesTo lists merged ↔ [] = merged := by
  refine ⟨fun hm => ?_, fun hm => hm ▸ .nil h⟩
  cases hm with
  | nil => rfl
  | cons next => exact absurd h (not_forall_nil next)

theorem mergesTo_iff_cons (next : nextInMerge? lists = some c) :
    MergesTo lists merged ↔ ∃ m, MergesTo (dropHead c lists) m ∧ c :: m = merged := by
  refine ⟨fun hm => ?_, fun ⟨m, hm, heq⟩ => heq ▸ .cons next hm⟩
  cases hm with
  | nil h => exact absurd h (not_forall_nil next)
  | cons next' rest =>
    obtain rfl := Option.some.inj (next.symm.trans next')
    exact ⟨_, rest, rfl⟩

/-- There is fuel for all the elements. -/
theorem mergeLists?_eq_some {fuel : Nat} (h : lists.flatten.length ≤ fuel) :
    mergeLists? fuel lists = some merged ↔ MergesTo lists merged := by
  induction fuel generalizing lists merged with
  | zero =>
    have hnil : ∀ l ∈ lists, l = [] :=
      List.flatten_eq_nil_iff.1 (List.length_eq_zero_iff.1 (Nat.le_zero.1 h))
    rw [mergeLists?, if_pos (by simpa using hnil), mergesTo_iff_nil hnil, Option.some.injEq]
  | succ fuel ih =>
    rw [mergeLists?]
    split_ifs with hall
    · rw [mergesTo_iff_nil (by simpa using hall), Option.some.injEq]
    cases hnext : nextInMerge? lists with
    | none =>
      refine iff_of_false nofun fun hm => ?_
      cases hm with
      | nil hnil => exact hall (by simpa using hnil)
      | cons next => cases hnext.symm.trans next
    | some c =>
      have hfuel : (dropHead c lists).flatten.length ≤ fuel :=
        Nat.le_of_lt_succ ((length_dropHead_lt hnext).trans_le h)
      simp only [Option.map_eq_some_iff, mergesTo_iff_cons hnext, ih hfuel]

namespace MergesTo

/-- The order of each list is kept. -/
theorem sublist (h : MergesTo lists merged) (hl : l ∈ lists) : l.Sublist merged := by
  induction h generalizing l with
  | nil hnil => rw [hnil l hl]
  | @cons lists c merged next rest ih =>
    by_cases hhead : l.head? = some c
    · obtain ⟨l, rfl⟩ := List.head?_eq_some_iff.1 hhead
      exact (ih (mem_dropHead.2 (.inl hl))).cons_cons c
    · exact (ih (mem_dropHead.2 (.inr ⟨hl, hhead⟩))).cons c

/-- The elements are those of the lists. -/
theorem mem_iff (h : MergesTo lists merged) {x : Nat} : x ∈ merged ↔ ∃ l ∈ lists, x ∈ l := by
  refine ⟨fun hx => ?_, fun ⟨l, hl, hx⟩ => (h.sublist hl).mem hx⟩
  induction h with
  | nil => cases hx
  | cons next rest ih =>
    obtain rfl | hx := List.mem_cons.1 hx
    · obtain ⟨⟨l, hl⟩, -⟩ := nextInMerge?_eq_some next
      exact ⟨_, hl, List.mem_cons_self⟩
    · obtain ⟨l, hl, hx⟩ := ih hx
      obtain hl | ⟨hl, -⟩ := mem_dropHead.1 hl
      · exact ⟨_, hl, List.mem_cons_of_mem _ hx⟩
      · exact ⟨l, hl, hx⟩

theorem nodup (h : MergesTo lists merged) : merged.Nodup := by
  induction h with
  | nil => exact .nil
  | cons next rest ih =>
    refine List.nodup_cons.2 ⟨fun hc => ?_, ih⟩
    obtain ⟨l, hl, hc⟩ := rest.mem_iff.1 hc
    exact not_mem_dropHead next hl hc

end MergesTo

end Merges

/-! ## Hierarchies -/

/-- The linearizations of classes, each of which is the class and the merge of the linearizations of
its bases with the bases themselves. -/
inductive Linearized : List ClassDeclaration → List (List Nat) → Prop
  | nil : Linearized [] []
  | concat {classes : List ClassDeclaration} {ls lists : List (List Nat)} {d : ClassDeclaration}
      {merged : List Nat} (earlier : Linearized classes ls) (nodup : d.bases.Nodup)
      (bases : List.Forall₂ (fun b l => ls[b]? = some l) d.bases lists)
      (merge : MergesTo (lists ++ [d.bases]) merged) :
      Linearized (classes ++ [d]) (ls ++ [ls.length :: merged])

/-- A class is another one, or inherits from it. -/
def Inherits (classes : List ClassDeclaration) : Nat → Nat → Prop :=
  Relation.ReflTransGen fun c b => ∃ d, classes[c]? = some d ∧ b ∈ d.bases

/-- What the linearization of a class has to be. -/
structure IsLinearization (classes : List ClassDeclaration) (ls : List (List Nat)) (c : Nat)
    (l : List Nat) : Prop where
  /-- It starts with the class, -/
  head : l.head? = some c
  /-- has no class twice, -/
  nodup : l.Nodup
  /-- and has those that the class inherits from. -/
  mem_iff : ∀ x, x ∈ l ↔ Inherits classes c x
  /-- It keeps the order of the bases, -/
  bases : ∀ d, classes[c]? = some d → d.bases.Sublist l
  /-- and that of their linearizations. -/
  inherited : ∀ d, classes[c]? = some d → ∀ b ∈ d.bases, ∀ l', ls[b]? = some l' → l'.Sublist l

section Hierarchies

variable {classes : List ClassDeclaration} {ls : List (List Nat)} {c : Nat} {l : List Nat}

theorem linearize?_eq_some {bases : List Nat} : linearize? ls c bases = some l ↔
    bases.Nodup ∧ ∃ lists merged, List.Forall₂ (fun b l => ls[b]? = some l) bases lists ∧
      MergesTo (lists ++ [bases]) merged ∧ c :: merged = l := by
  rw [linearize?]
  split_ifs with hnodup
  · exact iff_of_false nofun fun h => hnodup (length_eraseDups_eq_iff.2 h.1)
  have hnodup := length_eraseDups_eq_iff.1 (not_not.1 hnodup)
  cases hlists : bases.mapM fun b => ls[b]? with
  | none =>
    refine iff_of_false nofun fun ⟨_, lists, _, hbases, _⟩ => ?_
    cases hlists.symm.trans (mapM_eq_some.2 hbases)
  | some lists =>
    dsimp only
    rw [Option.map_eq_some_iff]
    simp only [mergeLists?_eq_some le_rfl]
    constructor
    · rintro ⟨merged, hmerge, rfl⟩
      exact ⟨hnodup, lists, merged, mapM_eq_some.1 hlists, hmerge, rfl⟩
    · rintro ⟨-, lists', merged, hbases, hmerge, rfl⟩
      obtain rfl := Option.some.inj (hlists.symm.trans (mapM_eq_some.2 hbases))
      exact ⟨merged, hmerge, rfl⟩

theorem linearizations?_concat (classes : List ClassDeclaration) (d : ClassDeclaration) :
    linearizations? (classes ++ [d]) = (linearizations? classes).bind fun ls =>
      (linearize? ls ls.length d.bases).map fun l => ls ++ [l] := by
  rw [linearizations?, List.foldlM_append]
  refine congrArg (linearizations? classes).bind (funext fun ls => ?_)
  rw [List.foldlM_cons]
  exact bind_pure _

/-- The linearizations of classes are made in their order. -/
theorem linearizations?_eq_some : linearizations? classes = some ls ↔ Linearized classes ls := by
  constructor
  · intro h
    induction classes using List.reverseRecOn generalizing ls with
    | nil =>
      obtain rfl : [] = ls := Option.some.inj h
      exact .nil
    | append_singleton classes d ih =>
      rw [linearizations?_concat] at h
      obtain ⟨earlier, hls, hlast⟩ := Option.bind_eq_some_iff.1 h
      obtain ⟨l, hl, rfl⟩ := Option.map_eq_some_iff.1 hlast
      obtain ⟨hnodup, lists, merged, hbases, hmerge, rfl⟩ := linearize?_eq_some.1 hl
      exact .concat (ih hls) hnodup hbases hmerge
  · intro h
    induction h with
    | nil => rfl
    | concat earlier hnodup hbases hmerge ih =>
      rw [linearizations?_concat, ih, Option.bind_some,
        linearize?_eq_some.2 ⟨hnodup, _, _, hbases, hmerge, rfl⟩]
      rfl

namespace Linearized

theorem length_eq (h : Linearized classes ls) : ls.length = classes.length := by
  induction h with
  | nil => rfl
  | concat _ _ _ _ ih =>
    rw [List.length_append, List.length_append, ih]
    rfl

/-- A class has bases before it, and is linearized by those of its bases. -/
theorem exists_merge (h : Linearized classes ls) {d : ClassDeclaration}
    (hd : classes[c]? = some d) :
    ∃ lists merged, List.Forall₂ (fun b l => b < c ∧ ls[b]? = some l) d.bases lists ∧
      MergesTo (lists ++ [d.bases]) merged ∧ ls[c]? = some (c :: merged) := by
  induction h with
  | nil => cases hd
  | @concat classes ls lists e merged earlier _ hbases hmerge ih =>
    have hlater : ∀ {b l}, ls[b]? = some l → (ls ++ [ls.length :: merged])[b]? = some l :=
      fun hb => by rw [List.getElem?_append_left (List.getElem?_eq_some_iff.1 hb).1, hb]
    obtain hc | hc := lt_or_ge c classes.length
    · rw [List.getElem?_append_left hc] at hd
      obtain ⟨lists, merged, hbases, hmerge, hl⟩ := ih hd
      exact ⟨lists, merged, hbases.imp fun _ _ hb => ⟨hb.1, hlater hb.2⟩, hmerge, hlater hl⟩
    · obtain ⟨hlength, -⟩ := List.getElem?_eq_some_iff.1 hd
      rw [List.length_append, List.length_singleton] at hlength
      obtain rfl : c = ls.length := by
        rw [earlier.length_eq]
        omega
      obtain rfl : e = d := by simpa [earlier.length_eq] using hd
      exact ⟨lists, merged, hbases.imp fun b l hb =>
        ⟨(List.getElem?_eq_some_iff.1 hb).1, hlater hb⟩, hmerge, by simp⟩

theorem base_lt (h : Linearized classes ls) {d : ClassDeclaration} (hd : classes[c]? = some d)
    {b : Nat} (hb : b ∈ d.bases) : b < c := by
  obtain ⟨lists, _, hbases, -, -⟩ := h.exists_merge hd
  obtain ⟨l, -, hlt, -⟩ := exists_of_mem_forall₂ hbases hb
  exact hlt

theorem le_of_inherits (h : Linearized classes ls) {x : Nat} (hx : Inherits classes c x) :
    x ≤ c := by
  induction hx with
  | refl => exact le_rfl
  | tail _ hb ih =>
    obtain ⟨d, hd, hb⟩ := hb
    exact (h.base_lt hd hb).le.trans ih

/-- **Every linearization is one.** -/
theorem isLinearization (h : Linearized classes ls) (hl : ls[c]? = some l) :
    IsLinearization classes ls c l := by
  induction c using Nat.strong_induction_on generalizing l with
  | _ c ih =>
  obtain ⟨hc, -⟩ := List.getElem?_eq_some_iff.1 hl
  obtain ⟨d, hd⟩ : ∃ d, classes[c]? = some d :=
    ⟨_, List.getElem?_eq_getElem (h.length_eq ▸ hc)⟩
  obtain ⟨lists, merged, hbases, hmerge, hmerged⟩ := h.exists_merge hd
  obtain rfl := Option.some.inj (hl.symm.trans hmerged)
  -- What is merged is what the bases inherit from, by what is known of the classes before.
  have hmem : ∀ x, x ∈ merged ↔ ∃ b ∈ d.bases, Inherits classes b x := by
    intro x
    have hlists : (∃ l ∈ lists, x ∈ l) ↔ ∃ b ∈ d.bases, Inherits classes b x :=
      exists_mem_iff_of_forall₂ hbases fun b l hb => (ih b hb.1 hb.2).mem_iff x
    rw [hmerge.mem_iff]
    constructor
    · rintro ⟨l, hl, hx⟩
      obtain hl | hl := List.mem_append.1 hl
      · exact hlists.1 ⟨l, hl, hx⟩
      · exact ⟨x, List.mem_singleton.1 hl ▸ hx, .refl⟩
    · intro hx
      obtain ⟨l, hl, hx⟩ := hlists.2 hx
      exact ⟨l, List.mem_append_left _ hl, hx⟩
  have hsub : ∀ l ∈ lists ++ [d.bases], l.Sublist (c :: merged) :=
    fun l hl => (hmerge.sublist hl).cons c
  refine ⟨rfl, ?nodup, fun x => ?mem, ?bases, ?inherited⟩
  case nodup =>
    refine List.nodup_cons.2 ⟨fun hcm => ?_, hmerge.nodup⟩
    obtain ⟨b, hb, hbc⟩ := (hmem c).1 hcm
    exact absurd (h.base_lt hd hb) (h.le_of_inherits hbc).not_gt
  case mem =>
    rw [List.mem_cons, hmem, Inherits, Relation.ReflTransGen.cases_head_iff, eq_comm]
    simp [hd]
  case bases =>
    intro d' hd'
    obtain rfl := Option.some.inj (hd.symm.trans hd')
    exact hsub _ (List.mem_append_right _ (List.mem_singleton_self _))
  case inherited =>
    intro d' hd' b hb l' hl'
    obtain rfl := Option.some.inj (hd.symm.trans hd')
    obtain ⟨l, hl, -, hbl⟩ := exists_of_mem_forall₂ hbases hb
    obtain rfl := Option.some.inj (hbl.symm.trans hl')
    exact hsub l (List.mem_append_left _ hl)

end Linearized

end Hierarchies

end ScriptBundle
