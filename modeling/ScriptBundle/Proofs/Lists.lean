import Mathlib.Data.List.Forall2
import Mathlib.Data.List.Induction
import Mathlib.Data.List.Nodup
import Mathlib.Data.List.Perm.Subperm
import Mathlib.Data.List.TakeWhile
/-!
# Lists element by element

A list without its repetitions, a list split at some of its elements, lists put together with
others between them, and lists whose elements correspond to those of another: `mapM` with operations
that may fail gives such a list (`mapM_eq_ok`, `mapM_eq_some`).
-/

namespace ScriptBundle

theorem nodup_eraseDups {α : Type} [BEq α] [LawfulBEq α] : ∀ l : List α, l.eraseDups.Nodup
  | [] => by simp
  | a :: l => by
    rw [List.eraseDups_cons, List.nodup_cons]
    refine ⟨fun h => ?_, nodup_eraseDups _⟩
    simpa using (List.mem_filter.1 (List.mem_eraseDups.1 h)).2
  termination_by l => l.length
  decreasing_by exact Nat.lt_succ_of_le (List.length_filter_le ..)

theorem eraseDups_concat {α : Type} [DecidableEq α] (l : List α) (a : α) :
    (l ++ [a]).eraseDups = l.eraseDups ++ if a ∈ l then [] else [a] := by
  have hnew : [a].removeAll l = if a ∈ l then [] else [a] := by
    simp [List.removeAll, List.filter_cons]
  rw [List.eraseDups_append, hnew]
  split_ifs <;> rfl

theorem length_eraseDups_eq_iff {α : Type} [DecidableEq α] {l : List α} :
    l.eraseDups.length = l.length ↔ l.Nodup := by
  have hn := nodup_eraseDups l
  constructor
  · intro h
    have hsub := List.Nodup.subperm hn fun x hx => List.mem_eraseDups.1 hx
    exact (hsub.perm_of_length_le (Nat.le_of_eq h.symm)).nodup_iff.1 hn
  · exact fun h => ((List.perm_ext_iff_of_nodup hn h).2 fun x => List.mem_eraseDups).length_eq

theorem eraseDups_filter {α : Type} [DecidableEq α] (keep : α → Bool) (l : List α) :
    (l.filter keep).eraseDups = l.eraseDups.filter keep := by
  induction l using List.reverseRecOn with
  | nil => rfl
  | append_singleton l a ih =>
    rw [List.filter_append, eraseDups_concat, List.filter_append, ← ih, List.filter_cons,
      List.filter_nil]
    split_ifs with ha hmem hmem
    · rw [eraseDups_concat, if_pos (List.mem_filter.2 ⟨hmem, ha⟩), List.filter_nil]
    · rw [eraseDups_concat, if_neg fun h => hmem (List.mem_filter.1 h).1,
        List.filter_cons_of_pos ha, List.filter_nil]
    · rw [List.append_nil, List.filter_nil, List.append_nil]
    · rw [List.append_nil, List.filter_cons_of_neg ha, List.filter_nil, List.append_nil]

/-- Elements that come to nothing may be left out. -/
theorem flatMap_filter {α β : Type} {f : α → List β} {keep : α → Bool} {l : List α}
    (h : ∀ a ∈ l, keep a = false → f a = []) : (l.filter keep).flatMap f = l.flatMap f := by
  induction l with
  | nil => rfl
  | cons a l ih =>
    obtain ⟨ha, hl⟩ := List.forall_mem_cons.1 h
    rw [List.filter_cons, List.flatMap_cons]
    split_ifs with hkeep
    · rw [List.flatMap_cons, ih hl]
    · rw [ha (by simpa using hkeep), List.nil_append, ih hl]

/-- Of the elements with a property there is a last one. -/
theorem exists_last {α : Type} {P : α → Prop} {l : List α} (h : ∃ x ∈ l, P x) :
    ∃ before x after, l = before ++ x :: after ∧ P x ∧ ∀ y ∈ after, ¬ P y := by
  induction l with
  | nil =>
    obtain ⟨x, hx, -⟩ := h
    cases hx
  | cons a l ih =>
    by_cases hl : ∃ x ∈ l, P x
    · obtain ⟨before, x, after, rfl, hx, hafter⟩ := ih hl
      exact ⟨a :: before, x, after, rfl, hx, hafter⟩
    · obtain ⟨x, hx, hP⟩ := h
      have hnone : ∀ y ∈ l, ¬ P y := fun y hy hPy => hl ⟨y, hy, hPy⟩
      obtain rfl | hx := List.mem_cons.1 hx
      · exact ⟨[], x, l, rfl, hP, hnone⟩
      · exact absurd hP (hnone x hx)

/-- Of the elements without a property there is a first one. -/
theorem exists_first_not {α : Type} {P : α → Prop} {l : List α} (h : ¬ ∀ x ∈ l, P x) :
    ∃ before x after, l = before ++ x :: after ∧ (∀ y ∈ before, P y) ∧ ¬ P x := by
  induction l with
  | nil => exact absurd nofun h
  | cons a l ih =>
    by_cases ha : P a
    · obtain ⟨before, x, after, rfl, hb, hx⟩ := ih fun hl => h (List.forall_mem_cons.2 ⟨ha, hl⟩)
      exact ⟨a :: before, x, after, rfl, List.forall_mem_cons.2 ⟨ha, hb⟩, hx⟩
    · exact ⟨[], a, l, rfl, nofun, ha⟩

/-- A list is cut in one way only at its last element with a property. -/
theorem eq_of_last {α : Type} {P : α → Prop} {l l' r r' : List α} {a a' : α}
    (h : l ++ a :: r = l' ++ a' :: r') (ha : P a) (ha' : P a') (hr : ∀ x ∈ r, ¬ P x)
    (hr' : ∀ x ∈ r', ¬ P x) : l = l' ∧ a = a' ∧ r = r' := by
  obtain ⟨m, rfl, hm⟩ | ⟨m, rfl, hm⟩ := List.append_eq_append_iff.1 h
  · cases m with
    | nil =>
      obtain ⟨rfl, rfl⟩ := List.cons.inj hm
      exact ⟨(List.append_nil l).symm, rfl, rfl⟩
    | cons x m =>
      obtain ⟨rfl, rfl⟩ := List.cons.inj hm
      exact absurd ha' (hr a' (List.mem_append_right m List.mem_cons_self))
  · cases m with
    | nil =>
      obtain ⟨rfl, rfl⟩ := List.cons.inj hm
      exact ⟨List.append_nil l', rfl, rfl⟩
    | cons x m =>
      obtain ⟨rfl, rfl⟩ := List.cons.inj hm
      exact absurd ha (hr' a (List.mem_append_right m List.mem_cons_self))

/-- The longest start of a list with nothing but elements that satisfy `p`. -/
theorem takeWhile_eq_iff {α : Type} {p : α → Bool} {l front : List α} :
    l.takeWhile p = front ↔
      (∀ x ∈ front, p x = true) ∧ ∃ rest, l = front ++ rest ∧ ∀ x ∈ rest.head?, p x = false := by
  constructor
  · rintro rfl
    refine ⟨fun x => List.mem_takeWhile_imp, l.dropWhile p, List.takeWhile_append_dropWhile.symm,
      fun x hx => ?_⟩
    have hhead := List.head?_dropWhile_not p l
    rw [hx] at hhead
    simpa using hhead
  · rintro ⟨hfront, rest, rfl, hrest⟩
    rw [List.takeWhile_append_of_pos hfront]
    cases rest with
    | nil => rw [List.takeWhile_nil, List.append_nil]
    | cons x rest => rw [List.takeWhile_cons_of_neg (by simp [hrest x rfl]), List.append_nil]

/-- What stands in a list before the first `a`. -/
theorem takeWhile_ne_eq_iff {α : Type} [DecidableEq α] {a : α} {l front : List α} :
    l.takeWhile (· != a) = front ↔
      a ∉ front ∧ ∃ rest, l = front ++ rest ∧ ∀ x ∈ rest.head?, x = a := by
  rw [takeWhile_eq_iff]
  simp [List.forall_mem_ne']

/-- What stands in a list behind the last `a`. -/
theorem reverse_takeWhile_ne_eq_iff {α : Type} [DecidableEq α] {a : α} {l back : List α} :
    (l.reverse.takeWhile (· != a)).reverse = back ↔
      a ∉ back ∧ ∃ lead, l = lead ++ back ∧ ∀ x ∈ lead.getLast?, x = a := by
  rw [List.reverse_eq_iff, takeWhile_ne_eq_iff, List.mem_reverse]
  refine and_congr_right fun _ => ?_
  constructor
  · rintro ⟨rest, hl, hrest⟩
    refine ⟨rest.reverse, ?_, by rwa [List.getLast?_reverse]⟩
    rw [← List.reverse_reverse l, hl, List.reverse_append, List.reverse_reverse]
  · rintro ⟨lead, rfl, hlead⟩
    exact ⟨lead.reverse, List.reverse_append, by rwa [List.head?_reverse]⟩

/-- The elements of lists that are put together. -/
theorem forall_mem_intercalate {α : Type} {P : α → Prop} {sep : List α} (hsep : ∀ x ∈ sep, P x)
    {ls : List (List α)} : (∀ x ∈ sep.intercalate ls, P x) ↔ ∀ l ∈ ls, ∀ x ∈ l, P x := by
  induction ls with
  | nil => simp
  | cons l ls ih =>
    rw [List.forall_mem_cons, ← ih]
    rcases eq_or_ne ls [] with rfl | hne
    · simp
    · rw [List.intercalate_cons_of_ne_nil hne, List.forall_mem_append, List.forall_mem_append,
        and_iff_left hsep]

/-- Of two elements one stands before the other. -/
theorem exists_split_of_two {α : Type} {l : List α} {a b : α} (ha : a ∈ l) (hb : b ∈ l)
    (hne : a ≠ b) : ∃ front x mid y back,
      l = front ++ x :: (mid ++ y :: back) ∧ [x, y].Perm [a, b] := by
  obtain ⟨front, back, rfl⟩ := List.append_of_mem ha
  obtain hb | hb := List.mem_append.1 hb
  · obtain ⟨front, mid, rfl⟩ := List.append_of_mem hb
    exact ⟨front, b, mid, a, back, by simp, .swap a b []⟩
  · obtain ⟨mid, back, rfl⟩ := List.append_of_mem ((List.mem_cons.1 hb).resolve_left hne.symm)
    exact ⟨front, a, mid, b, back, rfl, .refl _⟩

theorem mapM_eq_ok {α β ε : Type} {f : α → Except ε β} {l : List α} {bs : List β} :
    l.mapM f = .ok bs ↔ List.Forall₂ (fun a b => f a = .ok b) l bs := by
  induction l generalizing bs with
  | nil =>
    rw [List.mapM_nil, List.forall₂_nil_left_iff]
    exact ⟨fun h => (Except.ok.inj h).symm, fun h => h ▸ rfl⟩
  | cons a l ih =>
    rw [List.mapM_cons, List.forall₂_cons_left_iff]
    cases ha : f a with
    | error e => simp [bind, Except.bind]
    | ok b =>
      cases hl : l.mapM f with
      | error e => simp [bind, Except.bind, ← ih, hl]
      | ok bs' => simp [bind, Except.bind, pure, Except.pure, ← ih, hl, eq_comm]

theorem mapM_eq_some {α β : Type} {f : α → Option β} {l : List α} {bs : List β} :
    l.mapM f = some bs ↔ List.Forall₂ (fun a b => f a = some b) l bs := by
  induction l generalizing bs with
  | nil =>
    rw [List.mapM_nil, List.forall₂_nil_left_iff]
    exact ⟨fun h => (Option.some.inj h).symm, fun h => h ▸ rfl⟩
  | cons a l ih =>
    rw [List.mapM_cons, List.forall₂_cons_left_iff]
    cases ha : f a with
    | none => simp
    | some b =>
      cases hl : l.mapM f with
      | none => simp [← ih, hl]
      | some bs' => simp [← ih, hl, eq_comm]

theorem exists_forall₂_iff {α β : Type} {R : α → β → Prop} {l : List α} :
    (∃ bs, List.Forall₂ R l bs) ↔ ∀ a ∈ l, ∃ b, R a b := by
  induction l with
  | nil => simp
  | cons a l ih =>
    rw [List.forall_mem_cons, ← ih]
    constructor
    · rintro ⟨bs, h⟩
      obtain ⟨b, bs', hb, hbs, -⟩ := List.forall₂_cons_left_iff.1 h
      exact ⟨⟨b, hb⟩, bs', hbs⟩
    · rintro ⟨⟨b, hb⟩, bs, hbs⟩
      exact ⟨b :: bs, .cons hb hbs⟩

theorem exists_mapM_iff {α β ε : Type} {f : α → Except ε β} {l : List α} :
    (∃ bs, l.mapM f = .ok bs) ↔ ∀ a ∈ l, ∃ b, f a = .ok b := by
  simp only [mapM_eq_ok, exists_forall₂_iff]

theorem exists_of_mem_forall₂ {α β : Type} {R : α → β → Prop} {l : List α} {bs : List β}
    (h : List.Forall₂ R l bs) {a : α} (ha : a ∈ l) : ∃ b ∈ bs, R a b := by
  induction h with
  | nil => cases ha
  | cons hab _ ih =>
    obtain rfl | ha := List.mem_cons.1 ha
    · exact ⟨_, List.mem_cons_self, hab⟩
    · obtain ⟨b, hb, hab⟩ := ih ha
      exact ⟨b, List.mem_cons_of_mem _ hb, hab⟩

theorem exists_getElem?_of_forall₂ {α β : Type} {R : α → β → Prop} {l : List α} {bs : List β}
    (h : List.Forall₂ R l bs) {n : Nat} {a : α} (ha : l[n]? = some a) :
    ∃ b, bs[n]? = some b ∧ R a b := by
  induction h generalizing n with
  | nil => cases ha
  | cons hab _ ih =>
    cases n with
    | zero =>
      obtain rfl := Option.some.inj ha
      exact ⟨_, rfl, hab⟩
    | succ n => exact ih ha

theorem exists_mem_iff_of_forall₂ {α β : Type} {R : α → β → Prop} {P : α → Prop} {Q : β → Prop}
    {l : List α} {bs : List β} (h : List.Forall₂ R l bs) (hR : ∀ a b, R a b → (Q b ↔ P a)) :
    (∃ b ∈ bs, Q b) ↔ ∃ a ∈ l, P a := by
  induction h with
  | nil => simp
  | cons hab _ ih => simp [hR _ _ hab, ih]

end ScriptBundle
