import Mathlib.Data.List.Forall2
import ScriptBundle.Proofs.Json.Spelling
/-!
# Arrays of object texts

The array of some object texts is read exactly if each of the texts is, and then it holds what they
hold (`readWithin_arrayText`). Nothing in one of the texts can reach into its neighbours, whether
it can be read or not, since where an object text ends is clear from its brackets.
-/

namespace ScriptBundle.Json

variable {cs rest pre inner more : List Char} {room fuel : Nat} {v : Value}

/-- The value that a whole text holds, with room to nest values. -/
def readWithin (room : Nat) (cs : List Char) : Option Value :=
  match value? (2 * cs.length + 2) room (skipBlanks cs) with
  | some (v, rest) => if (skipBlanks rest).isEmpty then some v else none
  | none => none

theorem readText?_eq (cs : List Char) : readText? cs = readWithin nestingLimit cs := rfl

/-- A text is not refused for its nesting: more room would not make it readable. -/
def WithinNesting (cs : List Char) : Prop :=
  ∀ room v, readWithin room cs = some v → readText? cs = some v

/-- The texts of the items of an array, up to its closing bracket. -/
def itemsText (os : List (List Char)) : List Char := [','].intercalate os ++ [']']

/-- The array whose items have these texts. -/
def arrayText (os : List (List Char)) : List Char := '[' :: itemsText os

/-! ## Whole texts -/

theorem skipBlanks_eq_nil : skipBlanks cs = [] ↔ ∀ c ∈ cs, isJsonBlank c = true :=
  List.dropWhile_eq_nil_iff

theorem length_skipBlanks_le (cs : List Char) : (skipBlanks cs).length ≤ cs.length :=
  (List.dropWhile_suffix isJsonBlank).length_le

theorem Spells.mono {room' : Nat} (h : Spells room v pre) (hroom : room ≤ room') :
    Spells room' v pre :=
  { h with
    reads := fun fuel room'' rest hfuel hle => h.reads fuel room'' rest hfuel (hroom.trans hle) }

theorem endsNumber_of_blanks (h : ∀ c ∈ cs, isJsonBlank c = true) : EndsNumber cs := by
  cases cs with
  | nil => nofun
  | cons c cs =>
    have hc := h c List.mem_cons_self
    simp only [isJsonBlank, Bool.or_eq_true, beq_iff_eq] at hc
    rintro _ ⟨⟩
    rcases hc with ((rfl | rfl) | rfl) | rfl <;> rfl

theorem readWithin_eq_some_iff : readWithin room cs = some v ↔
    ∃ pre after, skipBlanks cs = pre ++ after ∧ (∀ c ∈ after, isJsonBlank c = true) ∧
      Spells room v pre := by
  rw [readWithin]
  constructor
  · intro h
    split at h
    · next v' rest hread =>
      split_ifs at h with hafter
      cases h
      obtain ⟨pre, hcs, hpre⟩ := (readsSpellings _).value hread
      exact ⟨pre, rest, hcs, skipBlanks_eq_nil.1 (List.isEmpty_iff.1 hafter), hpre⟩
    · cases h
  · rintro ⟨pre, after, hcs, hafter, hpre⟩
    have hlength := length_skipBlanks_le cs
    rw [hcs, List.length_append] at hlength
    rw [hcs, hpre.reads _ room after (by omega) le_rfl (endsNumber_of_blanks hafter)]
    simp only [skipBlanks_eq_nil.2 hafter, List.isEmpty_nil, if_true]

/-- What is read with some room is read with more. -/
theorem readWithin_mono {room' : Nat} (h : readWithin room cs = some v) (hroom : room ≤ room') :
    readWithin room' cs = some v := by
  obtain ⟨pre, after, hcs, hafter, hpre⟩ := readWithin_eq_some_iff.1 h
  exact readWithin_eq_some_iff.2 ⟨pre, after, hcs, hafter, hpre.mono hroom⟩

/-- A text that is read is not refused for its nesting. -/
theorem withinNesting_of_readText? (h : (readText? cs).isSome = true) : WithinNesting cs := by
  intro room w hw
  obtain ⟨v, h⟩ := Option.isSome_iff_exists.1 h
  have hmore := readWithin_mono hw (le_max_left room nestingLimit)
  rw [readWithin_mono h (le_max_right room nestingLimit)] at hmore
  rw [h, hmore]

/-! ## Object texts -/

/-- An object text, cut at its braces. -/
theorem IsObjectText.exists_closes (h : IsObjectText cs) : ∃ inner after,
    skipBlanks cs = '\x7b' :: (inner ++ after) ∧ Closes inner ∧
      ∀ c ∈ after, isJsonBlank c = true := by
  obtain ⟨inside, after, hcs, hclosing, hafter⟩ := h
  obtain ⟨inner, rfl, hinner⟩ := exists_of_closing? hclosing
  exact ⟨inner, after, hcs, hinner, hafter⟩

/-- Where an object text ends, its value ends. -/
theorem Spells.eq_of_closes (h : Spells room v pre) (hinner : Closes inner)
    (heq : '\x7b' :: (inner ++ more) = pre ++ rest) : pre = '\x7b' :: inner ∧ rest = more := by
  obtain ⟨c, tail, rfl, -⟩ := h.starts
  obtain ⟨rfl, htail⟩ := List.cons.inj heq
  obtain ⟨rfl, rfl⟩ := hinner.unique (h.closes _ _ rfl rfl) htail
  exact ⟨rfl, rfl⟩

theorem readWithin_object (hcs : skipBlanks cs = '\x7b' :: (inner ++ more)) (hinner : Closes inner)
    (hmore : ∀ c ∈ more, isJsonBlank c = true) :
    readWithin room cs = some v ↔ Spells room v ('\x7b' :: inner) := by
  rw [readWithin_eq_some_iff]
  constructor
  · rintro ⟨pre, after, heq, -, hpre⟩
    obtain ⟨rfl, -⟩ := hpre.eq_of_closes hinner (hcs.symm.trans heq)
    exact hpre
  · exact fun h => ⟨'\x7b' :: inner, more, hcs, hmore, h⟩

theorem value?_object_eq_some (hinner : Closes inner)
    (h : value? fuel room ('\x7b' :: (inner ++ more)) = some (v, rest)) :
    Spells room v ('\x7b' :: inner) ∧ rest = more := by
  obtain ⟨pre, heq, hpre⟩ := (readsSpellings fuel).value h
  obtain ⟨rfl, rfl⟩ := hpre.eq_of_closes hinner heq
  exact ⟨hpre, rfl⟩

/-- An object text holds an object. -/
theorem exists_object_of_readWithin (hcs : IsObjectText cs) (h : readWithin room cs = some v) :
    ∃ ms, v = .object ms := by
  obtain ⟨inside, after, hinside, -, -⟩ := hcs
  rw [readWithin, hinside] at h
  split at h
  · next w rest hread =>
    split_ifs at h
    cases h
    by_cases hnil : ∃ rest, skipBlanks inside = '\x7d' :: rest
    · obtain ⟨rest, hnil⟩ := hnil
      rw [value?_object_nil hnil] at hread
      cases hread
      exact ⟨[], rfl⟩
    · cases room with
      | zero =>
        rw [value?] at hread
        split at hread
        · next heq => exact absurd ⟨_, heq⟩ hnil
        · cases hread
      | succ room =>
        rw [value?_object fun rest heq => hnil ⟨rest, heq⟩] at hread
        obtain ⟨⟨ms, rest⟩, -, hread⟩ := Option.map_eq_some_iff.1 hread
        cases hread
        exact ⟨_, rfl⟩
  · cases h

/-! ## Arrays -/

theorem itemsText_singleton (o : List Char) : itemsText [o] = o ++ [']'] := by
  simp [itemsText, List.intercalate]

theorem itemsText_cons (o o' : List Char) (os : List (List Char)) :
    itemsText (o :: o' :: os) = o ++ ',' :: itemsText (o' :: os) := by
  simp [itemsText, List.intercalate]

theorem skipBlanks_append_of_cons {c : Char} (h : skipBlanks cs = c :: rest) (more : List Char) :
    skipBlanks (cs ++ more) = c :: rest ++ more := by
  rw [skipBlanks] at h ⊢
  rw [List.dropWhile_append, h]
  rfl

theorem exists_spelling_of_itemsText {o : List Char} {os : List (List Char)} {vs : List Value}
    (hos : ∀ cs ∈ o :: os, IsObjectText cs)
    (h : List.Forall₂ (fun cs v => readWithin room cs = some v) (o :: os) vs) :
    SpellsInside items? room vs (skipBlanks (itemsText (o :: os))) := by
  induction os generalizing o vs with
  | nil =>
    obtain ⟨ho, -⟩ := List.forall_mem_cons.1 hos
    obtain ⟨inner, after, hcut, hinner, hafter⟩ := ho.exists_closes
    cases h with
    | cons hv hnil =>
      cases hnil
      have hpart := ((readWithin_object hcut hinner hafter).1 hv).item hafter
      rw [itemsText_singleton, skipBlanks_append_of_cons hcut]
      exact hpart.single rfl
  | cons o' os ih =>
    obtain ⟨ho, hos⟩ := List.forall_mem_cons.1 hos
    obtain ⟨inner, after, hcut, hinner, hafter⟩ := ho.exists_closes
    cases h with
    | cons hv hvs =>
      have hpart := ((readWithin_object hcut hinner hafter).1 hv).item hafter
      obtain ⟨bs, hblanks, hbs⟩ := exists_blanks (itemsText (o' :: os))
      rw [itemsText_cons, skipBlanks_append_of_cons hcut, hblanks]
      exact hpart.cons hbs (ih hos hvs)

/-- The first item that is read is what its own text holds. -/
theorem exists_item_of_items? {o : List Char} {d : Char} {vs : List Value} (ho : IsObjectText o)
    (hd : isJsonBlank d = false)
    (h : items? fuel room (skipBlanks (o ++ d :: more)) = some (vs, rest)) :
    ∃ fuel' v, readWithin room o = some v ∧
      (match d :: more with
        | ']' :: rest => some ([v], rest)
        | ',' :: rest => (items? fuel' room (skipBlanks rest)).map fun p => (v :: p.1, p.2)
        | _ => none) = some (vs, rest) := by
  obtain ⟨inner, after, hcut, hinner, hafter⟩ := ho.exists_closes
  cases fuel with
  | zero => cases h
  | succ fuel =>
    rw [skipBlanks_append_of_cons hcut, List.cons_append, List.append_assoc, items?] at h
    split at h
    · cases h
    · next v r hv =>
      obtain ⟨hpre, rfl⟩ := value?_object_eq_some hinner hv
      rw [skipBlanks_append hafter, skipBlanks_cons hd] at h
      exact ⟨fuel, v, (readWithin_object hcut hinner hafter).2 hpre, h⟩

theorem forall₂_of_items? {o : List Char} {os : List (List Char)} {vs : List Value}
    (hos : ∀ cs ∈ o :: os, IsObjectText cs)
    (h : items? fuel room (skipBlanks (itemsText (o :: os))) = some (vs, rest)) :
    List.Forall₂ (fun cs v => readWithin room cs = some v) (o :: os) vs := by
  induction os generalizing fuel o vs with
  | nil =>
    rw [itemsText_singleton] at h
    obtain ⟨_, v, hv, hvs⟩ := exists_item_of_items? (hos o List.mem_cons_self) rfl h
    cases hvs
    exact .cons hv .nil
  | cons o' os ih =>
    rw [itemsText_cons] at h
    obtain ⟨_, v, hv, hvs⟩ := exists_item_of_items? (hos o List.mem_cons_self) rfl h
    obtain ⟨⟨vs, r⟩, hitems, heq⟩ := Option.map_eq_some_iff.1 hvs
    cases heq
    exact .cons hv (ih (List.forall_mem_cons.1 hos).2 hitems)

theorem skipBlanks_itemsText_ne {o : List Char} (ho : IsObjectText o) (os : List (List Char)) :
    ∀ rest, skipBlanks (itemsText (o :: os)) ≠ ']' :: rest := by
  obtain ⟨inner, after, hcut, -, -⟩ := ho.exists_closes
  intro rest
  cases os with
  | nil =>
    rw [itemsText_singleton, skipBlanks_append_of_cons hcut]
    nofun
  | cons o' os =>
    rw [itemsText_cons, skipBlanks_append_of_cons hcut]
    nofun

/-- **The array of some object texts is read exactly if each of them is, with room for one array
more, and holds their values.** -/
theorem readWithin_arrayText {os : List (List Char)} (hos : ∀ cs ∈ os, IsObjectText cs) :
    readWithin (room + 1) (arrayText os) = some v ↔
      ∃ vs, v = .array vs ∧ List.Forall₂ (fun cs v => readWithin room cs = some v) os vs := by
  cases os with
  | nil =>
    have hempty : readWithin (room + 1) (arrayText []) = some (.array []) := rfl
    rw [hempty]
    simp [eq_comm]
  | cons o os =>
    have hskip : skipBlanks (arrayText (o :: os)) = '[' :: itemsText (o :: os) := rfl
    constructor
    · intro h
      rw [readWithin, hskip] at h
      split at h
      · next w rest hread =>
        split_ifs at h
        cases h
        rw [value?_array (skipBlanks_itemsText_ne (hos o List.mem_cons_self) os)] at hread
        obtain ⟨⟨vs, r⟩, hitems, heq⟩ := Option.map_eq_some_iff.1 hread
        cases heq
        exact ⟨vs, rfl, forall₂_of_items? hos hitems⟩
      · cases h
    · rintro ⟨vs, rfl, hvs⟩
      obtain ⟨bs, hblanks, hbs⟩ := exists_blanks (itemsText (o :: os))
      refine readWithin_eq_some_iff.2 ⟨arrayText (o :: os), [], ?_, nofun, ?_⟩
      · rw [hskip, List.append_nil]
        rfl
      · show Spells (room + 1) (.array vs) ('[' :: itemsText (o :: os))
        rw [hblanks]
        exact (exists_spelling_of_itemsText hos hvs).array hbs

/-- The texts are read as these values. -/
abbrev ReadAs (os : List (List Char)) (vs : List Value) : Prop :=
  List.Forall₂ (fun cs v => readText? cs = some v) os vs

/-- **If the array is not refused for its nesting, it is read exactly if each of the texts is, and
holds their values.** -/
theorem readText?_arrayText {os : List (List Char)} (hos : ∀ cs ∈ os, IsObjectText cs)
    (hnesting : WithinNesting (arrayText os)) :
    readText? (arrayText os) = some v ↔ ∃ vs, v = .array vs ∧ ReadAs os vs := by
  constructor
  · intro h
    have hwithin : readWithin (199 + 1) (arrayText os) = some v := h
    obtain ⟨vs, rfl, hvs⟩ := (readWithin_arrayText hos).1 hwithin
    exact ⟨vs, rfl, hvs.imp fun cs v hv => readWithin_mono hv (by decide)⟩
  · intro h
    exact hnesting (nestingLimit + 1) v ((readWithin_arrayText hos).2 h)

end ScriptBundle.Json
