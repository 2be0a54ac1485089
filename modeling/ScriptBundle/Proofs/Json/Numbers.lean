import ScriptBundle.Proofs.Json.Brackets
import ScriptBundle.Proofs.Lists
/-!
# Where a number ends

A number is read up to the first character that cannot continue it, and what follows does not
matter: `exists_spelling_of_number?`.
-/

namespace ScriptBundle.Json

open Decimal

variable {cs rest : List Char}

/-- Holds of the characters that may stand after the digits of a number. -/
def continuesNumber (c : Char) : Bool := c.isDigit || c == '.' || c == 'e' || c == 'E'

/-- A number ends before this text. -/
def EndsNumber (cs : List Char) : Prop := ∀ c ∈ cs.head?, continuesNumber c = false

/-- A text does not start with a digit. -/
def EndsDigits (cs : List Char) : Prop := ∀ c ∈ cs.head?, c.isDigit = false

theorem EndsNumber.endsDigits (h : EndsNumber cs) : EndsDigits cs := fun c hc => by
  have hc := h c hc
  simp only [continuesNumber, Bool.or_eq_false_iff] at hc
  exact hc.1.1.1

/-! ## Parts of a number -/

theorem takeDigits_append {ds : List Char} (hds : ∀ c ∈ ds, c.isDigit = true)
    (hrest : EndsDigits rest) : takeDigits (ds ++ rest) = (ds, rest) := by
  have hstop : rest.takeWhile Char.isDigit = [] ∧ rest.dropWhile Char.isDigit = rest := by
    cases rest with
    | nil => exact ⟨rfl, rfl⟩
    | cons c rest =>
      have hc : c.isDigit = false := hrest c rfl
      simp [hc]
  rw [takeDigits, List.takeWhile_append_of_pos hds, List.dropWhile_append_of_pos hds, hstop.1,
    hstop.2, List.append_nil]

theorem exists_digits (cs : List Char) : ∃ ds rest, cs = ds ++ rest ∧
    (∀ c ∈ ds, c.isDigit = true) ∧ EndsDigits rest := by
  obtain ⟨hds, rest, hcs, hrest⟩ := takeWhile_eq_iff.1 (rfl : cs.takeWhile Char.isDigit = _)
  exact ⟨_, rest, hcs, hds, hrest⟩

theorem isPlain_of_isDigit {c : Char} (h : c.isDigit = true) : isPlain c = true := by
  have hne : c ≠ '"' ∧ c ≠ '[' ∧ c ≠ '\x7b' ∧ c ≠ ']' ∧ c ≠ '\x7d' := by
    refine ⟨?_, ?_, ?_, ?_, ?_⟩ <;> rintro rfl <;> cases h
  simp [isPlain, isOpening, isClosing, hne]

/-- A fraction is read whatever follows, unless it is a digit or a point. -/
theorem exists_of_fraction? {fs : List Char} (h : fraction? cs = some (fs, rest)) :
    ∃ pre, cs = pre ++ rest ∧ (∀ c ∈ pre, isPlain c = true) ∧
      ∀ rest', EndsDigits rest' → rest'.head? ≠ some '.' →
        fraction? (pre ++ rest') = some (fs, rest') := by
  rw [fraction?.eq_def] at h
  split at h
  · next cs =>
    obtain ⟨ds, r, rfl, hds, hr⟩ := exists_digits cs
    rw [takeDigits_append hds hr] at h
    dsimp only at h
    split_ifs at h with hempty
    cases h
    refine ⟨'.' :: fs, rfl, List.forall_mem_cons.2 ⟨rfl, fun c hc => isPlain_of_isDigit (hds c hc)⟩,
      fun rest' hrest' _ => ?_⟩
    rw [List.cons_append, fraction?, takeDigits_append hds hrest']
    exact if_neg hempty
  · next hpoint =>
    cases h
    refine ⟨[], rfl, nofun, fun rest' _ hpoint' => ?_⟩
    rw [List.nil_append, fraction?]
    rintro cs rfl
    exact hpoint' rfl

/-- Whether a text starts with a minus sign, and the text without its sign. -/
def exponentSign : List Char → Bool × List Char
  | '-' :: cs => (true, cs)
  | '+' :: cs => (false, cs)
  | cs => (false, cs)

theorem exponent?_cons (c : Char) (cs : List Char) : exponent? (c :: cs) =
    if c = 'e' ∨ c = 'E' then
      if (takeDigits (exponentSign cs).2).1.isEmpty then none
      else some (some (if (exponentSign cs).1 then
          -(digitsValue (takeDigits (exponentSign cs).2).1 : Int)
        else digitsValue (takeDigits (exponentSign cs).2).1), (takeDigits (exponentSign cs).2).2)
    else some (none, c :: cs) := rfl

theorem exponentSign_digit {d : Char} (hd : d.isDigit = true) (ds : List Char) :
    exponentSign (d :: ds) = (false, d :: ds) := by
  have hminus : d ≠ '-' := by rintro rfl; cases hd
  have hplus : d ≠ '+' := by rintro rfl; cases hd
  simp [exponentSign, hminus, hplus]

/-- The sign is read in the same way before any digit. -/
theorem exists_exponentSign (cs : List Char) : ∃ sign,
    cs = sign ++ (exponentSign cs).2 ∧ (∀ c ∈ sign, isPlain c = true) ∧
      ∀ d ds, d.isDigit = true →
        exponentSign (sign ++ d :: ds) = ((exponentSign cs).1, d :: ds) := by
  fun_cases exponentSign cs with
  | case1 cs => exact ⟨['-'], rfl, List.all_eq_true.1 (by decide), fun _ _ _ => rfl⟩
  | case2 cs => exact ⟨['+'], rfl, List.all_eq_true.1 (by decide), fun _ _ _ => rfl⟩
  | case3 => exact ⟨[], rfl, nofun, fun d ds hd => exponentSign_digit hd ds⟩

/-- An exponent is read whatever follows that cannot continue a number. -/
theorem exists_of_exponent? {e : Option Int} (h : exponent? cs = some (e, rest)) :
    ∃ pre, cs = pre ++ rest ∧ (∀ c ∈ pre, isPlain c = true) ∧
      (∀ c ∈ pre.head?, c = 'e' ∨ c = 'E') ∧
      ∀ rest', EndsNumber rest' → exponent? (pre ++ rest') = some (e, rest') := by
  have hnone : ∀ rest', EndsNumber rest' → exponent? rest' = some (none, rest') := by
    intro rest' hrest'
    cases rest' with
    | nil => rfl
    | cons c rest' =>
      have hc := hrest' c rfl
      rw [exponent?_cons, if_neg]
      rintro (rfl | rfl) <;> cases hc
  cases cs with
  | nil =>
    cases h
    exact ⟨[], rfl, nofun, nofun, hnone⟩
  | cons c cs =>
    rw [exponent?_cons] at h
    by_cases hc : c = 'e' ∨ c = 'E'
    · obtain ⟨sign, hcs, hsign, hread⟩ := exists_exponentSign cs
      obtain ⟨ds, r, hr, hds, hends⟩ := exists_digits (exponentSign cs).2
      rw [if_pos hc, hr, takeDigits_append hds hends] at h
      by_cases hempty : ds.isEmpty
      · rw [if_pos hempty] at h
        cases h
      rw [if_neg hempty] at h
      obtain ⟨d, ds, rfl⟩ := List.exists_cons_of_ne_nil (List.isEmpty_iff.not.1 hempty)
      cases h
      refine ⟨c :: (sign ++ d :: ds), ?_, ?_, ?_, fun rest' hrest' => ?_⟩
      · rw [List.cons_append, List.append_assoc, ← hr, ← hcs]
      · rw [List.forall_mem_cons, List.forall_mem_append]
        refine ⟨?_, hsign, fun x hx => isPlain_of_isDigit (hds x hx)⟩
        rcases hc with rfl | rfl <;> rfl
      · rintro x ⟨⟩
        exact hc
      · have hsigned := hread d (ds ++ rest') (hds d List.mem_cons_self)
        have hdigits : takeDigits (d :: (ds ++ rest')) = (d :: ds, rest') :=
          takeDigits_append hds hrest'.endsDigits
        rw [List.cons_append, List.append_assoc, List.cons_append, exponent?_cons, if_pos hc,
          hsigned, hdigits, if_neg hempty]
    · rw [if_neg hc] at h
      cases h
      exact ⟨[], rfl, nofun, nofun, hnone⟩

/-! ## Numbers -/

/-- A text is read as a number, whatever follows that cannot continue it. -/
structure SpellsNumber (v : Value) (pre : List Char) : Prop where
  plain : ∀ c ∈ pre, isPlain c = true
  starts : ∃ c cs, pre = c :: cs ∧ (c = '-' ∨ c.isDigit = true)
  reads : ∀ rest, EndsNumber rest → number? (pre ++ rest) = some (v, rest)

/-- Holds of digits that are no integer part: none, superfluous zeros, or too many. -/
def isBadIntegerPart (negative : Bool) (ds : List Char) : Bool :=
  ds.isEmpty || (ds.head? == some '0' && 1 < ds.length) ||
    integerPartLimit < ds.length + (if negative then 1 else 0)

/-- The value of a number with the parts of its text. -/
def numberValue (negative : Bool) (ds fs : List Char) (e : Option Int) : Value :=
  if fs.isEmpty && e.isNone then
    .int (if negative then -(digitsValue ds : Int) else digitsValue ds)
  else
    .double (Binary64.ofDecimal negative (digitsValue (ds ++ fs)) (e.getD 0 - fs.length))

theorem numberFrom?_eq (negative : Bool) (ds cs : List Char) : numberFrom? negative ds cs =
    if isBadIntegerPart negative ds then none
    else (fraction? cs).bind fun p =>
      (exponent? p.2).map fun q => (numberValue negative ds p.1 q.1, q.2) := by
  cases negative <;>
    simp only [numberFrom?, isBadIntegerPart, numberValue, Option.map_eq_bind, Option.bind_eq_bind,
      Function.comp_def, if_true, if_false, Bool.false_eq_true]
  all_goals
    split_ifs
    · rfl
    · congr 1
      funext p
      congr 1
      funext q
      split_ifs <;> rfl

theorem exists_of_numberFrom? {negative : Bool} {ds : List Char} {v : Value}
    (h : numberFrom? negative ds cs = some (v, rest)) (hcs : EndsDigits cs) :
    ds ≠ [] ∧ ∃ pre, cs = pre ++ rest ∧ (∀ c ∈ pre, isPlain c = true) ∧
      ∀ rest', EndsNumber rest' →
        numberFrom? negative ds (pre ++ rest') = some (v, rest') ∧ EndsDigits (pre ++ rest') := by
  rw [numberFrom?_eq] at h
  split_ifs at h with hbad
  obtain ⟨⟨fs, r⟩, hfraction, h⟩ := Option.bind_eq_some_iff.1 h
  obtain ⟨⟨e, r'⟩, hexponent, h⟩ := Option.map_eq_some_iff.1 h
  cases h
  obtain ⟨pre₁, rfl, hplain₁, hread₁⟩ := exists_of_fraction? hfraction
  obtain ⟨pre₂, rfl, hplain₂, hletter, hread₂⟩ := exists_of_exponent? hexponent
  have hds : ds ≠ [] := by
    rintro rfl
    exact hbad rfl
  refine ⟨hds, pre₁ ++ pre₂, (List.append_assoc ..).symm,
    List.forall_mem_append.2 ⟨hplain₁, hplain₂⟩, fun rest' hrest' => ?_⟩
  -- what follows the fraction is the exponent's letter or the end of the number
  have hfollows : ∀ c ∈ (pre₂ ++ rest').head?, c.isDigit = false ∧ c ≠ '.' := by
    intro c hc
    cases pre₂ with
    | nil =>
      have hc := hrest' c hc
      simp only [continuesNumber, Bool.or_eq_false_iff, beq_eq_false_iff_ne] at hc
      exact hc.1.1
    | cons d pre₂ =>
      obtain rfl : d = c := Option.some.inj hc
      rcases hletter d rfl with rfl | rfl <;> decide
  rw [List.append_assoc]
  refine ⟨?_, ?_⟩
  · rw [numberFrom?_eq, if_neg hbad, hread₁ _ (fun c hc => (hfollows c hc).1)
      (fun hpoint => (hfollows '.' hpoint).2 rfl), Option.bind_some, hread₂ rest' hrest']
    rfl
  · intro c hc
    cases pre₁ with
    | nil => exact (hfollows c hc).1
    | cons d pre₁ =>
      exact hcs c hc

theorem number?_digit {d : Char} (hd : d.isDigit = true) (cs : List Char) :
    number? (d :: cs) = numberFrom? false (takeDigits (d :: cs)).1 (takeDigits (d :: cs)).2 := by
  have hminus : d ≠ '-' := by rintro rfl; cases hd
  rw [number?] <;> rintro _ ⟨⟩ <;> exact hminus rfl

theorem number?_minus {d : Char} (hd : d.isDigit = true) (cs : List Char) :
    number? ('-' :: d :: cs) =
      numberFrom? true (takeDigits (d :: cs)).1 (takeDigits (d :: cs)).2 := by
  rw [number?]
  rintro _ ⟨⟩
  cases hd

theorem spellsNumber_of_numberFrom? {negative : Bool} {sign : List Char} {v : Value}
    (hsign : sign = if negative then ['-'] else [])
    (h : numberFrom? negative (takeDigits cs).1 (takeDigits cs).2 = some (v, rest)) :
    ∃ pre, sign ++ cs = pre ++ rest ∧ SpellsNumber v pre := by
  obtain ⟨ds, r, rfl, hds, hr⟩ := exists_digits cs
  rw [takeDigits_append hds hr] at h
  obtain ⟨hne, pre, rfl, hplain, hread⟩ := exists_of_numberFrom? h hr
  obtain ⟨d, ds, rfl⟩ := List.exists_cons_of_ne_nil hne
  have hd : d.isDigit = true := hds d List.mem_cons_self
  refine ⟨sign ++ (d :: ds ++ pre), by simp, ?_, ?_, fun rest' hrest' => ?_⟩
  · rw [List.forall_mem_append, List.forall_mem_append]
    refine ⟨?_, fun c hc => isPlain_of_isDigit (hds c hc), hplain⟩
    rw [hsign]
    split_ifs <;> exact List.all_eq_true.1 (by decide)
  · cases negative
    · exact ⟨d, ds ++ pre, by rw [hsign]; rfl, .inr hd⟩
    · exact ⟨'-', d :: ds ++ pre, by rw [hsign]; rfl, .inl rfl⟩
  · have hdigits : takeDigits (d :: ds ++ (pre ++ rest')) = (d :: ds, pre ++ rest') :=
      takeDigits_append hds (hread rest' hrest').2
    have hfrom := (hread rest' hrest').1
    rw [List.append_assoc, List.append_assoc]
    cases negative
    · rw [hsign]
      show number? (d :: (ds ++ (pre ++ rest'))) = _
      rw [number?_digit hd, ← List.cons_append, hdigits, hfrom]
    · rw [hsign]
      show number? ('-' :: d :: (ds ++ (pre ++ rest'))) = _
      rw [number?_minus hd, ← List.cons_append, hdigits, hfrom]

/-- What is read as a number is a number's text, before anything that cannot continue it. -/
theorem exists_spelling_of_number? {v : Value} (h : number? cs = some (v, rest)) :
    ∃ pre, cs = pre ++ rest ∧ SpellsNumber v pre := by
  revert h
  fun_cases number? cs with
  | case1 =>
    rintro ⟨⟩
    exact ⟨"-Infinity".toList, rfl, List.all_eq_true.1 (by decide), ⟨'-', _, rfl, .inl rfl⟩,
      fun _ _ => rfl⟩
  | case2 cs => exact spellsNumber_of_numberFrom? rfl
  | case3 => exact spellsNumber_of_numberFrom? rfl

end ScriptBundle.Json
