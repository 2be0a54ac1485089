import Mathlib.Tactic.SplitIfs
import ScriptBundle.Json.Reader
/-!
# Brackets of a text

Outside of its quoted parts, the brackets of a JSON text open and close. `closing?` looks for the
bracket that closes what is open before a text, and `IsObjectText` holds of a text from an opening
brace to the one that closes it, whatever stands between them.
-/

namespace ScriptBundle.Json

/-- Where a character of a text stands. -/
inductive Place where
  /-- Outside of quotes. -/
  | outside
  /-- Between quotes. -/
  | quoted
  /-- Between quotes, after a backslash. -/
  | escaped
  deriving DecidableEq, Repr

/-- Holds of the brackets that open. -/
def isOpening (c : Char) : Bool := c == '[' || c == '\x7b'

/-- Holds of the brackets that close. -/
def isClosing (c : Char) : Bool := c == ']' || c == '\x7d'

/-- What follows the bracket that closes one open before a text, where `depth` more are open inside
it. -/
def closing? : Place → Nat → List Char → Option (List Char)
  | _, _, [] => none
  | .escaped, depth, _ :: cs => closing? .quoted depth cs
  | .quoted, depth, c :: cs =>
    if c = '\\' then closing? .escaped depth cs
    else if c = '"' then closing? .outside depth cs
    else closing? .quoted depth cs
  | .outside, depth, c :: cs =>
    if c = '"' then closing? .quoted depth cs
    else if isOpening c then closing? .outside (depth + 1) cs
    else if isClosing c then
      match depth with
      | 0 => some cs
      | depth + 1 => closing? .outside depth cs
    else closing? .outside depth cs

/-- A text from an opening brace to the one that closes it, with blanks around it. -/
def IsObjectText (cs : List Char) : Prop :=
  ∃ inside after, skipBlanks cs = '\x7b' :: inside ∧ closing? .outside 0 inside = some after ∧
    ∀ c ∈ after, isJsonBlank c = true

variable {place : Place} {depth : Nat} {cs rest : List Char}

theorem closing?_quoted (depth : Nat) (c : Char) (cs : List Char) :
    closing? .quoted depth (c :: cs) =
      if c = '\\' then closing? .escaped depth cs
      else if c = '"' then closing? .outside depth cs
      else closing? .quoted depth cs := rfl

theorem closing?_outside (depth : Nat) (c : Char) (cs : List Char) :
    closing? .outside depth (c :: cs) =
      if c = '"' then closing? .quoted depth cs
      else if isOpening c then closing? .outside (depth + 1) cs
      else if isClosing c then
        match depth with
        | 0 => some cs
        | depth + 1 => closing? .outside depth cs
      else closing? .outside depth cs := by
  cases depth <;> rfl

/-- Nothing is looked at that follows the bracket. -/
theorem exists_of_closing? (h : closing? place depth cs = some rest) :
    ∃ pre, cs = pre ++ rest ∧ ∀ rest', closing? place depth (pre ++ rest') = some rest' := by
  induction cs generalizing place depth with
  | nil => cases place <;> cases h
  | cons c cs ih =>
    have hstep : ∀ place' depth',
        (∀ xs, closing? place depth (c :: xs) = closing? place' depth' xs) →
          ∃ pre, c :: cs = pre ++ rest ∧
            ∀ rest', closing? place depth (pre ++ rest') = some rest' := by
      intro place' depth' heq
      rw [heq] at h
      obtain ⟨pre, rfl, hpre⟩ := ih h
      exact ⟨c :: pre, rfl, fun rest' => (heq _).trans (hpre rest')⟩
    cases place with
    | escaped => exact hstep .quoted depth fun xs => rfl
    | quoted =>
      by_cases hback : c = '\\'
      · exact hstep .escaped depth fun xs => by rw [closing?_quoted, if_pos hback]
      by_cases hquote : c = '"'
      · exact hstep .outside depth fun xs => by rw [closing?_quoted, if_neg hback, if_pos hquote]
      · exact hstep .quoted depth fun xs => by rw [closing?_quoted, if_neg hback, if_neg hquote]
    | outside =>
      by_cases hquote : c = '"'
      · exact hstep .quoted depth fun xs => by rw [closing?_outside, if_pos hquote]
      by_cases hopening : isOpening c
      · exact hstep .outside (depth + 1) fun xs => by
          rw [closing?_outside, if_neg hquote, if_pos hopening]
      by_cases hclosing : isClosing c
      · cases depth with
        | zero =>
          have heq : ∀ xs, closing? .outside 0 (c :: xs) = some xs := fun xs => by
            rw [closing?_outside, if_neg hquote, if_neg hopening, if_pos hclosing]
          rw [heq] at h
          cases h
          exact ⟨[c], rfl, heq⟩
        | succ depth =>
          exact hstep .outside depth fun xs => by
            rw [closing?_outside, if_neg hquote, if_neg hopening, if_pos hclosing]
      · exact hstep .outside depth fun xs => by
          rw [closing?_outside, if_neg hquote, if_neg hopening, if_neg hclosing]

/-- A bracket further out is closed after those inside it. -/
theorem closing?_add (place : Place) (depth e : Nat) (cs : List Char) :
    closing? place (depth + e + 1) cs =
      (closing? place depth cs).bind (closing? .outside e) := by
  induction cs generalizing place depth with
  | nil => cases place <;> rfl
  | cons c cs ih =>
    cases place with
    | escaped => exact ih .quoted depth
    | quoted =>
      rw [closing?_quoted, closing?_quoted]
      split_ifs
      · exact ih .escaped depth
      · exact ih .outside depth
      · exact ih .quoted depth
    | outside =>
      have hdeeper : depth + e + 1 + 1 = depth + 1 + e + 1 := by omega
      rw [closing?_outside, closing?_outside]
      split_ifs
      · exact ih .quoted depth
      · rw [hdeeper]
        exact ih .outside (depth + 1)
      · cases depth with
        | zero => rw [Nat.zero_add, Option.bind_some]
        | succ depth =>
          have h : depth + 1 + e = depth + e + 1 := by omega
          simp only [h]
          exact ih .outside depth
      · exact ih .outside depth

/-- A text whose brackets are all closed in it, and outside of which none is. -/
def Balanced (cs : List Char) : Prop :=
  ∀ depth rest, closing? .outside depth (cs ++ rest) = closing? .outside depth rest

/-- A text at whose end a bracket is closed that was open before it. -/
def Closes (cs : List Char) : Prop := ∀ rest, closing? .outside 0 (cs ++ rest) = some rest

/-- A text at whose end the quote is closed that was open before it. -/
def ClosesQuote (cs : List Char) : Prop :=
  ∀ depth rest, closing? .quoted depth (cs ++ rest) = closing? .outside depth rest

theorem Balanced.append {ds : List Char} (hc : Balanced cs) (hd : Balanced ds) :
    Balanced (cs ++ ds) := fun depth rest => by
  rw [List.append_assoc, hc, hd]

theorem Balanced.append_closes {ds : List Char} (hc : Balanced cs) (hd : Closes ds) :
    Closes (cs ++ ds) := fun rest => by
  rw [List.append_assoc, hc, hd]

/-- A bracket is closed in one place only. -/
theorem Closes.unique {ds : List Char} (hc : Closes cs) (hd : Closes ds) {rest rest' : List Char}
    (h : cs ++ rest = ds ++ rest') : cs = ds ∧ rest = rest' := by
  have hsome : some rest = some rest' := by rw [← hc rest, h, hd rest']
  obtain rfl := Option.some.inj hsome
  exact ⟨List.append_cancel_right h, rfl⟩

theorem closes_cons {c : Char} (hc : isClosing c = true) : Closes [c] := fun rest => by
  rw [isClosing, Bool.or_eq_true, beq_iff_eq, beq_iff_eq] at hc
  rcases hc with rfl | rfl <;> rfl

/-- Between an opening bracket and the one that closes it there may be anything. -/
theorem Closes.balanced {c : Char} (hc : isOpening c = true) (h : Closes cs) :
    Balanced (c :: cs) := fun depth rest => by
  have hclosed := closing?_add .outside 0 depth (cs ++ rest)
  rw [h rest, Option.bind_some, Nat.zero_add] at hclosed
  rw [← hclosed]
  rw [isOpening, Bool.or_eq_true, beq_iff_eq, beq_iff_eq] at hc
  rcases hc with rfl | rfl <;> rfl

theorem ClosesQuote.balanced (h : ClosesQuote cs) : Balanced ('"' :: cs) := h

/-- Holds of the characters that open and close nothing. -/
def isPlain (c : Char) : Bool := !(c == '"' || isOpening c || isClosing c)

theorem balanced_of_plain (h : ∀ c ∈ cs, isPlain c = true) : Balanced cs := by
  intro depth rest
  induction cs with
  | nil => rfl
  | cons c cs ih =>
    obtain ⟨hc, hcs⟩ := List.forall_mem_cons.1 h
    simp only [isPlain, Bool.not_eq_true', Bool.or_eq_false_iff, beq_eq_false_iff_ne] at hc
    rw [List.cons_append, closing?_outside, if_neg hc.1.1, if_neg (by simp [hc.1.2]),
      if_neg (by simp [hc.2]), ih hcs]

theorem isPlain_of_blank {c : Char} (h : isJsonBlank c = true) : isPlain c = true := by
  simp only [isJsonBlank, Bool.or_eq_true, beq_iff_eq] at h
  rcases h with ((rfl | rfl) | rfl) | rfl <;> rfl

theorem balanced_of_blank (h : ∀ c ∈ cs, isJsonBlank c = true) : Balanced cs :=
  balanced_of_plain fun c hc => isPlain_of_blank (h c hc)

/-- A character between quotes that is neither a quote nor a backslash. -/
theorem ClosesQuote.cons {c : Char} (h : ClosesQuote cs) (hquote : c ≠ '"') (hback : c ≠ '\\') :
    ClosesQuote (c :: cs) := fun depth rest => by
  rw [List.cons_append, closing?_quoted, if_neg hback, if_neg hquote, h]

/-- A backslash between quotes, with the character after it. -/
theorem ClosesQuote.escape (h : ClosesQuote cs) (c : Char) : ClosesQuote ('\\' :: c :: cs) :=
  fun depth rest => by
    show closing? .quoted depth (cs ++ rest) = _
    exact h depth rest

theorem ClosesQuote.append {ds : List Char} (h : ClosesQuote cs)
    (hds : ∀ c ∈ ds, c ≠ '"' ∧ c ≠ '\\') : ClosesQuote (ds ++ cs) := by
  induction ds with
  | nil => exact h
  | cons d ds ih =>
    obtain ⟨hd, hds⟩ := List.forall_mem_cons.1 hds
    exact (ih hds).cons hd.1 hd.2

end ScriptBundle.Json
