import ScriptBundle.Validation.Issue
import ScriptBundle.Value.Basic
import ScriptBundle.Text.Blank
/-!
# Reading typed values

The lax readings accept any value that clearly stands for one of the wanted type: `"yes"` for a
truth value, `"1_000"` or `2.0` for an integer. The strict readings accept the type itself only.
-/

namespace ScriptBundle.Validation

open Decimal

/-- A text. -/
def string : Value → Checked String
  | .string s => .ok s
  | _ => .fail .stringType

/-- A text or null. -/
def optionalString : Value → Checked (Option String)
  | .null => .ok none
  | v => (string v).map some

/-- A truth value and nothing else. -/
def strictBool : Value → Checked Bool
  | .bool b => .ok b
  | _ => .fail .boolType

/-- The least positive integer that does not fit into 64 bits with a sign. -/
def wordBound : Int := Int.pow 2 63

/-- Whether an integer fits into 64 bits with a sign. -/
def fitsWord (i : Int) : Bool := -wordBound ≤ i && i < wordBound

/-- The truth value that a word stands for. -/
def boolOfWord? (s : String) : Option Bool :=
  let w := Text.asciiLower s
  if ["0", "off", "f", "false", "n", "no"].contains w then some false
  else if ["1", "on", "t", "true", "y", "yes"].contains w then some true
  else none

/-- A truth value, or what stands for one. -/
def laxBool : Value → Checked Bool
  | .bool b => .ok b
  | .int i =>
    if i = 0 then .ok false
    else if i = 1 then .ok true
    else .fail (if fitsWord i then .boolParsing else .boolType)
  | .double d =>
    match d.toInt? with
    | some i =>
      if i = 0 then .ok false
      else if i = 1 then .ok true
      else .fail (if -wordBound < i && i < wordBound then .boolParsing else .boolType)
    | none => .fail .boolType
  | .string s =>
    match boolOfWord? s with
    | some b => .ok b
    | none => .fail .boolParsing
  | _ => .fail .boolType

/-- The characters trimmed from a number in a text: the white space of Unicode. -/
def isWhiteSpace (c : Char) : Bool :=
  Text.isBlank c && !(28 ≤ c.toNat && c.toNat ≤ 31)

/-- The value of digits between which single underscores may stand. -/
def underscoredDigits? (cs : List Char) : Option Nat :=
  let rec go (n : Nat) (afterDigit : Bool) : List Char → Option Nat
    | [] => if afterDigit then some n else none
    | c :: cs =>
      if c.isDigit then go (10 * n + (c.toNat - 48)) true cs
      else if c = '_' ∧ afterDigit then go n false cs
      else none
  go 0 false cs

/-- A text without a fraction of zeros at its end. -/
def dropZeroFraction (cs : List Char) : List Char :=
  match cs.span (· != '.') with
  | (whole, '.' :: zeros) => if !zeros.isEmpty && zeros.all (· == '0') then whole else cs
  | _ => cs

/-- The most characters that the decimal text of an integer may have. -/
def integerTextLimit : Nat := 4300

/-- The integer that a text stands for. -/
def intOfText (s : String) : Checked Int :=
  let cs := Text.strip isWhiteSpace s.toList
  let (negative, ds) := match cs with
    | '-' :: ds => (true, ds)
    | '+' :: ds => (false, ds)
    | ds => (false, ds)
  match underscoredDigits? (dropZeroFraction ds) with
  | none => .fail .intParsing
  | some n =>
    if integerTextLimit < Binary64.digitCount n + (if negative then 1 else 0) then
      .fail .intParsingSize
    else .ok (if negative then -(n : Int) else n)

/-- An integer, or what stands for one. -/
def laxInt : Value → Checked Int
  | .bool b => .ok (if b then 1 else 0)
  | .int i => .ok i
  | .double (.finite s m e) =>
    match (Binary64.finite s m e).toInt? with
    | none => .fail .intFromFloat
    | some i => if -wordBound < i && i < wordBound then .ok i else .fail .intParsingSize
  | .double _ => .fail .finiteNumber
  | .string s => intOfText s
  | _ => .fail .intType

/-- A required member of an object. -/
def required {α : Type} (name : String) (read : Value → Checked α)
    (members : List (String × Value)) : Checked α :=
  Checked.under (.field name) <|
    match members.lookup name with
    | some v => read v
    | none => .fail .missing

/-- A member of an object that has a default. -/
def withDefault {α : Type} (name : String) (default : α) (read : Value → Checked α)
    (members : List (String × Value)) : Checked α :=
  Checked.under (.field name) <|
    match members.lookup name with
    | some v => read v
    | none => .ok default

end ScriptBundle.Validation
