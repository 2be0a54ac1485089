import ScriptBundle.Json.Number
import ScriptBundle.Toml.Text
/-!
# TOML numbers, dates and times

Integers are decimal, hexadecimal, octal or binary, doubles have a fraction or an exponent, and
single underscores may stand between digits. A date has the days of its month; date and time may be
joined and followed by an offset.
-/

namespace ScriptBundle.Toml

open Decimal

/-- Why a document cannot be read. -/
inductive ReadError where
  /-- It is not TOML. -/
  | invalid
  /-- An integer has this many digits, which is more than are read. -/
  | tooManyDigits (n : Nat)
  deriving DecidableEq, Repr

/-- The most decimal digits that an integer may have. -/
def digitLimit : Nat := 4300

/-- The digits at the start of a text, between which single underscores may stand. -/
def groupedDigits (isDigit : Char → Bool) : List Char → List Char × List Char
  | '_' :: d :: cs =>
    if isDigit d then
      let (ds, rest) := groupedDigits isDigit cs
      (d :: ds, rest)
    else ([], '_' :: d :: cs)
  | c :: cs =>
    if isDigit c then
      let (ds, rest) := groupedDigits isDigit cs
      (c :: ds, rest)
    else ([], c :: cs)
  | [] => ([], [])

/-- Digits that start with a digit. -/
def digits? (isDigit : Char → Bool) (cs : List Char) : Option (List Char × List Char) :=
  match cs with
  | c :: _ => if isDigit c then some (groupedDigits isDigit cs) else none
  | [] => none

/-- The digits of a base. -/
def isDigitOf (base : Nat) (c : Char) : Bool :=
  match Json.hexValue? c with
  | some n => n < base
  | none => false

/-- The value of digits in a base. -/
def valueIn (base : Nat) (ds : List Char) : Nat :=
  ds.foldl (fun n d => base * n + (Json.hexValue? d).getD 0) 0

/-- The base that a letter after a zero stands for. -/
def baseOf? : Char → Option Nat
  | 'x' => some 16
  | 'o' => some 8
  | 'b' => some 2
  | _ => none

/-- An integer with a mark for its base. -/
def basedInt? : List Char → Option (Value × List Char)
  | '0' :: m :: cs => do
    let base ← baseOf? m
    let (ds, rest) ← digits? (isDigitOf base) cs
    some (.int (valueIn base ds), rest)
  | _ => none

/-- A fraction: its digits, and what follows. Without one there are no digits. -/
def fraction (cs : List Char) : List Char × List Char :=
  match cs with
  | '.' :: r => (digits? Char.isDigit r).getD ([], cs)
  | _ => ([], cs)

/-- A sign, if there is one: whether it is a minus, and what follows. -/
def sign : List Char → Bool × List Char
  | '-' :: cs => (true, cs)
  | '+' :: cs => (false, cs)
  | cs => (false, cs)

/-- An exponent, if there is one, and what follows. -/
def exponent (cs : List Char) : Option Int × List Char :=
  match cs with
  | c :: r =>
    if c = 'e' ∨ c = 'E' then
      let (negative, r) := sign r
      match digits? Char.isDigit r with
      | some (ds, rest) =>
        let n : Int := Json.digitsValue ds
        (some (if negative then -n else n), rest)
      | none => (none, cs)
    else (none, cs)
  | [] => (none, [])

/-- A decimal integer or a double. -/
def decimal? (cs : List Char) : Option (Except ReadError (Value × List Char)) :=
  let (negative, r) := sign cs
  let whole? : Option (List Char × List Char) := match r with
    | '0' :: rest => some (['0'], rest)
    | r => digits? Char.isDigit r
  whole?.map fun (ds, rest) =>
    let (fs, rest₁) := fraction rest
    let (e, rest₂) := exponent rest₁
    if fs.isEmpty && e.isNone then
      if digitLimit < ds.length then .error (.tooManyDigits ds.length)
      else
        let n : Int := Json.digitsValue ds
        .ok (.int (if negative then -n else n), rest₂)
    else
      .ok (.double (Binary64.ofDecimal negative (Json.digitsValue (ds ++ fs))
        (e.getD 0 - fs.length)), rest₂)

/-- Infinity and not-a-number, with an optional sign. -/
def special? (cs : List Char) : Option (Value × List Char) :=
  let (negative, r) := sign cs
  match r with
  | 'i' :: 'n' :: 'f' :: rest => some (.double (.infinite negative), rest)
  | 'n' :: 'a' :: 'n' :: rest => some (.double .nan, rest)
  | _ => none

/-! ## Dates and times -/

/-- The number written in two digits, if it lies between two bounds. -/
def two? (lo hi : Nat) : List Char → Option (Nat × List Char)
  | a :: b :: cs =>
    if a.isDigit && b.isDigit then
      let n := Json.digitsValue [a, b]
      if lo ≤ n ∧ n ≤ hi then some (n, cs) else none
    else none
  | _ => none

/-- The text after a given character. -/
def after? (c : Char) : List Char → Option (List Char)
  | d :: cs => if d = c then some cs else none
  | [] => none

/-- Whether a year has a leap day. -/
def isLeap (y : Nat) : Bool := y % 4 = 0 && (y % 100 ≠ 0 || y % 400 = 0)

/-- The number of days of a month. -/
def daysIn (y m : Nat) : Nat :=
  if m = 2 then (if isLeap y then 29 else 28)
  else if m = 4 ∨ m = 6 ∨ m = 9 ∨ m = 11 then 30
  else 31

/-- `n` in at least `width` digits. -/
def padded (width n : Nat) : String :=
  let ds := Nat.toDigits 10 n
  String.ofList (List.replicate (width - ds.length) '0' ++ ds)

/-- The text of the fraction of a second with these digits: six digits, or none if all are zero. -/
def microsText (ds : List Char) : String :=
  let six := (ds ++ List.replicate 6 '0').take 6
  if six.all (· == '0') then "" else "." ++ String.ofList six

/-- A time of day: its text and what follows. -/
def time? (cs : List Char) : Option (String × List Char) := do
  let (h, cs) ← two? 0 23 cs
  let (m, cs) ← two? 0 59 (← after? ':' cs)
  let (s, cs) ← two? 0 59 (← after? ':' cs)
  let (fs, cs) := match cs with
    | '.' :: r =>
      let ds := r.takeWhile Char.isDigit
      if ds.isEmpty then ([], cs) else (ds, r.dropWhile Char.isDigit)
    | _ => ([], cs)
  some (padded 2 h ++ ":" ++ padded 2 m ++ ":" ++ padded 2 s ++ microsText fs, cs)

/-- The offset of a time: its text, and what follows. -/
def offset (cs : List Char) : String × List Char :=
  let signed? (negative : Bool) (r : List Char) : Option (String × List Char) := do
    let (h, r) ← two? 0 23 r
    let (m, r) ← two? 0 59 (← after? ':' r)
    let mark := if negative && !(h = 0 && m = 0) then "-" else "+"
    some (mark ++ padded 2 h ++ ":" ++ padded 2 m, r)
  match cs with
  | 'Z' :: r => ("+00:00", r)
  | 'z' :: r => ("+00:00", r)
  | '+' :: r => (signed? false r).getD ("", cs)
  | '-' :: r => (signed? true r).getD ("", cs)
  | _ => ("", cs)

/-- The parts of a date: year, month and day. -/
def dateParts? (cs : List Char) : Option ((Nat × Nat × Nat) × List Char) := do
  let (c, cs) ← two? 0 99 cs
  let (y, cs) ← two? 0 99 cs
  let (m, cs) ← two? 1 12 (← after? '-' cs)
  let (d, cs) ← two? 1 31 (← after? '-' cs)
  some ((100 * c + y, m, d), cs)

/-- A date, with a time if one follows. -/
def date? (cs : List Char) : Option (Except ReadError (Value × List Char)) :=
  (dateParts? cs).map fun ((y, m, d), rest) =>
    if y = 0 ∨ daysIn y m < d then .error .invalid
    else
      let day := padded 4 y ++ "-" ++ padded 2 m ++ "-" ++ padded 2 d
      let joined := match rest with
        | c :: r => if c = 'T' ∨ c = 't' ∨ c = ' ' then time? r else none
        | [] => none
      match joined with
      | some (time, rest) =>
        let (off, rest) := offset rest
        .ok (.moment (day ++ " " ++ time ++ off), rest)
      | none => .ok (.moment day, rest)

/-- The longest date, time or number at the start of a text. -/
def plain (cs : List Char) : Except ReadError (Value × List Char) :=
  match date? cs with
  | some r => r
  | none =>
    match time? cs with
    | some (text, rest) => .ok (.moment text, rest)
    | none =>
      match basedInt? cs with
      | some r => .ok r
      | none =>
        match decimal? cs with
        | some r => r
        | none =>
          match special? cs with
          | some r => .ok r
          | none => .error .invalid

end ScriptBundle.Toml
