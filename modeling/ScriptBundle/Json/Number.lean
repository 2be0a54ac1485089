import ScriptBundle.Value.Basic
/-!
# JSON numbers

A number is an optional minus sign, an integer part without superfluous zeros, and optionally a
fraction and an exponent. Without fraction and exponent it is an integer, else the nearest double.
`NaN`, `Infinity` and `-Infinity` are read as doubles. Integer parts longer than a limit, the sign
included, are refused.
-/

namespace ScriptBundle.Json

open Decimal

/-- The longest integer part of a number that is read, counted in characters with the sign. -/
def integerPartLimit : Nat := 4300

/-- The value of a run of decimal digits. -/
def digitsValue (ds : List Char) : Nat :=
  ds.foldl (fun n d => 10 * n + (d.toNat - 48)) 0

/-- The digits at the start of a text, and the rest. -/
def takeDigits (cs : List Char) : List Char × List Char :=
  (cs.takeWhile Char.isDigit, cs.dropWhile Char.isDigit)

/-- The digits of a fraction, and the rest: nothing if there is no point, failure if no digit
follows the point. -/
def fraction? : List Char → Option (List Char × List Char)
  | '.' :: cs =>
    let (ds, rest) := takeDigits cs
    if ds.isEmpty then none else some (ds, rest)
  | cs => some ([], cs)

/-- The value of an exponent, and the rest: nothing if there is no exponent letter, failure if no
digit follows it. -/
def exponent? : List Char → Option (Option Int × List Char)
  | c :: cs =>
    if c = 'e' ∨ c = 'E' then
      let (negative, cs) := match cs with
        | '-' :: r => (true, r)
        | '+' :: r => (false, r)
        | r => (false, r)
      let (ds, rest) := takeDigits cs
      if ds.isEmpty then none
      else some (some (if negative then -(digitsValue ds : Int) else digitsValue ds), rest)
    else some (none, c :: cs)
  | [] => some (none, [])

/-- The number that starts with the digits `ds` and goes on with `rest`. -/
def numberFrom? (negative : Bool) (ds rest : List Char) : Option (Value × List Char) := do
  let tooLong := integerPartLimit < ds.length + (if negative then 1 else 0)
  if ds.isEmpty || (ds.head? == some '0' && 1 < ds.length) || tooLong then none
  let (fs, rest₁) ← fraction? rest
  let (e, rest₂) ← exponent? rest₁
  if fs.isEmpty && e.isNone then
    let n := digitsValue ds
    some (.int (if negative then -(n : Int) else n), rest₂)
  else
    let scale := e.getD 0 - fs.length
    some (.double (Binary64.ofDecimal negative (digitsValue (ds ++ fs)) scale), rest₂)

/-- The number at the start of a text. -/
def number? : List Char → Option (Value × List Char)
  | '-' :: 'I' :: 'n' :: 'f' :: 'i' :: 'n' :: 'i' :: 't' :: 'y' :: rest =>
    some (.double (.infinite true), rest)
  | '-' :: cs => numberFrom? true (takeDigits cs).1 (takeDigits cs).2
  | cs => numberFrom? false (takeDigits cs).1 (takeDigits cs).2

end ScriptBundle.Json
