/-!
# Double-precision numbers

A double is a sign and a multiple of a power of two, an infinity, or not a number. A finite
magnitude `mantissa * 2 ^ exponent` is kept in its unique form: the mantissa has 53 bits, or fewer
at the least exponent. `ofRatio` rounds a quotient of natural numbers to the nearest double, ties
to the even mantissa, in exact arithmetic, and `ofDecimal` applies it to a decimal number.
-/

namespace ScriptBundle.Decimal

/-- A double-precision number. -/
inductive Binary64 where
  /-- Not a number. -/
  | nan
  /-- One of the two infinities. -/
  | infinite (negative : Bool)
  /-- The number `mantissa * 2 ^ exponent`, negated if `negative`. -/
  | finite (negative : Bool) (mantissa : Nat) (exponent : Int)
  deriving DecidableEq, Repr, Inhabited

/-- The least exponent of a finite double. -/
def leastExponent : Int := -1074

/-- The greatest exponent of a finite double. -/
def greatestExponent : Int := 971

/-- `num / den` to the nearest natural number, ties to the even one. -/
def roundHalfEven (num den : Nat) : Nat :=
  let q := num / den
  let r := num % den
  if 2 * r < den then q
  else if den < 2 * r then q + 1
  else if q % 2 = 0 then q
  else q + 1

/-- The pair whose quotient is `num / den` divided by `2 ^ e`. -/
def scaleDown (num den : Nat) (e : Int) : Nat × Nat :=
  if 0 ≤ e then (num, den * Nat.pow 2 e.toNat) else (num * Nat.pow 2 (-e).toNat, den)

namespace Binary64

/-- The zero of a given sign. -/
def zero (negative : Bool) : Binary64 := .finite negative 0 leastExponent

/-- The exponent at which the quotient of two positive numbers has a mantissa of 53 bits, or the
least exponent if that is greater. -/
def exponentOf (num den : Nat) : Int :=
  let e : Int := (Nat.log2 num : Int) - (Nat.log2 den : Int) - 53
  let s := scaleDown num den e
  let e := if s.1 / s.2 < Nat.pow 2 53 then e else e + 1
  max e leastExponent

/-- The double nearest to `num / den`, for a positive `den`. -/
def ofRatio (negative : Bool) (num den : Nat) : Binary64 :=
  if num = 0 then zero negative
  else
    let e := exponentOf num den
    let s := scaleDown num den e
    let m := roundHalfEven s.1 s.2
    let (m, e) := if m = Nat.pow 2 53 then (Nat.pow 2 52, e + 1) else (m, e)
    if greatestExponent < e then .infinite negative else .finite negative m e

/-- The number of decimal digits of `n`, one for zero. -/
def digitCount (n : Nat) : Nat := (Nat.toDigits 10 n).length

/-- The double nearest to `digits * 10 ^ exponent`. Numbers far outside the range of doubles are
decided by their decimal exponent alone. -/
def ofDecimal (negative : Bool) (digits : Nat) (exponent : Int) : Binary64 :=
  if digits = 0 then zero negative
  else
    let top : Int := (digitCount digits : Int) + exponent
    if 400 < top then .infinite negative
    else if top < -400 then zero negative
    else if 0 ≤ exponent then ofRatio negative (digits * Nat.pow 10 exponent.toNat) 1
    else ofRatio negative digits (Nat.pow 10 (-exponent).toNat)

/-- The integer that a finite double equals, if its fraction is zero. -/
def toInt? : Binary64 → Option Int
  | .finite negative m e =>
    let magnitude? : Option Nat :=
      if 0 ≤ e then some (m * Nat.pow 2 e.toNat)
      else if m % Nat.pow 2 (-e).toNat = 0 then some (m / Nat.pow 2 (-e).toNat) else none
    magnitude?.map fun n => if negative then -(n : Int) else n
  | _ => none

end Binary64

end ScriptBundle.Decimal
