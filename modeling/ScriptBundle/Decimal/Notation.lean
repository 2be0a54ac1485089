import ScriptBundle.Decimal.Shortest
/-!
# Decimal notation of doubles

A double is written with the fewest digits that read back. Magnitudes from `0.0001` up to, but not
including, `10 ^ 16` are written positionally and always with a point; others have an exponent
with a sign and at least two digits.
-/

namespace ScriptBundle.Decimal

/-- The decimal text of an integer. -/
def intText (i : Int) : String :=
  if i < 0 then "-" ++ String.ofList (Nat.toDigits 10 i.natAbs)
  else String.ofList (Nat.toDigits 10 i.natAbs)

/-- The positional text of `0.ds * 10 ^ place`. -/
def positional (ds : List Char) (place : Int) : List Char :=
  if place ≤ 0 then '0' :: '.' :: List.replicate (-place).toNat '0' ++ ds
  else
    let p := place.toNat
    if ds.length ≤ p then ds ++ List.replicate (p - ds.length) '0' ++ ['.', '0']
    else ds.take p ++ '.' :: ds.drop p

/-- The text of `0.ds * 10 ^ place` with an exponent. -/
def scientific (ds : List Char) (place : Int) : List Char :=
  let e := place - 1
  let digits := Nat.toDigits 10 e.natAbs
  let digits := if digits.length < 2 then '0' :: digits else digits
  let mantissa := match ds with
    | [] => ['0']
    | [d] => [d]
    | d :: rest => d :: '.' :: rest
  mantissa ++ 'e' :: (if e < 0 then '-' else '+') :: digits

/-- The text of a double. -/
def Binary64.text : Binary64 → String
  | .nan => "nan"
  | .infinite negative => if negative then "-inf" else "inf"
  | .finite negative m e =>
    let body :=
      if m = 0 then ['0', '.', '0']
      else
        let (ds, place) := shortest m e
        if -4 < place ∧ place ≤ 16 then positional ds place else scientific ds place
    String.ofList (if negative then '-' :: body else body)

end ScriptBundle.Decimal
