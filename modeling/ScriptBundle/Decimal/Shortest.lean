import ScriptBundle.Decimal.Binary64
/-!
# The shortest decimal that reads back

For a positive finite double, `shortest` gives the decimal number with the fewest digits that
rounds to it, and of those the one nearest to it. The numbers that round to `m * 2 ^ e` form an
interval whose ends belong to it exactly if `m` is even. On the grid of decimals with a given
number of digits only the two neighbours of the double itself have to be tried.
-/

namespace ScriptBundle.Decimal

/-- The interval of the numbers that round to one double, and the double itself, as numerators
over a common denominator. -/
structure RoundingInterval where
  /-- The lower end. -/
  low : Nat
  /-- The double. -/
  value : Nat
  /-- The upper end. -/
  high : Nat
  /-- The common denominator. -/
  den : Nat
  /-- Whether the ends round to the double as well. -/
  closed : Bool

/-- The interval of `m * 2 ^ e`. Below a power of two the neighbour is half as far away. -/
def RoundingInterval.of (m : Nat) (e : Int) : RoundingInterval :=
  let unit := if 0 ≤ e then Nat.pow 2 e.toNat else 1
  let den := if 0 ≤ e then 1 else Nat.pow 2 (-e).toNat
  let below := if m = Nat.pow 2 52 ∧ leastExponent < e then 1 else 2
  { low := (4 * m - below) * unit, value := 4 * m * unit, high := (4 * m + 2) * unit,
    den := 4 * den, closed := m % 2 = 0 }

/-- Whether `n * 10 ^ g` lies in the interval. -/
def RoundingInterval.contains (r : RoundingInterval) (n : Nat) (g : Int) : Bool :=
  let x := if 0 ≤ g then n * Nat.pow 10 g.toNat * r.den else n * r.den
  let scale := if 0 ≤ g then 1 else Nat.pow 10 (-g).toNat
  if r.closed then r.low * scale ≤ x && x ≤ r.high * scale
  else r.low * scale < x && x < r.high * scale

/-- The number `k` with `10 ^ (k - 1) ≤ value < 10 ^ k`. Every positive double exceeds
`10 ^ (-400)`. -/
def RoundingInterval.magnitude (r : RoundingInterval) : Int :=
  (Binary64.digitCount (r.value * Nat.pow 10 400 / r.den) : Int) - 400

/-- The neighbour of the value on the grid of multiples of `10 ^ g` that lies in the interval; of
two the nearer one, and the even one of two equally near. -/
def RoundingInterval.onGrid? (r : RoundingInterval) (g : Int) : Option Nat :=
  let (num, den) :=
    if 0 ≤ g then (r.value, r.den * Nat.pow 10 g.toNat)
    else (r.value * Nat.pow 10 (-g).toNat, r.den)
  let below := num / den
  let nearest := roundHalfEven num den
  if r.contains nearest g then some nearest
  else if r.contains below g then some below
  else if r.contains (below + 1) g then some (below + 1)
  else none

/-- The first grid, from `n` digits on, on which the interval has a point. -/
def RoundingInterval.search (r : RoundingInterval) (k : Int) : Nat → Nat → Nat × Int
  | _, 0 => (r.value, 0)
  | n, fuel + 1 =>
    let g := k - n
    match r.onGrid? g with
    | some d => (d, g)
    | none => r.search k (n + 1) fuel

/-- The digits of `n` without the zeros at the end. -/
def significantDigits (n : Nat) : List Char :=
  ((Nat.toDigits 10 n).reverse.dropWhile (· == '0')).reverse

/-- The digits `d₁ d₂ …` and the place `p` of the shortest decimal `0.d₁d₂… * 10 ^ p` that reads
back as `m * 2 ^ e`. Seventeen digits always suffice. -/
def shortest (m : Nat) (e : Int) : List Char × Int :=
  let r := RoundingInterval.of m e
  let (n, g) := r.search r.magnitude 1 17
  (significantDigits n, (Binary64.digitCount n : Int) + g)

end ScriptBundle.Decimal
