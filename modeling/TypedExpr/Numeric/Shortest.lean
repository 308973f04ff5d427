import TypedExpr.Numeric.Binary

/-!
# The fewest digits that read back

The shortest decimal that lies in the interval of reals rounding to a given binary number, and
among the shortest the one nearest to it.  All comparisons are exact, on natural numbers.

For 1, 2, 3, … digits the two neighbours of the number on the decimal grid are tested.  The first
grid with a neighbour inside the interval wins; of two neighbours inside, the nearer is taken,
and the greater one if they are equally near.
-/

namespace TypedExpr.Binary

/-- A positive decimal: `digits * 10 ^ exponent`. -/
structure Decimal where
  digits : Nat
  exponent : Int
deriving DecidableEq, Repr

/-- The number of decimal digits; zero has none. -/
def digitCount (n : Nat) : Nat :=
  if n = 0 then 0 else (Nat.toDigits 10 n).length

/-- The least `k` with `num / den < 10 ^ k`, for a positive ratio. -/
def ceilLog10 (num den : Nat) : Int :=
  if num ≥ den then digitCount (num / den)
  else 1 - (digitCount ((den + num - 1) / num - 1) : Int)

/-- An interval around `mid` with a common denominator; `closed` says whether its ends belong to
it. -/
structure Interval where
  low : Nat
  mid : Nat
  high : Nat
  den : Nat
  closed : Bool

/-- Whether the interval holds the ratio `num / den`. -/
def Interval.holds (i : Interval) (num den : Nat) : Bool :=
  if i.closed then i.low * den ≤ num * i.den && num * i.den ≤ i.high * den
  else i.low * den < num * i.den && num * i.den < i.high * den

/-- A power of ten as a ratio. -/
def tenPower (e : Int) : Nat × Nat :=
  (Nat.pow 10 e.toNat, Nat.pow 10 (-e).toNat)

/-- The better neighbour of the middle on the grid of multiples of `10 ^ e`, if one lies in the
interval. -/
def Interval.onGrid? (i : Interval) (e : Int) : Option Decimal :=
  let (n, d) := tenPower e
  let below := i.mid * d / (i.den * n)
  let inside (k : Nat) : Bool := i.holds (k * n) d
  let nearerAbove : Bool := 2 * i.mid * d ≥ (2 * below + 1) * n * i.den
  match below != 0 && inside below, inside (below + 1) with
  | true, true => some ⟨if nearerAbove then below + 1 else below, e⟩
  | true, false => some ⟨below, e⟩
  | false, true => some ⟨below + 1, e⟩
  | false, false => none

/-- The first grid, from coarse to fine, that meets the interval. -/
def Interval.search (i : Interval) (top : Int) : Nat → Decimal
  | 0 => ⟨0, 0⟩
  | fuel + 1 =>
    match i.onGrid? (top - 1) with
    | some d => d
    | none => i.search (top - 1) fuel

/-- The reals that round to `m * 2 ^ e`.  Below a power of two the numbers lie twice as close. -/
def rounding (f : Format) (m : Nat) (e : Int) : Interval :=
  let (num, den) := scale 1 4 e
  let below := if m = Nat.pow 2 f.fraction && e > f.least then 1 else 2
  ⟨(4 * m - below) * num, 4 * m * num, (4 * m + 2) * num, den, m % 2 == 0⟩

/-- The shortest decimal that reads back as `m * 2 ^ e`, for a positive significand.  Twenty
digits are more than any number of the two formats needs. -/
def shortest (f : Format) (m : Nat) (e : Int) : Decimal :=
  let i := rounding f m e
  i.search (ceilLog10 i.mid i.den) 20

end TypedExpr.Binary
