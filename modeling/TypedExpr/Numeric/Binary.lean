import TypedExpr.Numeric.IntType

/-!
# Binary floating point, exactly

A floating-point number is taken apart into sign, significand and exponent, and put together
again from an exact ratio, rounded to nearest with ties to even.  What cannot be left to the
arithmetic of the machine is computed in between on integers.

* `Binary.Format` — the two interchange formats, `single` and `double`.
* `Binary.decode` — the exact parts of a bit pattern.
* `Binary.encode` — the bit pattern nearest to a ratio of natural numbers.
* `Binary.convert` — the bit pattern of a number in another format.
* `Binary.truncate` — the integer part, limited to 128 bits.
* `Binary.remainder` — the exact remainder of a truncated division.
-/

namespace TypedExpr.Binary

/-- An interchange format: the stored bits of the significand, and those of the exponent. -/
structure Format where
  fraction : Nat
  exponent : Nat

/-- Numbers of 32 bits. -/
def single : Format := ⟨23, 8⟩

/-- Numbers of 64 bits. -/
def double : Format := ⟨52, 11⟩

/-- The exponent of the last place of the least numbers. -/
def Format.least (f : Format) : Int :=
  2 - (Nat.pow 2 (f.exponent - 1) : Nat) - f.fraction

/-- The exponent field of infinities and of what is not a number. -/
def Format.special (f : Format) : Nat :=
  Nat.pow 2 f.exponent - 1

/-- The bit pattern of the positive infinity. -/
def Format.infinity (f : Format) : Nat :=
  f.special * Nat.pow 2 f.fraction

/-- The sign bit, as it stands in a bit pattern. -/
def Format.sign (f : Format) (negative : Bool) : Nat :=
  if negative then Nat.pow 2 (f.fraction + f.exponent) else 0

/-- The bit pattern of what is not a number. -/
def Format.nan (f : Format) : Nat :=
  f.infinity + Nat.pow 2 (f.fraction - 1)

/-- The parts of a bit pattern; a finite number is `significand * 2 ^ exponent`. -/
inductive Parts
  | nan
  | infinite (negative : Bool)
  | finite (negative : Bool) (significand : Nat) (exponent : Int)
deriving Repr

/-- The parts of a bit pattern. -/
def decode (f : Format) (bits : Nat) : Parts :=
  let fraction := bits % Nat.pow 2 f.fraction
  let field := bits / Nat.pow 2 f.fraction % Nat.pow 2 f.exponent
  let negative := bits / Nat.pow 2 (f.fraction + f.exponent) % 2 == 1
  if field = f.special then
    if fraction = 0 then .infinite negative else .nan
  else if field = 0 then .finite negative fraction f.least
  else .finite negative (Nat.pow 2 f.fraction + fraction) (f.least + field - 1)

/-- The integer nearest to a ratio; of two, the even one. -/
def roundDiv (num den : Nat) : Nat :=
  let q := num / den
  let r := num % den
  if 2 * r > den || (2 * r == den && q % 2 == 1) then q + 1 else q

/-- The ratio `num / den` times a power of two, as a ratio again. -/
def scale (num den : Nat) (exponent : Int) : Nat × Nat :=
  (num * Nat.pow 2 exponent.toNat, den * Nat.pow 2 (-exponent).toNat)

/-- The greatest `e` with `2 ^ e ≤ num / den`, for a positive ratio. -/
def floorLog (num den : Nat) : Int :=
  let e : Int := (num.log2 : Int) - den.log2
  let (n, d) := scale num den (-e)
  if n < d then e - 1 else e

/-- The bit pattern nearest to the ratio `num / den`.  The exponent field and the significand are
added, so that a significand that rounds up to the next power of two carries into the field. -/
def encode (f : Format) (negative : Bool) (num den : Nat) : Nat :=
  if num = 0 then f.sign negative
  else
    let unit := max f.least (floorLog num den - f.fraction)
    let (n, d) := scale num den (-unit)
    let magnitude := (unit - f.least).toNat * Nat.pow 2 f.fraction + roundDiv n d
    f.sign negative + min magnitude f.infinity

/-- The bit pattern of a number in another format: the nearest one, if it has no place there. -/
def convert (source target : Format) (bits : Nat) : Nat :=
  match decode source bits with
  | .nan => target.nan
  | .infinite negative => target.sign negative + target.infinity
  | .finite negative m e =>
    let (num, den) := scale m 1 e
    encode target negative num den

/-- The single nearest to a double. -/
def toSingle (x : Float) : Float32 :=
  Float32.ofBits (UInt32.ofNat (convert double single x.toBits.toNat))

/-- The double that is a single. -/
def toDouble (x : Float32) : Float :=
  Float.ofBits (UInt64.ofNat (convert single double x.toBits.toNat))

/-- The double nearest to a ratio. -/
def doubleOfRatio (negative : Bool) (num den : Nat) : Float :=
  Float.ofBits (UInt64.ofNat (encode double negative num den))

/-- The double nearest to an integer. -/
def doubleOfInt (n : Int) : Float :=
  doubleOfRatio (n < 0) n.natAbs 1

/-- The parts of a double. -/
def doubleParts (x : Float) : Parts :=
  decode double x.toBits.toNat

/-- The parts of a single. -/
def singleParts (x : Float32) : Parts :=
  decode single x.toBits.toNat

/-- An integer limited to the range of 128 bits. -/
def clamp128 (n : Int) : Int :=
  let bound : Int := (Nat.pow 2 127 : Nat)
  max (-bound) (min n (bound - 1))

/-- The integer part, rounded toward zero and limited to 128 bits; zero for what is not a
number. -/
def truncate (x : Float) : Int :=
  let signed (negative : Bool) (n : Nat) : Int := if negative then -(n : Int) else n
  match doubleParts x with
  | .nan => 0
  | .infinite negative => clamp128 (signed negative (Nat.pow 2 128))
  | .finite negative m e =>
    let (n, d) := scale m 1 e
    clamp128 (signed negative (n / d))

/-- The remainder of the division of `x` by `y` with a truncated quotient.  It is exact and has
the sign of `x`. -/
def remainder (x y : Float) : Float :=
  match doubleParts x, doubleParts y with
  | .finite negative m e, .finite _ n k =>
    if n = 0 then 0.0 / 0.0
    else
      let unit := min e k
      let r := (m * Nat.pow 2 (e - unit).toNat) % (n * Nat.pow 2 (k - unit).toNat)
      let (num, den) := scale r 1 unit
      doubleOfRatio negative num den
  | .finite .., .infinite _ => x
  | _, _ => 0.0 / 0.0

/-- The remainder of singles; the doubles in between hold it exactly. -/
def singleRemainder (x y : Float32) : Float32 :=
  toSingle (remainder (toDouble x) (toDouble y))

end TypedExpr.Binary
