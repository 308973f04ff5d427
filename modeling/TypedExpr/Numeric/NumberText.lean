import TypedExpr.Numeric.Shortest

/-!
# Numbers as text

* `intText`, `readInt?` — decimal integers with an optional sign.
* `doubleText`, `singleText` — the fewest digits that read back, always written positionally.
* `readDouble?` — the grammar of a real number, and the double nearest to it.
-/

namespace TypedExpr

/-! ## Integers -/

/-- The value of a decimal digit. -/
def digitValue (c : Char) : Nat := c.toNat - '0'.toNat

/-- The number that a run of digits denotes in a base, where `value` gives the value of a digit. -/
def numberIn (base : Nat) (value : Char → Nat) (cs : List Char) : Nat :=
  cs.foldl (fun n c => base * n + value c) 0

/-- The natural number that a run of decimal digits denotes. -/
def natOfDigits (cs : List Char) : Nat := numberIn 10 digitValue cs

/-- The number that a run of digits denotes in a base, if it is less than a bound.  The digits
behind one that reaches the bound are not looked at. -/
def numberBelow? (base : Nat) (value : Char → Nat) (bound : Nat) (cs : List Char) : Option Nat :=
  cs.foldlM (fun n c =>
    let n := base * n + value c
    if n < bound then some n else none) 0

theorem le_foldl_digits {base : Nat} (value : Char → Nat) (cs : List Char) (start : Nat)
    (hbase : 0 < base) : start ≤ cs.foldl (fun n c => base * n + value c) start := by
  induction cs generalizing start with
  | nil => exact Nat.le_refl _
  | cons c cs ih =>
    have hstep : start ≤ base * start + value c :=
      Nat.le_add_right_of_le (Nat.le_mul_of_pos_left start hbase)
    exact Nat.le_trans hstep (ih _)

theorem foldlM_digits_eq {base bound start : Nat} (value : Char → Nat) (cs : List Char)
    (hbase : 0 < base) (h : start < bound) :
    cs.foldlM (fun n c =>
        let n := base * n + value c
        if n < bound then some n else none) start =
      let n := cs.foldl (fun n c => base * n + value c) start
      if n < bound then some n else none := by
  induction cs generalizing start with
  | nil => simp [h]
  | cons c cs ih =>
    rw [List.foldlM_cons, List.foldl_cons]
    by_cases hc : base * start + value c < bound
    · simp only [hc, ↓reduceIte, Option.bind_eq_bind, Option.bind_some]
      exact ih hc
    · have hle := le_foldl_digits value cs (base * start + value c) hbase
      simp only [hc, ↓reduceIte, Option.bind_eq_bind, Option.bind_none]
      rw [if_neg (by omega)]

/-- **A bounded number is the number, if that is less than the bound.** -/
theorem numberBelow?_eq {base bound : Nat} (value : Char → Nat) (cs : List Char)
    (hbase : 0 < base) (h : 0 < bound) :
    numberBelow? base value bound cs =
      if numberIn base value cs < bound then some (numberIn base value cs) else none :=
  foldlM_digits_eq value cs hbase h

/-- The number that a run of decimal digits denotes, if it fits into 64 bits; no word is longer. -/
def wordOfDigits? (cs : List Char) : Option Nat := numberBelow? 10 digitValue 0x10000000000000000 cs

/-- A nonempty run of decimal digits. -/
def isDigitRun (cs : List Char) : Bool :=
  !cs.isEmpty && cs.all Char.isDigit

/-- A sign, if the text starts with one, and the rest.  `true` stands for minus. -/
def readSign : List Char → Bool × List Char
  | '-' :: cs => (true, cs)
  | '+' :: cs => (false, cs)
  | cs => (false, cs)

/-- The integer of a magnitude, negative if the sign is a minus. -/
def signed (negative : Bool) (n : Nat) : Int :=
  if negative then -(n : Int) else n

/-- The integer written in decimal with an optional sign, if its magnitude fits into 64 bits. -/
def readInt? (s : String) : Option Int :=
  let (negative, digits) := readSign s.toList
  if isDigitRun digits then (wordOfDigits? digits).map (signed negative) else none

/-- An integer in decimal, with a minus sign if it is negative. -/
def intText (n : Int) : String :=
  let digits := String.ofList (Nat.toDigits 10 n.natAbs)
  if n < 0 then "-" ++ digits else digits

/-! ## Writing real numbers -/

namespace Binary

/-- A decimal in positional notation: zeros fill up to the point on either side, and a whole
number has no point. -/
def Decimal.positional (d : Decimal) : String :=
  let digits := Nat.toDigits 10 d.digits
  if d.exponent ≥ 0 then
    String.ofList (digits ++ List.replicate d.exponent.toNat '0')
  else
    let places := (-d.exponent).toNat
    let whole := digits.take (digits.length - places)
    let fraction := List.replicate (places - digits.length) '0' ++ digits.drop whole.length
    String.ofList ((if whole.isEmpty then ['0'] else whole) ++ '.' :: fraction)

/-- The decimal without trailing zeros in its digits. -/
def Decimal.trimmed (d : Decimal) : Nat → Decimal
  | 0 => d
  | fuel + 1 =>
    if d.digits != 0 && d.digits % 10 == 0 then
      (⟨d.digits / 10, d.exponent + 1⟩ : Decimal).trimmed fuel
    else d

/-- The text of a number in a format. -/
def Parts.text (f : Format) : Parts → String
  | .nan => "NaN"
  | .infinite negative => if negative then "-inf" else "inf"
  | .finite negative m e =>
    let magnitude := if m = 0 then "0" else ((shortest f m e).trimmed 20).positional
    if negative then "-" ++ magnitude else magnitude

end Binary

/-- The fewest digits that read back as the double. -/
def doubleText (x : Float) : String := (Binary.doubleParts x).text Binary.double

/-- The fewest digits that read back as the single. -/
def singleText (x : Float32) : String := (Binary.singleParts x).text Binary.single

/-! ## Reading real numbers -/

/-- The decimal written by a run of digits, the last `places` of them behind the point.

At most 800 digits count, from the first that is not zero.  A one in the next place stands for all
others, if they are not all zero: every double, and the middle between two neighbours, has fewer
digits, so that all numbers which continue the same 800 digits compare alike with it. -/
def decimalOfDigits (cs : List Char) (places : Nat) : Binary.Decimal :=
  let digits := cs.dropWhile (· == '0')
  let kept := natOfDigits (digits.take 800)
  let others := digits.drop 800
  let exponent : Int := others.length - places
  if others.all (· == '0') then ⟨kept, exponent⟩ else ⟨10 * kept + 1, exponent - 1⟩

/-- Digits, a point and digits, with a digit on at least one side, and what follows. -/
def readMantissa? (cs : List Char) : Option (Binary.Decimal × List Char) :=
  let whole := cs.takeWhile Char.isDigit
  let (fraction, rest) := match cs.dropWhile Char.isDigit with
    | '.' :: more => (more.takeWhile Char.isDigit, more.dropWhile Char.isDigit)
    | more => ([], more)
  if whole.isEmpty && fraction.isEmpty then none
  else some (decimalOfDigits (whole ++ fraction) fraction.length, rest)

/-- The number that the digits of an exponent denote.  Once it has reached `2 ^ 16` it stands, and
the digits that follow do not count. -/
def exponentOfDigits (cs : List Char) : Nat :=
  cs.foldl (fun n c => if n < 0x10000 then 10 * n + digitValue c else n) 0

/-- An exponent that ends the text; without one it is zero. -/
def readExponent? : List Char → Option Int
  | [] => some 0
  | c :: cs =>
    if c = 'e' || c = 'E' then
      let (negative, digits) := readSign cs
      if isDigitRun digits then some (signed negative (exponentOfDigits digits)) else none
    else none

/-- The double nearest to a decimal.  Far outside the range of doubles the result is known without
computing the power. -/
def doubleOfDecimal (negative : Bool) (d : Binary.Decimal) : Float :=
  let magnitude := (Binary.digitCount d.digits : Int) + d.exponent
  if d.digits = 0 || magnitude < -400 then Binary.doubleOfRatio negative 0 1
  else if magnitude > 400 then Binary.doubleOfRatio negative (Nat.pow 2 1100) 1
  else
    let (num, den) := Binary.tenPower d.exponent
    Binary.doubleOfRatio negative (d.digits * num) den

/-- The double that a text denotes: a decimal number with an optional exponent, or the words for
infinity and for what is not a number in any letter case. -/
def readDouble? (s : String) : Option Float :=
  let (negative, cs) := readSign s.toList
  let word := (cs.take 9).map Char.toLower
  if word = "inf".toList || word = "infinity".toList then
    some (Binary.doubleOfRatio negative (Nat.pow 2 1100) 1)
  else if word = "nan".toList then some (0.0 / 0.0)
  else do
    let (mantissa, rest) ← readMantissa? cs
    let exponent ← readExponent? rest
    some (doubleOfDecimal negative ⟨mantissa.digits, mantissa.exponent + exponent⟩)

end TypedExpr
