import Mathlib.Data.Int.Bitwise
import Mathlib.Data.Int.ModEq
import TypedExpr.Proofs.Value.Enumerations
import TypedExpr.Proofs.Value.Operators

/-!
# Arithmetic of integers

The operators compute on mathematical integers and bring the result back into the range of the
type.  A residue class modulo `2 ^ bits` has one word, so that a law of integers holds of words as
soon as it holds modulo `2 ^ bits`.  Nothing is brought back after a division, except for the
quotient of the least integer by -1, which is one past the greatest.

* `IntType.Contains.tdiv`, `IntType.Contains.tmod` — quotients and remainders in the range.
* `Word.modEq_iff_eq_wrap` — the word of a residue class.
* `Word.testBit_onWords` — the bit operators, bit by bit.
* `Value.kind` — what a value is, its content aside.
* **`Value.combine_integers`** — arithmetic is exact modulo `2 ^ bits`, and fails for a zero divisor
  and for operands of different kinds only.
-/

namespace TypedExpr

/-! ## Quotients and remainders in a range -/

namespace IntType

variable {t : IntType} {m n : Int}

theorem modulus_eq_pow (t : IntType) : t.modulus = 2 ^ t.bits := by
  rw [t.modulus_eq, Nat.pow_eq, Nat.cast_pow, Nat.cast_ofNat]

/-- Where there are negative integers, there is one more of them than of positive ones. -/
theorem max_of_min_neg (h : t.min < 0) : t.max = -t.min - 1 := by
  cases t <;> simp [min, max] at h ⊢

theorem contains_zero (t : IntType) : t.Contains 0 := by
  cases t <;> decide

/-- What lies between zero and an integer of the range, lies in the range. -/
theorem Contains.toward_zero (hm : t.Contains m) (up : 0 ≤ m → 0 ≤ n ∧ n ≤ m)
    (down : m ≤ 0 → m ≤ n ∧ n ≤ 0) : t.Contains n := by
  obtain ⟨lo, hi⟩ := hm
  obtain ⟨lo₀, hi₀⟩ := t.contains_zero
  constructor <;> omega

theorem Contains.tmod (hm : t.Contains m) (n : Int) : t.Contains (m.tmod n) := by
  have size : (m.tmod n).natAbs ≤ m.natAbs := by
    rw [Int.natAbs_tmod]
    exact Nat.mod_le _ _
  refine hm.toward_zero ?_ ?_
  · intro positive
    have sign := Int.tmod_nonneg n positive
    omega
  · intro negative
    have sign := Int.tmod_nonneg n (Int.neg_nonneg_of_nonpos negative)
    rw [Int.neg_tmod] at sign
    omega

/-- The quotient of two integers of a range lies in the range, unless it is the negative of the
least one. -/
theorem Contains.tdiv (hm : t.Contains m) (hn : t.Contains n) (fits : ¬ (m = t.min ∧ n = -1)) :
    t.Contains (m.tdiv n) := by
  have size : (m.tdiv n).natAbs ≤ m.natAbs := Int.natAbs_tdiv_le_natAbs m n
  by_cases divisor : n < 0
  · obtain ⟨lo, hi⟩ := hm
    have ends : t.max = -t.min - 1 := max_of_min_neg (Int.lt_of_le_of_lt hn.1 divisor)
    by_cases unit : n = -1
    · subst unit
      rw [Int.tdiv_neg, Int.tdiv_one]
      constructor <;> omega
    · have half : (m.tdiv n).natAbs ≤ m.natAbs / 2 := by
        rw [Int.natAbs_tdiv]
        exact Nat.div_le_div_left (by omega) (by decide)
      constructor <;> omega
  · refine hm.toward_zero ?_ ?_
    · intro positive
      have sign := Int.tdiv_nonneg positive (Int.not_lt.1 divisor)
      omega
    · intro negative
      have sign := Int.tdiv_nonneg (Int.neg_nonneg_of_nonpos negative) (Int.not_lt.1 divisor)
      rw [Int.neg_tdiv] at sign
      omega

end IntType

/-! ## Words -/

/-- The integer that an operator stands for.  Quotients are truncated, and remainders have the sign
of the dividend. -/
def ArithmeticOp.onInts : ArithmeticOp → Int → Int → Int
  | add, m, n => m + n
  | sub, m, n => m - n
  | mul, m, n => m * n
  | div, m, n => m.tdiv n
  | rem, m, n => m.tmod n

namespace Word

variable {t : IntType} {a b : Word t} {n : Int}

theorem contains (a : Word t) : t.Contains a.val := ⟨a.min_le, a.le_max⟩

theorem val_wrap_of_contains (h : t.Contains n) : (wrap t n).val = n :=
  IntType.reduce_of_mem h.1 h.2

theorem val_wrap_modEq (t : IntType) (n : Int) : (wrap t n).val ≡ n [ZMOD 2 ^ t.bits] := by
  rw [Int.ModEq, ← t.modulus_eq_pow]
  exact t.reduce_emod n

/-- **Every residue class has one word.** -/
theorem modEq_iff_eq_wrap : a.val ≡ n [ZMOD 2 ^ t.bits] ↔ a = wrap t n := by
  constructor
  · intro same
    rw [Int.ModEq, ← t.modulus_eq_pow] at same
    apply Word.ext
    show a.val = t.reduce n
    rw [← IntType.reduce_of_mem a.min_le a.le_max, t.reduce_eq, t.reduce_eq, Int.sub_emod, same,
      ← Int.sub_emod]
  · rintro rfl
    exact val_wrap_modEq t n

theorem eq_of_modEq (h : a.val ≡ b.val [ZMOD 2 ^ t.bits]) : a = b := by
  rw [modEq_iff_eq_wrap.1 h, wrap_val]

theorem onWords_eq {op : ArithmeticOp} (h : op.divides = true → b.val ≠ 0) :
    op.onWords a b = .ok (wrap t (op.onInts a.val b.val)) := by
  cases op with
  | add | sub | mul => rfl
  | div | rem => exact if_neg (h rfl)

/-- Quotient and remainder make up the dividend, also where the quotient wraps. -/
theorem division_identity (a b : Word t) :
    ((a.div b).mul b).add (a.rem b) = a := by
  have quotient : (a.div b).val ≡ a.val.tdiv b.val [ZMOD 2 ^ t.bits] := val_wrap_modEq _ _
  have remainder : (a.rem b).val ≡ a.val.tmod b.val [ZMOD 2 ^ t.bits] := val_wrap_modEq _ _
  have product : ((a.div b).mul b).val ≡ (a.div b).val * b.val [ZMOD 2 ^ t.bits] :=
    val_wrap_modEq _ _
  refine eq_of_modEq ?_
  calc (((a.div b).mul b).add (a.rem b)).val
      ≡ ((a.div b).mul b).val + (a.rem b).val [ZMOD 2 ^ t.bits] := val_wrap_modEq _ _
    _ ≡ a.val.tdiv b.val * b.val + a.val.tmod b.val [ZMOD 2 ^ t.bits] :=
        (product.trans (quotient.mul_right _)).add remainder
    _ = a.val := Int.tdiv_mul_add_tmod a.val b.val

/-- The quotient of the least integer by -1 wraps to the least integer. -/
theorem div_least (least : a.val = t.min) (unit : b.val = -1) : a.div b = a := by
  have negative : t.min ≤ -1 := unit ▸ b.min_le
  have ends : t.max = -t.min - 1 := IntType.max_of_min_neg (by omega)
  have period : (2 : Int) ^ t.bits = -t.min - t.min := by
    rw [← t.modulus_eq_pow]
    have range := t.max_eq
    omega
  have quotient : a.val.tdiv b.val = -t.min := by
    rw [least, unit, Int.tdiv_neg, Int.tdiv_one]
  symm
  refine modEq_iff_eq_wrap.1 (Int.modEq_iff_dvd.2 ?_)
  rw [quotient, least, period]

/-- The bits of a word are the low bits of its integer in two's complement. -/
theorem getLsbD_toBits (a : Word t) {i : Nat} (h : i < t.bits) :
    a.toBits.getLsbD i = a.val.testBit i := by
  unfold toBits
  cases a.val with
  | ofNat n =>
    rw [Int.ofNat_eq_natCast, BitVec.ofInt_natCast, BitVec.getLsbD_ofNat]
    simp [h, Int.testBit]
  | negSucc n =>
    rw [BitVec.ofInt_negSucc_eq_not_ofNat, BitVec.getLsbD_not, BitVec.getLsbD_ofNat]
    simp [h, Int.testBit]

/-- **Bit operators work bit by bit**, on all the bits of the width. -/
theorem testBit_onWords (op : BitwiseOp) (a b : Word t) {i : Nat} (h : i < t.bits) :
    (op.onWords a b).val.testBit i = op.onBools (a.val.testBit i) (b.val.testBit i) := by
  rw [← getLsbD_toBits _ h, ← getLsbD_toBits a h, ← getLsbD_toBits b h, toBits_onWords]
  cases op <;> simp [BitwiseOp.onBits, BitwiseOp.onBools]

end Word

/-! ## Values -/

/-- What a value is, its content aside.  Integers of different types are of different kinds. -/
inductive ValueKind
  | null | boolean | int (t : IntType) | single | double | string | guid | dateTime | enum | object
  | sequence | grouping
deriving DecidableEq

namespace Value

/-- The kind of a value. -/
def kind : Value → ValueKind
  | .null => .null
  | .boolean _ => .boolean
  | .int t _ => .int t
  | .single _ => .single
  | .double _ => .double
  | .string _ => .string
  | .guid _ => .guid
  | .dateTime _ => .dateTime
  | .enum .. => .enum
  | .object .. => .object
  | .sequence .. => .sequence
  | .grouping .. => .grouping

variable {t : IntType} {a b : Word t} {v w : Value}

theorem combine_arithmetic {op : ArithmeticOp} (h : op.divides = true → b.val ≠ 0) :
    combine (.arithmetic op) (.int t a) (.int t b) =
      .ok (.int t (Word.wrap t (op.onInts a.val b.val))) := by
  simp [combine, Word.onWords_eq h, Except.map]

theorem combine_bitwise (op : BitwiseOp) (a b : Word t) :
    combine (.bitwise op) (.int t a) (.int t b) = .ok (.int t (op.onWords a b)) := by
  simp [combine]

/-- Integers of one type fail to be combined by a division by zero, and by nothing else that is an
operator on them. -/
theorem combine_eq_divisionByZero (op : BinaryOp) (a b : Word t) :
    combine op (.int t a) (.int t b) = .error .divisionByZero ↔
      (op = .arithmetic .div ∨ op = .arithmetic .rem) ∧ b.val = 0 := by
  cases op with
  | arithmetic op =>
    by_cases zero : op.divides = true → b.val ≠ 0
    · rw [combine_arithmetic zero]
      cases op <;> simp_all [ArithmeticOp.divides]
    · obtain ⟨divides, zero⟩ := Classical.not_imp.1 zero
      cases op <;> simp_all [ArithmeticOp.divides, combine, ArithmeticOp.onWords, Except.map]
  | bitwise op => simp [combine_bitwise]
  | _ => simp [combine, mismatch]

/-- Values of different kinds are not combined. -/
theorem combine_of_kind_ne (op : BinaryOp) (hv : v.isNull = false) (hw : w.isNull = false)
    (differ : v.kind ≠ w.kind) :
    combine op v w = .error (.typeMismatch "operands of a common type"
      (v.kindName ++ " and " ++ w.kindName) (.operator op.symbol)) := by
  unfold combine
  split
  next => cases hv
  next => cases hw
  next t m u n =>
    have types : u ≠ t := fun same => differ (congrArg ValueKind.int same.symm)
    rw [dif_neg types]
    rfl
  next => exact absurd rfl differ
  next => exact absurd rfl differ
  next => exact absurd rfl differ
  next => exact absurd rfl differ
  next => rfl

/-- **Arithmetic of integers of one type.**  Where it divides by no zero, the result is the one
word that is congruent to the integer result.  Quotient and remainder are the truncated ones, but
for the quotient of the least integer by -1, and make up the dividend again.  Bit operators work on
the bits in two's complement.  Only a division by zero fails as such, and what is of different kinds
is not combined. -/
theorem combine_integers (t : IntType) (a b : Word t) :
    (∀ op : ArithmeticOp, (op.divides = true → b.val ≠ 0) →
      ∃ r : Word t, combine (.arithmetic op) (.int t a) (.int t b) = .ok (.int t r) ∧
        ∀ c : Word t, c.val ≡ op.onInts a.val b.val [ZMOD 2 ^ t.bits] ↔ c = r) ∧
    (b.val ≠ 0 → ∃ q r : Word t,
      combine (.arithmetic .div) (.int t a) (.int t b) = .ok (.int t q) ∧
      combine (.arithmetic .rem) (.int t a) (.int t b) = .ok (.int t r) ∧
      (¬ (a.val = t.min ∧ b.val = -1) → q.val = a.val.tdiv b.val) ∧
      (a.val = t.min ∧ b.val = -1 → q.val = t.min ∧ r.val = 0) ∧
      r.val = a.val.tmod b.val ∧
      (combine (.arithmetic .mul) (.int t q) (.int t b) >>= fun p =>
        combine (.arithmetic .add) p (.int t r)) = .ok (.int t a)) ∧
    (∀ op : BitwiseOp,
      ∃ r : Word t, combine (.bitwise op) (.int t a) (.int t b) = .ok (.int t r) ∧
        ∀ i < t.bits, r.val.testBit i = op.onBools (a.val.testBit i) (b.val.testBit i)) ∧
    (∀ op : BinaryOp, combine op (.int t a) (.int t b) = .error .divisionByZero ↔
      (op = .arithmetic .div ∨ op = .arithmetic .rem) ∧ b.val = 0) ∧
    ∀ (op : BinaryOp) (v w : Value), v.isNull = false → w.isNull = false → v.kind ≠ w.kind →
      combine op v w = .error (.typeMismatch "operands of a common type"
        (v.kindName ++ " and " ++ w.kindName) (.operator op.symbol)) := by
  refine ⟨?_, ?_, ?_, fun op => combine_eq_divisionByZero op a b,
    fun op v w => combine_of_kind_ne op⟩
  · intro op proper
    exact ⟨_, combine_arithmetic proper, fun c => Word.modEq_iff_eq_wrap⟩
  · intro proper
    have remainder : (a.rem b).val = a.val.tmod b.val :=
      Word.val_wrap_of_contains (a.contains.tmod b.val)
    refine ⟨a.div b, a.rem b, combine_arithmetic fun _ => proper,
      combine_arithmetic fun _ => proper, ?_, ?_, remainder, ?_⟩
    · intro fits
      exact Word.val_wrap_of_contains (a.contains.tdiv b.contains fits)
    · rintro ⟨least, unit⟩
      refine ⟨by rw [Word.div_least least unit, least], ?_⟩
      rw [remainder, unit, Int.tmod_neg, Int.tmod_one]
    · have product : combine (.arithmetic .mul) (.int t (a.div b)) (.int t b) =
          .ok (.int t ((a.div b).mul b)) := combine_arithmetic nofun
      have sum : combine (.arithmetic .add) (.int t ((a.div b).mul b)) (.int t (a.rem b)) =
          .ok (.int t (((a.div b).mul b).add (a.rem b))) := combine_arithmetic nofun
      rw [product]
      refine sum.trans ?_
      rw [Word.division_identity]
  · intro op
    exact ⟨op.onWords a b, combine_bitwise op a b, fun i => Word.testBit_onWords op a b⟩

/-- The least integer of 8 bits by -1. -/
theorem combine_integers_least :
    (Word.wrap .int8 (-1)).val ≠ 0 ∧ ∃ q r : Word .int8,
      combine (.arithmetic .div) (.int .int8 (Word.wrap .int8 (-128)))
        (.int .int8 (Word.wrap .int8 (-1))) = .ok (.int .int8 q) ∧
      q.val = -128 ∧ r.val = 0 ∧
      (combine (.arithmetic .mul) (.int .int8 q) (.int .int8 (Word.wrap .int8 (-1))) >>= fun p =>
        combine (.arithmetic .add) p (.int .int8 r)) =
          .ok (.int .int8 (Word.wrap .int8 (-128))) := by
  have proper : (Word.wrap .int8 (-1)).val ≠ 0 := by decide
  obtain ⟨q, r, quotient, -, -, wraps, -, identity⟩ :=
    (combine_integers .int8 (Word.wrap .int8 (-128)) (Word.wrap .int8 (-1))).2.1 proper
  obtain ⟨least, zero⟩ := wraps ⟨by decide, by decide⟩
  exact ⟨proper, q, r, quotient, least, zero, identity⟩

end Value

end TypedExpr
