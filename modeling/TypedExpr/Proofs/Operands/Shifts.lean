import Mathlib.Data.Int.ModEq
import TypedExpr.Proofs.Operands.Integers
import TypedExpr.Proofs.Value.Arithmetic

/-!
# Shifts

Any integer can be shifted by any integer.  The count is brought to `int32` first, which may wrap,
and only then taken modulo the width of the other operand; but both widths that integers are shifted
in divide `2 ^ 32`, so that what was lost does not count.

* `IntType.shiftBits` — the width that integers of a type are shifted in.
* `ShiftOp.Moves` — what a shift by a number of places makes of an integer.
* `Word.places_wrap` — a count keeps its places when it is brought to `int32`.
* **`Binding.shift_integers`** — what the shift of an integer gives.
-/

namespace TypedExpr

/-! ## Places -/

/-- How many bits integers of the type have when they are shifted. -/
def IntType.shiftBits : IntType → Nat
  | int64 | uint64 => 64
  | _ => 32

theorem IntType.bits_promoted (t : IntType) : t.promoted.bits = t.shiftBits := by
  cases t <;> rfl

theorem IntType.bits_dvd (t : IntType) : (t.bits : Int) ∣ 2 ^ IntType.int32.bits := by
  cases t <;> decide

/-- A quotient that is rounded down goes toward zero, or toward -1. -/
theorem IntType.Contains.ediv {t : IntType} {m p : Int} (hm : t.Contains m) (positive : 0 < p) :
    t.Contains (m / p) := by
  refine hm.toward_zero ?_ ?_
  · intro nonneg
    exact ⟨Int.ediv_nonneg nonneg (Int.le_of_lt positive), Int.ediv_le_self p nonneg⟩
  · intro nonpos
    have larger : m * p ≤ m * 1 := Int.mul_le_mul_of_nonpos_left nonpos positive
    refine ⟨(Int.le_ediv_iff_mul_le positive).2 (by omega), ?_⟩
    have below : m / p < 1 := Int.ediv_lt_of_lt_mul positive (by omega)
    omega

/-- What a shift by `k` places makes of an integer of `w` bits.  To the left it is a multiple, up to
multiples of `2 ^ w`; to the right it is a quotient that is rounded down. -/
def ShiftOp.Moves (w k : Nat) (m : Int) : ShiftOp → Int → Prop
  | left, r => r ≡ m * 2 ^ k [ZMOD 2 ^ w]
  | right, r => r = m.fdiv (2 ^ k)

namespace Word

variable {t : IntType}

/-- A count keeps its places when it is brought to `int32`. -/
theorem places_wrap (t : IntType) (n : Int) :
    shiftPlaces t (wrap .int32 n).val = shiftPlaces t n := by
  have same : (wrap .int32 n).val ≡ n [ZMOD t.bits] :=
    (val_wrap_modEq .int32 n).of_dvd t.bits_dvd
  rw [shiftPlaces, shiftPlaces, same.eq]

theorem natCast_shiftPlaces (t : IntType) (n : Int) : (shiftPlaces t n : Int) = n % t.bits := by
  have wide : (t.bits : Int) ≠ 0 := by cases t <;> decide
  exact Int.toNat_of_nonneg (Int.emod_nonneg n wide)

theorem shiftLeft_moves (a : Word t) (n : Int) :
    ShiftOp.left.Moves t.bits (shiftPlaces t n) a.val (a.shiftLeft n).val := by
  show (a.shiftLeft n).val ≡ a.val * 2 ^ shiftPlaces t n [ZMOD 2 ^ t.bits]
  rw [shiftLeft, Nat.pow_eq, Nat.cast_pow, Nat.cast_ofNat]
  exact val_wrap_modEq t _

theorem shiftRight_moves (a : Word t) (n : Int) :
    ShiftOp.right.Moves t.bits (shiftPlaces t n) a.val (a.shiftRight n).val := by
  have power : (0 : Int) < (Nat.pow 2 (shiftPlaces t n) : Nat) :=
    Int.natCast_pos.2 (Nat.pow_pos (by decide))
  have quotient : (a.shiftRight n).val = a.val / (Nat.pow 2 (shiftPlaces t n) : Nat) :=
    val_wrap_of_contains (a.contains.ediv power)
  show (a.shiftRight n).val = a.val.fdiv (2 ^ shiftPlaces t n)
  rw [quotient, ← Int.fdiv_eq_ediv_of_nonneg _ (Int.le_of_lt power), Nat.pow_eq, Nat.cast_pow,
    Nat.cast_ofNat]

end Word

/-! ## Values -/

/-- An integer that is not narrow, shifted by an integer of `int32`. -/
theorem Value.shift_int {t : IntType} (op : ShiftOp) (wide : t.promoted = t) (a : Word t)
    (n : Word .int32) :
    ∃ r : Word t, Value.shift (.shift op) (.int t a) (.int .int32 n) = .ok (.int t r) ∧
      op.Moves t.bits (Word.shiftPlaces t n.val) a.val r.val := by
  obtain ⟨m, fits⟩ := int64?_int32 n
  have same : m.val = n.val := Word.fit?_eq_some_iff.1 fits
  rw [← same]
  cases op with
  | left =>
    refine ⟨a.shiftLeft m.val, ?_, a.shiftLeft_moves m.val⟩
    simp [Value.shift, Value.isNull, fits, wide]
  | right =>
    refine ⟨a.shiftRight m.val, ?_, a.shiftRight_moves m.val⟩
    simp [Value.shift, Value.isNull, fits, wide]

/-! ## Expressions -/

namespace Binding

section

variable {format : GuidFormat} {s : Schema} {a b x y : Expr} {t u : IntType} {frames : List Value}
  {st st₁ st₂ : Store}

variable {v w : Value}

/-- A shift evaluates its operands from left to right. -/
theorem evaluate_shift (op : ShiftOp) (ty : Ty) (runX : x.evaluate frames st = (.ok v, st₁))
    (runY : y.evaluate frames st₁ = (.ok w, st₂)) :
    (Expr.binary (.shift op) x y ty).evaluate frames st = (v.shift (.shift op) w, st₂) := by
  show (x.evaluate frames >>= fun v => y.evaluate frames >>= fun w =>
    (liftM (v.shift (.shift op) w) : Eval Value)) st = _
  rw [bind_of_ok runX, bind_of_ok runY]
  cases v.shift (.shift op) w <;> rfl

/-- The shift of two integers is always one of the operands in types of their own. -/
theorem binary_shift_eq (s : Schema) (op : ShiftOp) (offset : Nat)
    (ha : a.ty.nonNullable = .int t) (hb : b.ty.nonNullable = .int u) :
    binary s (.shift op) a b offset =
      .ok (.binary (.shift op) (a.coerceTo s ((Ty.int t.promoted).lift a.ty.isNullable))
        (b.coerceTo s ((Ty.int .int32).lift b.ty.isNullable))
        ((Ty.int t.promoted).lift a.ty.isNullable)) := by
  simp [binary, shift, ha, hb, Ty.isIntegral, Ty.promoted]

/-- **Shifts of integers.**  Any integer can be shifted by any integer, whether they are constants
or not, and whether their types have null or not.  The result has the type that the left operand is
promoted to.  Where both operands give integers, the shift succeeds: it moves the left one by as
many places as the right one is modulo the width. -/
theorem shift_integers (s : Schema) (op : ShiftOp) (offset : Nat)
    (ha : a.ty.nonNullable = .int t) (hb : b.ty.nonNullable = .int u) :
    ∃ e, binary s (.shift op) a b offset = .ok e ∧
      e.ty = (Ty.int t.promoted).lift a.ty.isNullable ∧ t.promoted.bits = t.shiftBits ∧
      ∀ (frames : List Value) (st st₁ st₂ : Store) (m : Word t) (n : Word u),
        a.evaluate frames st = (.ok (.int t m), st₁) →
        b.evaluate frames st₁ = (.ok (.int u n), st₂) →
        ∃ (k : Nat) (r : Word t.promoted), (k : Int) = n.val % t.shiftBits ∧
          e.evaluate frames st = (.ok (.int t.promoted r), st₂) ∧
          op.Moves t.shiftBits k m.val r.val := by
  refine ⟨_, binary_shift_eq s op offset ha hb, rfl, t.bits_promoted, ?_⟩
  intro frames st st₁ st₂ m n runA runB
  have plain (t : IntType) (nullable : Bool) (d : RecordDef) :
      (Ty.int t).lift nullable ≠ .record d := by
    cases nullable <;> exact nofun
  have runX := run_represents (.coerceTo s a _) ha (plain t.promoted a.ty.isNullable) runA
  have runY := run_represents (.coerceTo s b _) hb (plain .int32 b.ty.isNullable) runB
  rw [Value.viewAs_int ha (Ty.nonNullable_lift_int _ _)] at runX
  rw [Value.viewAs_int hb (Ty.nonNullable_lift_int _ _)] at runY
  have wide : t.promoted.promoted = t.promoted := by cases t <;> rfl
  obtain ⟨r, shifted, moves⟩ := Value.shift_int op wide (Word.wrap t.promoted m.val)
    (Word.wrap .int32 n.val)
  have same : (Word.wrap t.promoted m.val).val = m.val :=
    Word.val_wrap_of_contains (t.within_promoted.mem m)
  rw [Word.places_wrap, same, t.bits_promoted] at moves
  refine ⟨Word.shiftPlaces t.promoted n.val, r, ?_, ?_, moves⟩
  · rw [Word.natCast_shiftPlaces, t.bits_promoted]
  · rw [evaluate_shift op _ runX runY, shifted]

/-- A first item, of 8 bits. -/
def narrow8 : Expr := .parameter 0 (.int .int8)

/-- A constant that is a count far beyond any width. -/
def hugeCount : Expr :=
  .literal (.int .uint64 (Word.wrap .uint64 18446744073709551585)) (.int .uint64)

end

/-- The count is 1 modulo 32. -/
theorem shift_integers_huge :
    ∃ e, binary Schema.empty (.shift .right) narrow8 hugeCount 0 = .ok e ∧
      narrow8.evaluate [.int .int8 (Word.wrap .int8 (-8))] .empty =
        (.ok (.int .int8 (Word.wrap .int8 (-8))), .empty) ∧
      ∃ r : Word .int32, e.evaluate [.int .int8 (Word.wrap .int8 (-8))] .empty =
        (.ok (.int .int32 r), .empty) ∧ r.val = -4 := by
  obtain ⟨e, bound, -, -, value⟩ := shift_integers Schema.empty .right 0
    (show narrow8.ty.nonNullable = .int .int8 from rfl)
    (show hugeCount.ty.nonNullable = .int .uint64 from rfl)
  obtain ⟨k, r, places, run, moves⟩ := value [.int .int8 (Word.wrap .int8 (-8))] .empty .empty
    .empty (Word.wrap .int8 (-8)) (Word.wrap .uint64 18446744073709551585) rfl rfl
  obtain rfl : k = 1 := Int.natCast_inj.1 (places.trans (by decide))
  exact ⟨e, bound, rfl, r, run, moves⟩

end Binding

end TypedExpr
