import TypedExpr.Value.Order

/-!
# Exchanging floating-point operands

Sums and products do not depend on the order of the operands, and comparisons turn around with
them.  That holds bit for bit, of zeros of either sign, infinities and what is not a number.

* `Floats.add_comm`, `Floats.mul_comm`, `Floats.compare_swap` — of numbers in either format.
* **`Value.compareDoubles?_swap`** — the order of two doubles.
-/

namespace TypedExpr

open Float.Model (Format UnpackedFloat)
open Float.Model.UnpackedFloat (Sign)

/-! ## Unpacked numbers -/

namespace Floats

theorem sign_mul_comm (s t : Sign) : s * t = t * s := by
  cases s <;> cases t <;> rfl

theorem add_comm (f : Format) (x y : UnpackedFloat) :
    UnpackedFloat.add f x y = UnpackedFloat.add f y x := by
  cases x with
  | notANumber => cases y <;> rfl
  | infinity s =>
    cases y with
    | infinity t => cases s <;> cases t <;> rfl
    | _ => rfl
  | zero s =>
    cases y with
    | zero t => cases s <;> cases t <;> rfl
    | _ => rfl
  | finite s m e hm =>
    cases y with
    | finite t n k hn =>
      show UnpackedFloat.normalize f (s.apply _ + t.apply _) (min e k) .positive =
        UnpackedFloat.normalize f (t.apply _ + s.apply _) (min k e) .positive
      rw [Int.min_comm k e, Int.add_comm (t.apply _)]
    | _ => rfl

theorem mul_comm (f : Format) (x y : UnpackedFloat) :
    UnpackedFloat.mul f x y = UnpackedFloat.mul f y x := by
  cases x with
  | notANumber => cases y <;> rfl
  | infinity s =>
    cases y with
    | notANumber | zero t => rfl
    | infinity t | finite t => exact congrArg UnpackedFloat.infinity (sign_mul_comm s t)
  | zero s =>
    cases y with
    | notANumber | infinity t => rfl
    | zero t | finite t => exact congrArg UnpackedFloat.zero (sign_mul_comm s t)
  | finite s m e hm =>
    cases y with
    | notANumber => rfl
    | infinity t => exact congrArg UnpackedFloat.infinity (sign_mul_comm s t)
    | zero t => exact congrArg UnpackedFloat.zero (sign_mul_comm s t)
    | finite t n k hn =>
      show UnpackedFloat.roundWithAccuracy f (s * t) (m * n) (e + k) .exact =
        UnpackedFloat.roundWithAccuracy f (t * s) (n * m) (k + e) .exact
      rw [sign_mul_comm s t, Nat.mul_comm m n, Int.add_comm e k]

/-- The order of two magnitudes: the exponent decides, then the significand. -/
theorem magnitude_swap (e k : Int) (m n : Nat) :
    (compare k e).then (compare n m) = ((compare e k).then (compare m n)).swap := by
  rw [Ordering.swap_then, Int.compare_swap, Nat.compare_swap]

theorem compare_swap (x y : UnpackedFloat) : y.compare x = (x.compare y).map Ordering.swap := by
  cases x with
  | notANumber =>
    cases y with
    | infinity t => cases t <;> rfl
    | _ => rfl
  | infinity s =>
    cases y with
    | infinity t => cases s <;> cases t <;> rfl
    | _ => cases s <;> rfl
  | zero s =>
    cases y with
    | notANumber | zero t => rfl
    | infinity t | finite t => cases t <;> rfl
  | finite s m e hm =>
    cases y with
    | notANumber => rfl
    | infinity t => cases t <;> rfl
    | zero t => cases s <;> rfl
    | finite t n k hn =>
      have swapped := magnitude_swap e k m n
      cases s with
      | positive =>
        cases t with
        | positive => exact congrArg some swapped
        | negative => rfl
      | negative =>
        cases t with
        | positive => rfl
        | negative => exact congrArg (some ·.swap) swapped

theorem beq_comm (x y : UnpackedFloat) : x.beq y = y.beq x := by
  unfold UnpackedFloat.beq
  rw [compare_swap x y]
  rcases x.compare y with _ | _ | _ | _ <;> rfl

/-! ## Doubles -/

theorem double_add_comm (x y : Float) : x + y = y + x := by
  show Float.ofModel (.pack (.add _ _ _)) = Float.ofModel (.pack (.add _ _ _))
  rw [add_comm]

theorem double_mul_comm (x y : Float) : x * y = y * x := by
  show Float.ofModel (.pack (.mul _ _ _)) = Float.ofModel (.pack (.mul _ _ _))
  rw [mul_comm]

theorem double_beq_comm (x y : Float) : (x == y) = (y == x) := by
  show UnpackedFloat.beq _ _ = UnpackedFloat.beq _ _
  rw [beq_comm]

theorem double_lt_iff (x y : Float) :
    x < y ↔ x.toModel.unpack.compare y.toModel.unpack = some .lt := by
  show decide (UnpackedFloat.lt _ _ = true) = true ↔ _
  rw [decide_eq_true_iff, UnpackedFloat.lt, beq_iff_eq]

/-! ## Singles -/

theorem single_add_comm (x y : Float32) : x + y = y + x := by
  show Float32.ofModel (.pack (.add _ _ _)) = Float32.ofModel (.pack (.add _ _ _))
  rw [add_comm]

theorem single_mul_comm (x y : Float32) : x * y = y * x := by
  show Float32.ofModel (.pack (.mul _ _ _)) = Float32.ofModel (.pack (.mul _ _ _))
  rw [mul_comm]

theorem single_beq_comm (x y : Float32) : (x == y) = (y == x) := by
  show UnpackedFloat.beq _ _ = UnpackedFloat.beq _ _
  rw [beq_comm]

end Floats

/-! ## The order of doubles -/

/-- The tests one after the other find the order of the numbers. -/
theorem Value.compareDoubles?_eq (x y : Float) :
    compareDoubles? x y = x.toModel.unpack.compare y.toModel.unpack := by
  have same : (x == y) = (x.toModel.unpack.compare y.toModel.unpack == some .eq) := rfl
  have swap := Floats.compare_swap x.toModel.unpack y.toModel.unpack
  unfold compareDoubles?
  rw [same]
  simp only [gt_iff_lt, Floats.double_lt_iff, swap]
  rcases x.toModel.unpack.compare y.toModel.unpack with _ | _ | _ | _ <;> rfl

/-- **The order of two doubles turns around with them.** -/
theorem Value.compareDoubles?_swap (x y : Float) :
    compareDoubles? y x = (compareDoubles? x y).map Ordering.swap := by
  rw [compareDoubles?_eq, compareDoubles?_eq, Floats.compare_swap]

end TypedExpr
