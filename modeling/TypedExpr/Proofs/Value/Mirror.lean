import TypedExpr.Operator.Apply
import TypedExpr.Proofs.Value.Floats

/-!
# Exchanging the operands of operators

What an operator makes of two values, and of the two in the other order.

* **`Value.compareBy_swap`**, **`Value.compareWith_swap`** — a comparison and its mirror agree on
  exchanged operands, the declared ones too.
* **`Value.combine_comm`** — sums, products and bit operators do not depend on the order.
-/

namespace TypedExpr

/-- The operators of arithmetic and on bits that do not depend on the order of their operands. -/
def BinaryOp.isCommutative : BinaryOp → Bool
  | .arithmetic .add | .arithmetic .mul | .bitwise _ => true
  | _ => false

@[simp] theorem CompareOp.swap_swap (op : CompareOp) : op.swap.swap = op := by
  cases op <;> rfl

@[simp] theorem CompareOp.isEquality_swap (op : CompareOp) :
    op.swap.isEquality = op.isEquality := by
  cases op <;> rfl

namespace Value

/-! ## Equality and order -/

mutual

/-- Equality is symmetric. -/
theorem equals_comm : ∀ a b : Value, a.equals b = b.equals a
  | .null, b => by cases b <;> rfl
  | .boolean x, b => by
    cases b with
    | boolean y => exact Bool.beq_comm
    | _ => rfl
  | .int t x, b => by
    cases b with
    | int u y => simp only [equals, BEq.comm (a := t), BEq.comm (a := x.val)]
    | _ => rfl
  | .single x, b => by
    cases b with
    | single y => exact Floats.single_beq_comm x y
    | _ => rfl
  | .double x, b => by
    cases b with
    | double y => exact Floats.double_beq_comm x y
    | _ => rfl
  | .string x, b => by
    cases b with
    | string y => exact BEq.comm
    | _ => rfl
  | .guid x, b => by
    cases b with
    | guid y => exact BEq.comm
    | _ => rfl
  | .dateTime x, b => by
    cases b with
    | dateTime y => exact BEq.comm
    | _ => rfl
  | .enum d x, b => by
    cases b with
    | enum e y => simp only [equals, BEq.comm (a := d), BEq.comm (a := x)]
    | _ => rfl
  | .object i d as, b => by
    cases b with
    | object j e bs =>
      by_cases same : d = e
      · rw [same, equals, equals, equalsAll_comm as bs, BEq.comm (a := i)]
      · simp only [equals, beq_false_of_ne same, beq_false_of_ne (Ne.symm same), Bool.false_and,
          Bool.or_false]
        exact BEq.comm
    | _ => rfl
  | .sequence i as, b => by
    cases b with
    | sequence j bs => simp only [equals, equalsAll_comm as bs, BEq.comm (a := i)]
    | _ => rfl
  | .grouping i k as, b => by
    cases b with
    | grouping j l bs =>
      simp only [equals, equals_comm k l, equalsAll_comm as bs, BEq.comm (a := i)]
    | _ => rfl

theorem equalsAll_comm : ∀ as bs : List Value, equalsAll as bs = equalsAll bs as
  | [], [] | [], _ :: _ | _ :: _, [] => rfl
  | a :: as, b :: bs => by simp only [equalsAll, equals_comm a b, equalsAll_comm as bs]

end

theorem compareNumbers?_swap (m n : Number) :
    compareNumbers? n m = (compareNumbers? m n).map Ordering.swap := by
  cases m with
  | integer m =>
    cases n with
    | integer n => exact congrArg some Std.OrientedCmp.eq_swap
    | real y => exact compareDoubles?_swap _ _
  | real x => cases n <;> exact compareDoubles?_swap _ _

/-- The order turns around with the values. -/
theorem compare?_swap (a b : Value) : b.compare? a = (a.compare? b).map Ordering.swap := by
  cases a with
  | null => cases b <;> rfl
  | boolean p =>
    cases b with
    | boolean q => exact congrArg some Std.OrientedCmp.eq_swap
    | _ => rfl
  | string x =>
    cases b with
    | string y => exact congrArg some Std.OrientedCmp.eq_swap
    | _ => rfl
  | guid g =>
    cases b with
    | guid h => exact congrArg some Std.OrientedCmp.eq_swap
    | _ => rfl
  | dateTime m =>
    cases b with
    | dateTime n => exact congrArg some Std.OrientedCmp.eq_swap
    | _ => rfl
  | enum d m =>
    cases b with
    | enum e n => exact congrArg some Std.OrientedCmp.eq_swap
    | int u n => exact compareNumbers?_swap (.integer _) (.integer _)
    | single y | double y => exact compareNumbers?_swap (.integer _) (.real _)
    | _ => rfl
  | int t m =>
    cases b with
    | int u n | enum d n => exact compareNumbers?_swap (.integer _) (.integer _)
    | single y | double y => exact compareNumbers?_swap (.integer _) (.real _)
    | _ => rfl
  | single x | double x =>
    cases b with
    | int u n | enum d n => exact compareNumbers?_swap (.real _) (.integer _)
    | single y | double y => exact compareNumbers?_swap (.real _) (.real _)
    | _ => rfl
  | object i d fields => cases b <;> rfl
  | sequence i items => cases b <;> rfl
  | grouping i key items => cases b <;> rfl

/-! ## Comparisons -/

/-- **A built-in comparison and its mirror agree on exchanged operands.** -/
theorem compareBy_swap (op : CompareOp) (a b : Value) :
    compareBy (.compare op.swap) b a = compareBy (.compare op) a b := by
  have order : (!b.isNull && !a.isNull && ((b.compare? a).map op.swap.accepts).getD false) =
      (!a.isNull && !b.isNull && ((a.compare? b).map op.accepts).getD false) := by
    have accepts : op.swap.accepts ∘ Ordering.swap = op.accepts := funext op.accepts_swap
    rw [compare?_swap a b, Option.map_map, accepts, Bool.and_comm (!b.isNull)]
  cases op with
  | eq => exact equals_comm b a
  | ne => exact congrArg not (equals_comm b a)
  | lt | le | gt | ge => exact order

/-- **A declared comparison and its mirror agree on exchanged operands**, if the order is asked the
other way round. -/
theorem compareWith_swap (op : CompareOp)
    (order : Value → Value → Except EvalError (Option Ordering)) (reversed : Bool) (a b : Value) :
    compareWith (.compare op.swap) order (!reversed) b a =
      compareWith (.compare op) order reversed a b := by
  unfold compareWith
  rw [Bool.or_comm b.isNull, Bool.and_comm b.isNull]
  split
  · cases op <;> rfl
  · cases reversed with
    | false =>
      show (order a b).map _ >>= _ = order a b >>= _
      rcases order a b with e | _ | o
      · rfl
      · rfl
      · exact congrArg Except.ok (op.accepts_swap o)
    | true =>
      show order b a >>= _ = (order b a).map _ >>= _
      rcases order b a with e | _ | o
      · rfl
      · rfl
      · refine congrArg Except.ok ?_
        show op.swap.accepts o = op.accepts o.swap
        rw [← op.accepts_swap, Ordering.swap_swap]

/-- An order that gives the opposite answer for exchanged values. -/
def IsAntisymmetric (order : Value → Value → Except EvalError (Option Ordering)) : Prop :=
  ∀ a b, order b a = (order a b).map (·.map Ordering.swap)

/-- It does not matter which way round an antisymmetric order is asked. -/
theorem compareWith_reversed {order : Value → Value → Except EvalError (Option Ordering)}
    (anti : IsAntisymmetric order) (op : BinaryOp) (reversed : Bool) (a b : Value) :
    compareWith op order (!reversed) a b = compareWith op order reversed a b := by
  have asked : (order b a).map (·.map Ordering.swap) = order a b := (anti b a).symm
  cases reversed <;> simp only [compareWith, Bool.not_false, Bool.not_true, asked] <;> rfl

/-! ## Operators -/

section Commutative

variable {t : IntType} {o : ArithmeticOp} (comm : (BinaryOp.arithmetic o).isCommutative = true)

include comm

theorem arithmetic_onWords_comm (m n : Word t) : o.onWords m n = o.onWords n m := by
  cases o with
  | add => exact congrArg (fun k => Except.ok (Word.wrap t k)) (Int.add_comm _ _)
  | mul => exact congrArg (fun k => Except.ok (Word.wrap t k)) (Int.mul_comm _ _)
  | sub | div | rem => cases comm

theorem onDoubles_comm (x y : Float) : o.onDoubles x y = o.onDoubles y x := by
  cases o with
  | add => exact Floats.double_add_comm x y
  | mul => exact Floats.double_mul_comm x y
  | sub | div | rem => cases comm

theorem onSingles_comm (x y : Float32) : o.onSingles x y = o.onSingles y x := by
  cases o with
  | add => exact Floats.single_add_comm x y
  | mul => exact Floats.single_mul_comm x y
  | sub | div | rem => cases comm

end Commutative

theorem bitwise_onWords_comm {t : IntType} (o : BitwiseOp) (m n : Word t) :
    o.onWords m n = o.onWords n m := by
  cases o with
  | and => exact congrArg Word.ofBits (BitVec.and_comm _ _)
  | or => exact congrArg Word.ofBits (BitVec.or_comm _ _)
  | xor => exact congrArg Word.ofBits (BitVec.xor_comm _ _)

theorem onBools_comm (o : BitwiseOp) (p q : Bool) : o.onBools p q = o.onBools q p := by
  cases o <;> cases p <;> cases q <;> rfl

/-- **A commutative operator does not depend on the order of its operands**, where it gives a
value. -/
theorem combine_comm {op : BinaryOp} (comm : op.isCommutative = true) {a b w : Value}
    (h : combine op a b = .ok w) : combine op b a = .ok w := by
  unfold combine at h
  split at h
  · rw [← h]
    cases b <;> rfl
  · exact h
  next t m u n =>
    split at h
    next same =>
      subst same
      rw [← h]
      split at h
      next o => simp only [combine, ↓reduceDIte, arithmetic_onWords_comm comm n]
      next o => simp only [combine, ↓reduceDIte, bitwise_onWords_comm o n]
      next => cases h
    next => cases h
  next x y =>
    split at h
    next o => rw [← h, combine, onSingles_comm comm y]
    next => cases h
  next x y =>
    split at h
    next o => rw [← h, combine, onDoubles_comm comm y]
    next => cases h
  next p q =>
    split at h
    next o => rw [← h, combine, onBools_comm o q]
    next => cases h
  next d m e n =>
    split at h
    next o =>
      split at h
      next same => rw [← h, combine, if_pos same.symm, bitwise_onWords_comm o n, same]
      next => cases h
    next => cases h
  next => cases h

end Value

end TypedExpr
