import TypedExpr.EvalError
import TypedExpr.Numeric.WordOps
import TypedExpr.Operator.Basic
import TypedExpr.Value.Equality
import TypedExpr.Value.Order

/-!
# What operators compute

Operators on values that were brought to a common type.  A null operand makes arithmetic null and
a relational comparison false.

* `Value.combine` — arithmetic and bit operators.
* `Value.shift`, `Value.compareBy`, `Value.compareWith`, `Value.concat` — the others.
* `Value.applyUnary` — complement and negation.
-/

namespace TypedExpr

/-- Arithmetic on words of one type. -/
def ArithmeticOp.onWords {t : IntType} : ArithmeticOp → Word t → Word t → Except EvalError (Word t)
  | add, a, b => .ok (a.add b)
  | sub, a, b => .ok (a.sub b)
  | mul, a, b => .ok (a.mul b)
  | div, a, b => if b.val = 0 then .error .divisionByZero else .ok (a.div b)
  | rem, a, b => if b.val = 0 then .error .divisionByZero else .ok (a.rem b)

/-- Bit operators on words of one type. -/
def BitwiseOp.onWords {t : IntType} : BitwiseOp → Word t → Word t → Word t
  | and, a, b => a.land b
  | or, a, b => a.lor b
  | xor, a, b => a.lxor b

/-- Bit operators on truth values. -/
def BitwiseOp.onBools : BitwiseOp → Bool → Bool → Bool
  | and, a, b => a && b
  | or, a, b => a || b
  | xor, a, b => a != b

/-- Arithmetic on doubles. -/
def ArithmeticOp.onDoubles : ArithmeticOp → Float → Float → Float
  | add, a, b => a + b
  | sub, a, b => a - b
  | mul, a, b => a * b
  | div, a, b => a / b
  | rem, a, b => Binary.remainder a b

/-- Arithmetic on singles. -/
def ArithmeticOp.onSingles : ArithmeticOp → Float32 → Float32 → Float32
  | add, a, b => a + b
  | sub, a, b => a - b
  | mul, a, b => a * b
  | div, a, b => a / b
  | rem, a, b => Binary.singleRemainder a b

namespace Value

/-- Operands that an operator does not take together. -/
def mismatch (op : BinaryOp) (a b : Value) : EvalError :=
  .typeMismatch "operands of a common type" (a.kindName ++ " and " ++ b.kindName)
    (.operator op.symbol)

/-- Arithmetic and bit operators on two values of one type. -/
def combine (op : BinaryOp) (a b : Value) : Except EvalError Value :=
  match a, b with
  | .null, _ | _, .null => .ok .null
  | .int t m, .int u n =>
    if h : u = t then
      match op with
      | .arithmetic o => (o.onWords m (h ▸ n)).map (.int t)
      | .bitwise o => .ok (.int t (o.onWords m (h ▸ n)))
      | _ => .error (mismatch op a b)
    else .error (mismatch op a b)
  | .single x, .single y =>
    match op with
    | .arithmetic o => .ok (.single (o.onSingles x y))
    | _ => .error (mismatch op a b)
  | .double x, .double y =>
    match op with
    | .arithmetic o => .ok (.double (o.onDoubles x y))
    | _ => .error (mismatch op a b)
  | .boolean p, .boolean q =>
    match op with
    | .bitwise o => .ok (.boolean (o.onBools p q))
    | _ => .error (mismatch op a b)
  | .enum d m, .enum e n =>
    match op with
    | .bitwise o => if d = e then .ok (.enum d (o.onWords m n)) else .error (mismatch op a b)
    | _ => .error (mismatch op a b)
  | _, _ => .error (mismatch op a b)

/-- Shifts of integers that are not narrow, with the count taken modulo the width.  Every operator
other than the shift to the left moves to the right. -/
def shift (op : BinaryOp) (a count : Value) : Except EvalError Value :=
  if a.isNull || count.isNull then .ok .null
  else
    match count.int64?, a with
    | some n, .int t m =>
      if t.promoted = t then
        .ok (.int t (if op = .shift .left then m.shiftLeft n.val else m.shiftRight n.val))
      else .error (mismatch op a count)
    | _, _ => .error (mismatch op a count)

/-- Built-in comparisons.  Equality is that of values; the relational ones need an order, and are
false without one or if an operand is null. -/
def compareBy (op : BinaryOp) (a b : Value) : Bool :=
  match op with
  | .compare .eq => a.equals b
  | .compare .ne => !a.equals b
  | _ => !a.isNull && !b.isNull && ((a.compare? b).map op.accepts).getD false

/-- Comparisons by a declared order.  A reversed declaration lists the operands in the other
order.  Null equals null only, and operands without an order satisfy no comparison. -/
def compareWith (op : BinaryOp) (order : Value → Value → Except EvalError (Option Ordering))
    (reversed : Bool) (a b : Value) : Except EvalError Bool :=
  if a.isNull || b.isNull then
    let both := a.isNull && b.isNull
    match op with
    | .compare .eq => .ok both
    | .compare .ne => .ok !both
    | _ => .ok false
  else do
    let o ← if reversed then (order b a).map (·.map Ordering.swap) else order a b
    return (o.map op.accepts).getD false

/-- The texts of two values joined. -/
def concat [GuidFormat] (a b : Value) : Value := .string (a.text ++ b.text)

/-- Complement and negation. -/
def applyUnary (op : UnaryOp) (v : Value) : Except EvalError Value :=
  match op, v with
  | _, .null => .ok .null
  | .not, .boolean b => .ok (.boolean !b)
  | .not, .int .int32 n => .ok (.int .int32 n.complement)
  | .not, .int .int64 n => .ok (.int .int64 n.complement)
  | .not, .int .uint32 n => .ok (.int .uint32 n.complement)
  | .not, .int .uint64 n => .ok (.int .uint64 n.complement)
  | .negate, .int .int32 n => .ok (.int .int32 n.neg)
  | .negate, .int .int64 n => .ok (.int .int64 n.neg)
  | .negate, .single x => .ok (.single (-x))
  | .negate, .double x => .ok (.double (-x))
  | op, v =>
    .error (.typeMismatch "numeric or boolean operand" v.kindName (.operator op.symbol))

end Value

end TypedExpr
