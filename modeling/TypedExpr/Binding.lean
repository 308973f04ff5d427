import TypedExpr.CompileError
import TypedExpr.Expr.Promote

/-!
# Binding of operators

How an operator and its operands become a typed expression, or why they do not.

The operands are first brought to one type (`unify`): a constant adapts to the other side, then
the cheaper implicit conversion is taken, and at last both sides go to a common type.

* `Binding.unify`, `Binding.commonTy?` — bringing two operands to one type.
* `Binding.binary` — any binary operator: arithmetic, bit operators, shifts, comparisons and the
  logical operators.
* `Binding.negate`, `Binding.complement`, `Binding.conditional`, `Binding.contains`,
  `Binding.oneOf` — the other operators.
* `Binding.explicitConversion` — a type applied to an expression.
-/

namespace TypedExpr.Binding

variable [GuidFormat]

/-- An expression, or an error with its position. -/
abbrev Bound := Except CompileError Expr

/-! ## Errors -/

/-- Two operands that an operator does not take together. -/
def incompatible {α : Type} (operator : String) (left right : Ty) (offset : Nat) :
    Except CompileError α :=
  .error (.ofCause (.incompatibleOperands operator left right) offset)

/-- An operand that an operator does not take. -/
def incompatibleOperand {α : Type} (operator : String) (operand : Ty) (offset : Nat) :
    Except CompileError α :=
  .error (.ofCause (.incompatibleOperand operator operand) offset)

/-- An expression of another type than expected. -/
def typeMismatch {α : Type} (expected : String) (actual : Ty) (offset : Nat) :
    Except CompileError α :=
  .error (.ofCause (.typeMismatch expected actual) offset)

/-- An expression that a type cannot be applied to. -/
def invalidConversion {α : Type} (source target : Ty) (offset : Nat) : Except CompileError α :=
  .error (.ofCause (.invalidConversion source target) offset)

/-! ## One type for two operands -/

/-- The numeric types that two operands may meet in, the preferred ones first. -/
def commonNumeric : List Ty :=
  [.int .int32, .int .uint32, .int .int64, .int .uint64, .single, .double]

/-- The types that two operands may meet in: the type of either, then the numeric ones.  If one
of the operands may be null, so may be their meeting. -/
def meetingTypes (a b : Ty) : List Ty :=
  let nullable := [a, b].any fun t => t.isNullable || t == .null
  let own := ([a, b].filter (· != .null)).map Ty.nonNullable
  (own ++ commonNumeric).map (·.lift nullable)

/-- The first type that both operands convert to. -/
def commonTy? (s : Schema) (a b : Ty) : Option Ty :=
  (meetingTypes a b).find? fun t =>
    (s.operandConversion? a t).isSome && (s.operandConversion? b t).isSome

/-- A constant operand as a value of the type of the other operand, where its value allows it. -/
def adapt? (e : Expr) (target : Ty) : Option Expr :=
  (e.constant?.bind fun v => v.coerce? target).map fun v => e.withConstant v target

/-- Two operands by the implicit conversions between their types, or by a common type. -/
def convertBoth (s : Schema) (operator : String) (left right : Expr) (offset : Nat) :
    Except CompileError (Expr × Expr) :=
  let toLeft (c : ImplicitConversion) := (left, right.applyConversion s c left.ty)
  let toRight (c : ImplicitConversion) := (left.applyConversion s c right.ty, right)
  match s.operandConversion? right.ty left.ty, s.operandConversion? left.ty right.ty with
  | some a, some b => .ok (if b.cost < a.cost then toRight b else toLeft a)
  | some a, none => .ok (toLeft a)
  | none, some b => .ok (toRight b)
  | none, none =>
    match commonTy? s left.ty right.ty with
    | some t => .ok (left.coerceTo s t, right.coerceTo s t)
    | none => incompatible operator left.ty right.ty offset

/-- Two operands of one type. -/
def unify (s : Schema) (operator : String) (left right : Expr) (offset : Nat) :
    Except CompileError (Expr × Expr) :=
  if left.ty = right.ty then .ok (left, right)
  else
    match adapt? right left.ty with
    | some right => .ok (left, right)
    | none =>
      match adapt? left right.ty with
      | some left => .ok (left, right)
      | none => convertBoth s operator left right offset

/-! ## Binary operators -/

/-- Arithmetic, on numbers that are not narrow. -/
def arithmetic (s : Schema) (op : ArithmeticOp) (left right : Expr) (offset : Nat) : Bound := do
  let (l, r) ← unify s op.symbol left right offset
  let base := l.ty.nonNullable
  if base.isNumeric then
    let t := base.promoted.lift l.ty.isNullable
    return .binary (.arithmetic op) (l.coerceTo s t) (r.coerceTo s t) t
  else incompatible op.symbol left.ty right.ty offset

/-- Bit operators, on integers that are not narrow, truth values and enumerations. -/
def bitwise (s : Schema) (op : BitwiseOp) (left right : Expr) (offset : Nat) : Bound := do
  let (l, r) ← unify s op.symbol left right offset
  match l.ty.nonNullable with
  | .boolean | .enum _ => return .binary (.bitwise op) l r l.ty
  | .int t =>
    let t := (Ty.int t.promoted).lift l.ty.isNullable
    return .binary (.bitwise op) (l.coerceTo s t) (r.coerceTo s t) t
  | _ => incompatible op.symbol left.ty right.ty offset

/-- Shifts, of an integer that is not narrow by an integer that is brought to `int32`. -/
def shift (s : Schema) (op : ShiftOp) (left right : Expr) (offset : Nat) : Bound :=
  let base := left.ty.nonNullable
  if base.isIntegral && right.ty.nonNullable.isIntegral then
    let t := base.promoted.lift left.ty.isNullable
    let count := (Ty.int .int32).lift right.ty.isNullable
    .ok (.binary (.shift op) (left.coerceTo s t) (right.coerceTo s count) t)
  else incompatible op.symbol left.ty right.ty offset

/-- Sums.  A sum with a string on either side joins texts. -/
def sum (s : Schema) (left right : Expr) (offset : Nat) : Bound :=
  if left.ty = .string ∨ right.ty = .string then .ok (.binary .concat left right .string)
  else arithmetic s .add left right offset

/-- The operators with a short circuit, on truth values that are never null. -/
def logical (op : LogicalOp) (left right : Expr) (offset : Nat) : Bound :=
  if left.ty = .boolean ∧ right.ty = .boolean then
    .ok (.binary (.logical op) left right .boolean)
  else incompatible op.symbol left.ty right.ty offset

/-- Comparisons: by a declared order if there is one, and built-in otherwise. -/
def comparison (s : Schema) (op : CompareOp) (left right : Expr) (offset : Nat) : Bound :=
  match s.findComparison? left.ty right.ty with
  | some order => .ok (.customCompare op left right order)
  | none => do
    let (l, r) ← unify s op.symbol left right offset
    if op.isEquality || l.ty.isComparable then return .binary (.compare op) l r .boolean
    else incompatible op.symbol left.ty right.ty offset

/-- Any binary operator with its operands. -/
def binary (s : Schema) (op : BinaryOp) (left right : Expr) (offset : Nat) : Bound :=
  match op with
  | .arithmetic .add | .concat => sum s left right offset
  | .arithmetic op => arithmetic s op left right offset
  | .bitwise op => bitwise s op left right offset
  | .shift op => shift s op left right offset
  | .compare op => comparison s op left right offset
  | .logical op => logical op left right offset

/-! ## Other forms -/

/-- The membership of an item in a sequence. -/
def contains (s : Schema) (source item : Expr) (offset : Nat) : Bound :=
  match source.ty.element? with
  | none => incompatible "in" item.ty source.ty offset
  | some t =>
    match item.promote? s t true with
    | none => incompatible "in" item.ty source.ty offset
    | some p => .ok (.sequenceCall source .contains none (some p.expr) .boolean)

/-- The membership of an item in a list of candidates: an item equals one of them. -/
def oneOf (s : Schema) (item : Expr) (candidates : List Expr) (offset : Nat) :
    Except CompileError (Option Expr) :=
  candidates.foldlM (fun acc candidate => do
    let test ← comparison s .eq item candidate offset
    return some (match acc with
      | some acc => .binary (.logical .or) acc test .boolean
      | none => test)) none

/-- A choice between two expressions, which are brought to one type. -/
def conditional (s : Schema) (test whenTrue whenFalse : Expr) (offset : Nat) : Bound :=
  if test.ty = .boolean then do
    let (a, b) ← unify s "?:" whenTrue whenFalse offset
    return .conditional test a b
  else typeMismatch Ty.boolean.text test.ty offset

/-- The negative of a literal.  A literal one past the greatest signed value becomes the least
one. -/
def negateLiteral? : Value → Option Value
  | .int .int32 n => some (.int .int32 n.neg)
  | .int .int64 n => some (.int .int64 n.neg)
  | .int .uint32 n =>
    some (if n.val = 0x80000000 then Value.int32 (-0x80000000)
      else .int .int64 (Word.wrap .int64 (-n.val)))
  | .int .uint64 n =>
    if n.val = 0x8000000000000000 then
      some (.int .int64 (Word.wrap .int64 (-0x8000000000000000)))
    else none
  | .single x => some (.single (-x))
  | .double x => some (.double (-x))
  | _ => none

/-- The negative of a literal expression. -/
def negatedLiteral? : Expr → Option Expr
  | .literal v _ => (negateLiteral? v).map Expr.ofValue
  | _ => none

/-- Negation.  An unsigned integer is negated in the next wider type, if there is one. -/
def negate (s : Schema) (operand : Expr) (offset : Nat) : Bound :=
  let refuse : Bound := incompatibleOperand UnaryOp.negate.symbol operand.ty offset
  let negateIn (t : Ty) : Bound :=
    .ok (.unary .negate (operand.coerceTo s (t.lift operand.ty.isNullable)))
  match negatedLiteral? operand with
  | some e => .ok e
  | none =>
    match operand.ty.nonNullable with
    | .int .uint32 => negateIn (.int .int64)
    | .int .uint64 => refuse
    | t => if t.isNumeric then negateIn t.promoted else refuse

/-- The complement of a truth value or of an integer. -/
def complement (s : Schema) (operand : Expr) (offset : Nat) : Bound :=
  match operand.ty.nonNullable with
  | .boolean => .ok (.unary .not operand)
  | .int t =>
    .ok (.unary .not (operand.coerceTo s ((Ty.int t.promoted).lift operand.ty.isNullable)))
  | _ => incompatibleOperand UnaryOp.not.symbol operand.ty offset

/-- Numbers and enumerations, which convert into each other on demand. -/
def isNumericLike : Ty → Bool
  | .enum _ => true
  | t => t.isNumeric

/-- Whether a type may be applied to an expression of another type. -/
def allowsExplicit (source target : Ty) : Bool :=
  (isNumericLike source && isNumericLike target) || target == .string ||
    (source == .string && (target == .guid || isNumericLike target)) || source == .object

/-- A type applied to an expression.  A constant is converted at once, or refused. -/
def explicitConversion (s : Schema) (operand : Expr) (target : Ty) (offset : Nat) : Bound :=
  match operand.promote? s target true with
  | some p => .ok p.expr
  | none =>
    let refuse : Bound := invalidConversion operand.ty target offset
    if allowsExplicit operand.ty.nonNullable target.nonNullable then
      match operand.constant? with
      | none => .ok (.convert operand none target)
      | some v =>
        match v.cast target with
        | .ok w => .ok (operand.withConstant w target)
        | .error _ => refuse
    else refuse

end TypedExpr.Binding
