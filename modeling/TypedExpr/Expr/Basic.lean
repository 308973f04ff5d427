import TypedExpr.Member.Table
import TypedExpr.Operator.Basic
import TypedExpr.Sequence.Method

/-!
# Bound expressions

The trees that a text is bound to.  Every node has a static type: it is stored where the rules of
binding choose it, and computed from the parts where they determine it.

* `Expr`, `Expr.ty` — the trees and their types.
* `Expr.constant?` — the value of an expression that is known before evaluation.
* `Expr.withConstant` — a constant with another value and type.
-/

namespace TypedExpr

/-- Where the value of a parameter comes from: it is known, or asked for at each evaluation. -/
inductive ParameterValue
  | constant (v : Value)
  | deferred (source : Eval Value)

/-- A conversion that a record declares, by its position among the conversions of the record.  It
is missing if the record has none at the position. -/
structure UserConversion where
  record : RecordDef
  index : Nat
  conversion : Option Conversion

/-- The bound expressions. -/
inductive Expr
  /-- A constant. -/
  | literal (v : Value) (ty : Ty)
  /-- The item that an enclosing lambda is applied to; depth zero is the element that the whole
  expression is about. -/
  | parameter (depth : Nat) (ty : Ty)
  /-- A parameter supplied from outside. -/
  | placeholder (index : Nat) (value : ParameterValue) (ty : Ty)
  /-- A field or a property. -/
  | member (target : Expr) (m : Member)
  /-- A call of a method. -/
  | call (target : Expr) (m : Method) (args : List Expr)
  /-- A call of a method of sequences, with the body of a lambda or a plain argument. -/
  | sequenceCall (target : Expr) (m : SequenceMethod) (lambda : Option Expr)
      (argument : Option Expr) (ty : Ty)
  /-- A binary operator. -/
  | binary (op : BinaryOp) (left right : Expr) (ty : Ty)
  /-- A unary operator. -/
  | unary (op : UnaryOp) (operand : Expr)
  /-- A choice between two expressions. -/
  | conditional (test whenTrue whenFalse : Expr)
  /-- The item or the character at a position. -/
  | index (target position : Expr) (ty : Ty)
  /-- A conversion, built-in or declared. -/
  | convert (operand : Expr) (user : Option UserConversion) (ty : Ty)
  /-- A comparison by a declared order. -/
  | customCompare (op : CompareOp) (left right : Expr) (order : Schema.ComparisonMatch)
  /-- A new object of a record. -/
  | new (d : RecordDef) (fields : List Expr)

namespace Expr

/-- The static type. -/
def ty : Expr → Ty
  | literal _ t | parameter _ t | placeholder _ _ t => t
  | member _ m => m.ty
  | call _ m _ => m.result
  | sequenceCall _ _ _ _ t | binary _ _ _ t => t
  | unary _ x => x.ty
  | conditional _ a _ => a.ty
  | index _ _ t | convert _ _ t => t
  | customCompare .. => .boolean
  | new d _ => .record d

/-- A literal with the type of its value. -/
def ofValue (v : Value) : Expr := .literal v v.ty

/-- The value of an expression that is known before evaluation. -/
def constant? : Expr → Option Value
  | literal v _ | placeholder _ (.constant v) _ => some v
  | _ => none

/-- Whether the value of the expression is known before evaluation. -/
def isConstant (e : Expr) : Bool := e.constant?.isSome

/-- Whether the expression is the literal null. -/
def isNullLiteral : Expr → Bool
  | literal .null _ => true
  | _ => false

/-- The expression with another value and type, still the same parameter if it is one. -/
def withConstant (e : Expr) (v : Value) (t : Ty) : Expr :=
  match e with
  | placeholder i _ _ => .placeholder i (.constant v) t
  | _ => .literal v t

@[simp] theorem withConstant_ty (e : Expr) (v : Value) (t : Ty) : (e.withConstant v t).ty = t := by
  cases e <;> rfl

@[simp] theorem constant?_withConstant (e : Expr) (v : Value) (t : Ty) :
    (e.withConstant v t).constant? = some v := by
  cases e <;> rfl

end Expr

end TypedExpr
