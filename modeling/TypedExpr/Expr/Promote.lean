import TypedExpr.Conversion
import TypedExpr.Expr.Basic
import TypedExpr.Value.Coerce

/-!
# Promotion of expressions

Bringing an expression to a type implicitly.  A constant adapts by its value first; other
expressions are converted when they are evaluated, and constants at once, where that succeeds.

* `Expr.applyConversion` — an expression under a conversion that is known to exist.
* `Expr.promote?` — an expression of the wanted type, and what it costs.
-/

namespace TypedExpr

/-- An expression brought to a type, with the cost of doing so. -/
structure Promotion where
  expr : Expr
  cost : Nat

/-- Whether the expression had the type already. -/
def Promotion.isExact (p : Promotion) : Bool := p.cost == 0

namespace Expr

/-- The conversion that a record declares, as part of an expression. -/
def userConversion (s : Schema) (d : RecordDef) (i : Nat) : UserConversion :=
  ⟨d, i, (s.conversions d)[i]?⟩

/-- The expression under a conversion that is known to exist. -/
def applyConversion [GuidFormat] (s : Schema) (e : Expr) (c : ImplicitConversion) (target : Ty) :
    Expr :=
  match c.kind with
  | .identity => e
  | .userDefined d i => .convert e (some (userConversion s d i)) target
  | .nullLiteral => e.withConstant .null target
  | _ =>
    match e.constant?.bind fun v => (v.cast target).toOption with
    | some v => e.withConstant v target
    | none => .convert e none target

/-- The expression brought to a type, if it can be.  The object type is a target only on
demand. -/
def promote? [GuidFormat] (s : Schema) (e : Expr) (target : Ty) (allowObject : Bool) :
    Option Promotion :=
  if e.ty = target then some ⟨e, 0⟩
  else
    let implicit := (s.implicit? e.ty target).filter fun c => allowObject || c.kind != .toObject
    match e.constant?.bind fun v => v.coerce? target with
    | some v => some ⟨e.withConstant v target, (implicit.map (·.cost)).getD 2⟩
    | none => implicit.map fun c => ⟨e.applyConversion s c target, c.cost⟩

/-- An operand whose type was decided: promoted if it can be, and converted otherwise. -/
def coerceTo [GuidFormat] (s : Schema) (e : Expr) (target : Ty) : Expr :=
  if e.ty = target then e
  else
    match e.promote? s target false with
    | some p => p.expr
    | none => .convert e none target

end Expr

end TypedExpr
