import TypedExpr.CompileError
import TypedExpr.Expr.Basic

/-!
# Parameters

The values that an expression refers to by number.

* `Parameter.ofValue` — a known value with the type that it shows.
* `Parameter.bind` — the expression for a number.
-/

namespace TypedExpr

/-- A parameter: its static type, and where its value comes from. -/
structure Parameter where
  ty : Ty
  value : ParameterValue

namespace Parameter

/-- A known value with the type that it shows. -/
def ofValue (v : Value) : Parameter := ⟨v.ty, .constant v⟩

/-- The parameter of a number, as an expression at a position of the text. -/
def bind (params : List Parameter) (index offset : Nat) : Except CompileError Expr :=
  match params[index]? with
  | some p => .ok (.placeholder index p.value p.ty)
  | none => .error (.ofCause (.placeholderOutOfRange index params.length) offset)

end Parameter

end TypedExpr
