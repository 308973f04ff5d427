import TypedExpr.Value.Cast

/-!
# Coercion of constants

A constant may become a value of another type where its value, and not just its type, allows it:
a text that reads as an identifier or as a constant of an enumeration, an integer that names a
constant, and a number that has an exact place in another numeric type.
-/

namespace TypedExpr.Value

/-- The constant as a value of a type, if its value allows it.  One explicit null on the type is
ignored, unless the constant is null. -/
def coerce? [GuidFormat] (v : Value) (target : Ty) : Option Value :=
  if v.isNull then
    if target.acceptsNull then some .null else none
  else
    let goal := target.nonNullable
    match v, goal with
    | .string _, .string => some v
    | .string s, .guid => (readGuid? s).map .guid
    | .string s, .enum d => (readConstant? d s).map (.enum d)
    | .enum d _, .enum e => if d = e then some v else none
    | .enum .., _ => none
    | _, .enum d => ((v.fitNumeric? d.underlying).bind int64?).map (.enum d)
    | .boolean _, .boolean | .guid _, .guid | .dateTime _, .dateTime => some v
    | _, _ => if goal.isNumeric then v.fitNumeric? goal else none

end TypedExpr.Value
