import TypedExpr.Value.Number

/-!
# Order of values

`Value.compare?` orders two values if they are comparable.  Null lies below every other value.
Numbers of different types are compared by the number they denote; a real number that is not a
number has no place in the order.
-/

namespace TypedExpr.Value

/-- The order of two doubles, if both are numbers. -/
def compareDoubles? (x y : Float) : Option Ordering :=
  if x < y then some .lt
  else if x == y then some .eq
  else if x > y then some .gt
  else none

/-- The order of two numbers: of integers exactly, otherwise as doubles. -/
def compareNumbers? : Number → Number → Option Ordering
  | .integer m, .integer n => some (compare m n)
  | m, n => compareDoubles? m.toDouble n.toDouble

/-- The order of two values, if they have one. -/
def compare? : Value → Value → Option Ordering
  | .null, .null => some .eq
  | .null, _ => some .lt
  | _, .null => some .gt
  | .boolean a, .boolean b => some (compare a.toNat b.toNat)
  | .string a, .string b => some (compare a b)
  | .guid a, .guid b => some (compare a.bits.toNat b.bits.toNat)
  | .dateTime a, .dateTime b => some (compare a.val b.val)
  | .enum _ a, .enum _ b => some (compare a.val b.val)
  | a, b =>
    match a.number?, b.number? with
    | some m, some n => compareNumbers? m n
    | _, _ => none

end TypedExpr.Value
