import TypedExpr.Value.Basic

/-!
# Equality of values

`Value.equals` is what the operators `=` and `!=` test.  Values of different kinds are unequal,
numbers of different types included.  Two objects, sequences or groupings are equal if they are
the same one; otherwise sequences and groupings are compared by content, and objects are only if
their record compares structurally.
-/

namespace TypedExpr.Value

mutual

/-- Equality of values. -/
def equals : Value → Value → Bool
  | .null, .null => true
  | .boolean a, .boolean b => a == b
  | .int t a, .int u b => t == u && a.val == b.val
  | .single a, .single b => a == b
  | .double a, .double b => a == b
  | .string a, .string b => a == b
  | .guid a, .guid b => a == b
  | .dateTime a, .dateTime b => a == b
  | .enum d a, .enum e b => d == e && a == b
  | .object i d as, .object j e bs =>
    i == j || (d == e && d.equality == .structural && equalsAll as bs)
  | .sequence i as, .sequence j bs => i == j || equalsAll as bs
  | .grouping i k as, .grouping j l bs => i == j || (equals k l && equalsAll as bs)
  | _, _ => false

/-- Equality of lists of values, position by position. -/
def equalsAll : List Value → List Value → Bool
  | [], [] => true
  | a :: as, b :: bs => equals a b && equalsAll as bs
  | _, _ => false

end

end TypedExpr.Value
