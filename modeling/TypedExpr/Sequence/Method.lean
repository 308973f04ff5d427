import TypedExpr.Text.LetterCase
import TypedExpr.Ty

/-!
# Methods of sequences

The methods that every sequence and grouping has, and their types.

* `SequenceMethod.ofName?` — lookup by name, in any letter case.
* `SequenceMethod.argument` — what stands between the parentheses.
* `SequenceMethod.role`, `LambdaRole.accepts` — what the body of a lambda has to be.
* `SequenceMethod.resultTy` — the type of the result.
-/

namespace TypedExpr

/-- The methods of sequences. -/
inductive SequenceMethod
  | any | all | count | contains
  | sum | min | max | average
  | first | firstOrDefault | last | lastOrDefault
  | filter | select | orderBy | orderByDescending
  | distinct | take | skip
deriving DecidableEq, Repr

/-- What a method of sequences takes between its parentheses: nothing, a lambda that may be left
out, a lambda, or a value computed once. -/
inductive SequenceArgument
  | none | optionalLambda | lambda | value
deriving DecidableEq, Repr

/-- What the body of a lambda has to be: a truth value, a number, a value with an order, or
anything. -/
inductive LambdaRole
  | predicate | numeric | comparable | projection
deriving DecidableEq, Repr

namespace LambdaRole

/-- Whether a body of type `t` will do. -/
def accepts (role : LambdaRole) (t : Ty) : Bool :=
  match role with
  | predicate => t == .boolean
  | numeric => t.nonNullable.isNumeric
  | comparable => t.isComparable
  | projection => true

/-- What is expected of a body, in messages. -/
def text : LambdaRole → String
  | predicate => "Boolean"
  | numeric => "a numeric type"
  | comparable => "an ordered type"
  | projection => "a value"

end LambdaRole

namespace SequenceMethod

/-- The methods in the order in which names are looked up. -/
def list : List SequenceMethod :=
  [any, all, count, contains, sum, min, max, average, first, firstOrDefault, last, lastOrDefault,
    filter, select, orderBy, orderByDescending, distinct, take, skip]

/-- The name of a method. -/
def name : SequenceMethod → String
  | any => "Any"
  | all => "All"
  | count => "Count"
  | contains => "Contains"
  | sum => "Sum"
  | min => "Min"
  | max => "Max"
  | average => "Average"
  | first => "First"
  | firstOrDefault => "FirstOrDefault"
  | last => "Last"
  | lastOrDefault => "LastOrDefault"
  | filter => "Where"
  | select => "Select"
  | orderBy => "OrderBy"
  | orderByDescending => "OrderByDescending"
  | distinct => "Distinct"
  | take => "Take"
  | skip => "Skip"

/-- The method of a name, in any letter case. -/
def ofName? (name : String) : Option SequenceMethod :=
  list.find? fun m => Text.eqIgnoreCase m.name name

/-- What stands between the parentheses. -/
def argument : SequenceMethod → SequenceArgument
  | any | count | sum | min | max | average => .optionalLambda
  | first | firstOrDefault | last | lastOrDefault => .optionalLambda
  | all | filter | select | orderBy | orderByDescending => .lambda
  | contains | take | skip => .value
  | distinct => .none

/-- What the body of a lambda has to be. -/
def role : SequenceMethod → LambdaRole
  | sum | average => .numeric
  | min | max | orderBy | orderByDescending => .comparable
  | select => .projection
  | _ => .predicate

/-- Whether a lambda that is left out stands for the item itself. -/
def impliesIdentity (m : SequenceMethod) : Bool :=
  m.role == .numeric || m.role == .comparable

/-- The type of a sum: narrow integers add up as wider ones, and null stays possible. -/
def sumTy (t : Ty) : Ty :=
  t.nonNullable.promoted.lift t.isNullable

/-- The type of an average: single for singles, double otherwise, and null stays possible. -/
def averageTy (t : Ty) : Ty :=
  let base := match t.nonNullable with
    | .single => Ty.single
    | _ => Ty.double
  base.lift t.isNullable

/-- The type of the result over items of type `item`; `selected` is the type of the body of the
lambda, which is the item type if there is none. -/
def resultTy (m : SequenceMethod) (item : Ty) (selected : Option Ty) : Ty :=
  let selected := selected.getD item
  match m with
  | any | all | contains => .boolean
  | count => .int .int32
  | sum => sumTy selected
  | average => averageTy selected
  | min | max => selected
  | first | firstOrDefault | last | lastOrDefault => item
  | select => .sequence selected
  | filter | orderBy | orderByDescending | distinct | take | skip => .sequence item

end SequenceMethod

end TypedExpr
