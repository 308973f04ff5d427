import TypedExpr.Eval
import TypedExpr.Operator.Apply
import TypedExpr.Sequence.Method
import TypedExpr.Value.Cast

/-!
# What the methods of sequences compute

Each method is a function of the items of a sequence and, where it has one, of the lambda as a
function that may fail.  Items are visited from the left, except for the last match, which is
sought from the right; the first failure ends the visit.

* `Items.findWhere?`, `Items.filterWhere`, `Items.selectAll` — visits of the items.
* `Items.sortBy` — a stable sort.
* `Items.sum`, `Items.extreme`, `Items.average`, `Items.distinct` — aggregates.
-/

namespace TypedExpr.Items

/-- A function of an item. -/
abbrev Selector := Value → Eval Value

/-! ## Visits -/

/-- The truth value that a predicate gives. -/
def truth (v : Value) : Except EvalError Bool :=
  match v with
  | .boolean b => .ok b
  | v => .error (.typeMismatch "Boolean" v.kindName .predicate)

/-- Whether an item satisfies a predicate. -/
def satisfies (p : Selector) (item : Value) : Eval Bool := do
  liftM (truth (← p item))

/-- The first item that satisfies the predicate; later ones are not visited. -/
def findWhere? (p : Selector) : List Value → Eval (Option Value)
  | [] => return none
  | item :: rest => do
    if ← satisfies p item then return some item else findWhere? p rest

/-- The items that satisfy the predicate. -/
def filterWhere (p : Selector) : List Value → Eval (List Value)
  | [] => return []
  | item :: rest => do
    let keep ← satisfies p item
    let kept ← filterWhere p rest
    return if keep then item :: kept else kept

/-- Whether all items satisfy the predicate; those after the first one that does not are not
visited. -/
def allWhere (p : Selector) : List Value → Eval Bool
  | [] => return true
  | item :: rest => do
    if ← satisfies p item then allWhere p rest else return false

/-- What the function gives on each item. -/
def selectAll (f : Selector) : List Value → Eval (List Value)
  | [] => return []
  | item :: rest => do
    let v ← f item
    let vs ← selectAll f rest
    return v :: vs

/-- What the function gives on each item, or the items without one. -/
def project (f : Option Selector) (items : List Value) : Eval (List Value) :=
  match f with
  | some f => selectAll f items
  | none => return items

/-! ## Aggregates -/

/-- The sum of the values that are not null, starting from the zero of a type. -/
def sum (values : List Value) (ty : Ty) : Except EvalError Value :=
  (values.filter (!·.isNull)).foldlM (Value.combine (.arithmetic .add))
    (Value.defaultOf ty.nonNullable)

/-- The better of two values: the new one only if the order puts it on the wanted side. -/
def better (want : Ordering) (best v : Value) : Value :=
  if v.compare? best == some want then v else best

/-- The least or the greatest of the values that are not null, the first one of several. -/
def extreme? (want : Ordering) (values : List Value) : Option Value :=
  match values.filter (!·.isNull) with
  | [] => none
  | v :: rest => some (rest.foldl (better want) v)

/-- A result that may be missing: null where the type allows it. -/
def orNull (ty : Ty) (result : Option Value) : Except EvalError Value :=
  match result with
  | some v => .ok v
  | none => if ty.acceptsNull then .ok .null else .error .emptySequence

/-- The mean of the numbers among the values, as a value of a type.  The sum starts from the
neutral element of addition, negative zero. -/
def average [GuidFormat] (values : List Value) (ty : Ty) : Except EvalError Value :=
  match values.filterMap Value.double? with
  | [] => orNull ty none
  | xs => (Value.double (xs.foldl (· + ·) (-0.0) / Float.ofNat xs.length)).cast ty.nonNullable

/-- The items without those that equal an earlier one or one of `seen`. -/
def distinctFrom (seen : List Value) : List Value → List Value
  | [] => []
  | item :: rest =>
    if seen.any (·.equals item) then distinctFrom seen rest
    else item :: distinctFrom (item :: seen) rest

/-- The items without those that equal an earlier one. -/
def distinct (items : List Value) : List Value := distinctFrom [] items

/-- Whether an item equals the value. -/
def contains (items : List Value) (v : Value) : Bool :=
  items.any (·.equals v)

/-! ## Sorting -/

/-- The order of two keys, turned around for a descending sort.  Keys without an order count as
equal. -/
def compareKeys (descending : Bool) (a b : Value) : Ordering :=
  let o := (a.compare? b).getD .eq
  if descending then o.swap else o

/-- Sorts by an order and leaves items that it counts as equal in their places. -/
def sortBy {α : Type} (order : α → α → Ordering) (items : List α) : List α :=
  items.mergeSort fun a b => order a b != .gt

/-- Sorts the items by a key. -/
def orderBy (key : Selector) (descending : Bool) (items : List Value) : Eval (List Value) := do
  let keys ← selectAll key items
  let sorted := sortBy (fun a b => compareKeys descending a.1 b.1) (keys.zip items)
  return sorted.map Prod.snd

/-! ## Methods -/

/-- The first or the last item that satisfies the predicate, if there is one. -/
def pick (p : Option Selector) (fromRight : Bool) (items : List Value) : Eval (Option Value) :=
  let ordered := if fromRight then items.reverse else items
  match p with
  | some p => findWhere? p ordered
  | none => return ordered.head?

/-- The number of items that a count argument takes from the front. -/
def takeCount (v : Value) : Nat :=
  ((v.int64?).elim 0 Word.val).toNat

/-- A method on the items of a sequence.  `f` is its lambda and `argument` its other argument;
`ty` is the type of the result. -/
def call [GuidFormat] (m : SequenceMethod) (items : List Value) (f : Option Selector)
    (argument : Eval Value) (ty : Ty) : Eval Value :=
  let lambda := f.getD fun item => return item
  match m with
  | .any =>
    match f with
    | some p => return .boolean (← findWhere? p items).isSome
    | none => return .boolean !items.isEmpty
  | .all => return .boolean (← allWhere lambda items)
  | .count =>
    match f with
    | some p => return Value.int32 (← filterWhere p items).length
    | none => return Value.int32 items.length
  | .contains => return .boolean (contains items (← argument))
  | .sum => do liftM (sum (← project f items) ty)
  | .min => do liftM (orNull ty (extreme? .lt (← project f items)))
  | .max => do liftM (orNull ty (extreme? .gt (← project f items)))
  | .average => do liftM (average (← project f items) ty)
  | .first => do liftM ((← pick f false items).elim (.error EvalError.emptySequence) Except.ok)
  | .last => do liftM ((← pick f true items).elim (.error EvalError.emptySequence) Except.ok)
  | .firstOrDefault => return (← pick f false items).getD (Value.defaultOf ty)
  | .lastOrDefault => return (← pick f true items).getD (Value.defaultOf ty)
  | .filter => do Eval.newSequence (← filterWhere lambda items)
  | .select => do Eval.newSequence (← selectAll lambda items)
  | .orderBy => do Eval.newSequence (← orderBy lambda false items)
  | .orderByDescending => do Eval.newSequence (← orderBy lambda true items)
  | .distinct => Eval.newSequence (distinct items)
  | .take => do Eval.newSequence (items.take (takeCount (← argument)))
  | .skip => do Eval.newSequence (items.drop (takeCount (← argument)))

end TypedExpr.Items
