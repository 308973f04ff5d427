import TypedExpr.Compile

/-!
# Ordering keys

Sorting by several keys, each of them ascending or descending.

* `OrderingKey.compare` — the order of two elements by one key.
* `OrderingKey.sortBy` — a stable sort, earlier keys first.
-/

namespace TypedExpr

variable [GuidFormat]

/-- An expression to sort by, and whether the greatest value comes first. -/
structure OrderingKey where
  key : Expr
  descending : Bool

namespace OrderingKey

/-- The whole text as ordering keys. -/
def compile (source : Source) (w : Workspace) :
    Except CompileError (List OrderingKey) × Workspace :=
  let (result, w) := source.parseOrdering w
  (result.map fun clauses => clauses.map fun c => ⟨c.1, c.2⟩, w)

/-- The order of two elements by one key. -/
def compare (k : OrderingKey) (a b : Value) : Eval Ordering := do
  let x ← k.key.invoke a
  let y ← k.key.invoke b
  return Items.compareKeys k.descending x y

/-- The values of all keys for an element. -/
def valuesAt (keys : List OrderingKey) (element : Value) : Eval (List Value) :=
  keys.mapM fun k => k.key.invoke element

/-- Elements with the values of all keys. -/
def keyed (keys : List OrderingKey) : List Value → Eval (List (List Value × Value))
  | [] => return []
  | v :: rest => do
    let values ← valuesAt keys v
    let others ← keyed keys rest
    return (values, v) :: others

/-- The order of two lists of key values: the first key that tells them apart decides. -/
def compareAll : List OrderingKey → List Value → List Value → Ordering
  | k :: keys, a :: as, b :: bs =>
    (Items.compareKeys k.descending a b).then (compareAll keys as bs)
  | _, _, _ => .eq

/-- The elements sorted by the keys; elements that no key tells apart stay in their order. -/
def sortBy (keys : List OrderingKey) (items : List Value) : Eval (List Value) := do
  let pairs ← keyed keys items
  return (Items.sortBy (fun a b => compareAll keys a.1 b.1) pairs).map Prod.snd

end OrderingKey

end TypedExpr
