import TypedExpr.Expr.Promote

/-!
# Overload resolution

Of several methods of one name, the one whose parameters cost the arguments least is called.  Of
equally cheap ones, the one that takes more arguments as they are wins; without a single winner
the call is ambiguous.

* `Overload.candidate?` — a method with the arguments promoted to its parameters.
* `Overload.rank` — which of two methods is preferred.
* `Overload.resolve` — the method to call.
-/

namespace TypedExpr

/-- Why no method was chosen: none takes the arguments, or several take them equally well. -/
inductive OverloadError
  | noApplicable
  | ambiguous (signatures : List String)
deriving DecidableEq

/-- A method that takes the arguments: the promoted arguments, their total cost, and how many of
them are taken as they are. -/
structure Overload where
  method : Method
  args : List Expr
  cost : Nat
  exactCount : Nat

namespace Overload

/-- The arguments promoted one by one to the types of parameters, if all can be. -/
def promoteAll? [GuidFormat] (s : Schema) : List Expr → List Ty → Option (List Promotion)
  | [], [] => some []
  | e :: es, t :: ts => do
    let p ← e.promote? s t true
    let ps ← promoteAll? s es ts
    return p :: ps
  | _, _ => none

/-- The method with the arguments promoted to its parameters, if it takes them. -/
def candidate? [GuidFormat] (s : Schema) (m : Method) (args : List Expr) : Option Overload :=
  (promoteAll? s args m.params).map fun ps =>
    ⟨m, ps.map (·.expr), ps.foldl (fun n p => n + p.cost) 0,
      (ps.filter Promotion.isExact).length⟩

/-- The order of preference: the cheaper one first, and of equally cheap ones the one that takes
more arguments as they are. -/
def rank (a b : Overload) : Ordering :=
  (compare a.cost b.cost).then (compare b.exactCount a.exactCount)

/-- Whether neither one is preferred to the other. -/
def isTiedWith (a b : Overload) : Bool := a.cost == b.cost && a.exactCount == b.exactCount

/-- The one to call among methods that take the arguments.  Sorting leaves tied ones in their order,
so that all which tie with the first one follow it. -/
def choose (viable : List Overload) : Except OverloadError Overload :=
  match viable.mergeSort fun a b => a.rank b != .gt with
  | [] => .error .noApplicable
  | [a] => .ok a
  | a :: b :: rest =>
    if a.isTiedWith b then
      .error (.ambiguous (((a :: b :: rest).takeWhile a.isTiedWith).map (·.method.signature)))
    else .ok a

/-- The one to call is one of those that take the arguments. -/
theorem mem_of_choose {viable : List Overload} {o : Overload} (h : choose viable = .ok o) :
    o ∈ viable := by
  unfold choose at h
  split at h
  · cases h
  next sorted =>
    cases h
    exact List.mem_mergeSort.1 (sorted ▸ List.mem_cons_self)
  next sorted =>
    split at h
    · cases h
    · cases h
      exact List.mem_mergeSort.1 (sorted ▸ List.mem_cons_self)

/-- The method to call among some of one name. -/
def resolve [GuidFormat] (s : Schema) (methods : List Method) (args : List Expr) :
    Except OverloadError Overload :=
  choose (methods.filterMap fun m => candidate? s m args)

end Overload

end TypedExpr
