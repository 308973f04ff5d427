import Mathlib.Data.List.Perm.Basic
import TypedExpr.Proofs.Evaluation.Fusion

/-!
# Selected values

What a lambda gives for the items of a sequence.  A lambda may read from sources that give another
value each time, so that the values of one run need not be those of another one; where they are,
another order of the items puts the values in another order and does nothing else.

* `Items.MapsTo` — the values that a function gives for items in every run.
* `Items.MapsTo.perm` — these values for the items in another order.
* `Items.selectAll_bind_run` — the values of one run, converted.
* `Expr.GivesItems` — the items of a receiver.
-/

namespace TypedExpr

variable {format : GuidFormat}

namespace Items

variable {f : Selector} {g : Value → Eval Value} {h : Value → Value}
  {items items' values : List Value} {s s' : Store}

/-- Whatever was built or read before, the function gives these values for the items. -/
def MapsTo (f : Selector) : List Value → List Value → Prop :=
  List.Forall₂ fun item v => ∀ s, (f item s).1 = .ok v

/-- Such values are selected in every run. -/
theorem MapsTo.selectAll (maps : MapsTo f items values) (s : Store) :
    ∃ s', selectAll f items s = (.ok values, s') := by
  induction maps generalizing s with
  | nil => exact ⟨s, rfl⟩
  | @cons item v items values first _ ih =>
    obtain ⟨s', rest⟩ := ih (f item s).2
    have here : f item s = (.ok v, (f item s).2) := Prod.ext (first s) rfl
    exact ⟨s', bind_eq_ok.2 ⟨v, _, here, bind_eq_ok.2 ⟨values, s', rest, rfl⟩⟩⟩

/-- **In another order of the items, the same values are selected in another order.** -/
theorem MapsTo.perm (maps : MapsTo f items values) (perm : items.Perm items') :
    ∃ values', values.Perm values' ∧ MapsTo f items' values' := by
  obtain ⟨values', maps', perm'⟩ := List.perm_comp_forall₂ perm.symm maps
  exact ⟨values', perm'.symm, maps'⟩

/-- A method that takes a lambda or none selects the values of the lambda, or the items. -/
theorem project_eq (f? : Option Selector) (items : List Value) :
    project f? items = Items.selectAll (f?.getD pure) items := by
  cases f? with
  | none => exact (selectAll_pure items).symm
  | some f => rfl

/-- Where the values of a run are converted without fail, they are selected converted. -/
theorem selectAll_bind_run (run : selectAll f items s = (.ok values, s'))
    (converts : ∀ v ∈ values, g v = pure (h v)) :
    selectAll (fun item => f item >>= g) items s = (.ok (values.map h), s') := by
  induction items generalizing s values with
  | nil =>
    cases run
    rfl
  | cons item items ih =>
    obtain ⟨v, t, here, run⟩ := bind_eq_ok.1 run
    obtain ⟨vs, t', rest, run⟩ := bind_eq_ok.1 run
    cases run
    obtain ⟨first, others⟩ := List.forall_mem_cons.1 converts
    have converted : (f item >>= g) s = (.ok (h v), t) := by
      rw [bind_of_ok here]
      exact congrFun first t
    exact bind_eq_ok.2 ⟨h v, t, converted, bind_eq_ok.2 ⟨vs.map h, s', ih rest others, rfl⟩⟩

end Items

/-- The receiver of a method of sequences gives a sequence or a grouping of these items. -/
def Expr.GivesItems [GuidFormat] (target : Expr) (frames : List Value) (s : Store)
    (items : List Value) (s' : Store) : Prop :=
  ∃ v, target.evaluate frames s = (.ok v, s') ∧ v.items? = some items

end TypedExpr
