import TypedExpr.Proofs.Evaluation.Indifferent
import TypedExpr.Proofs.Typing.Compile

/-!
# Scopes and frames

A parameter names a frame by its number.  Numbers are given out while a text is read, and frames
are listed again while the tree is evaluated; both count the lambdas around the parameter.

* **`Source.parse_scoped`** — a parameter of the tree of a text names the frame of the element or of
  a lambda around it, has the type of its items, and evaluates to the item of that lambda.
-/

namespace TypedExpr

namespace Expr

variable {format : GuidFormat} {P : Premises} {root : Ty} {e : Expr} {receivers : List Expr}
  {depth : Nat} {t : Ty}

/-- A parameter has the type of a frame. -/
theorem Typed.getElem?_of_parameter {Γ : List Ty} (h : (Expr.parameter depth t).Typed P Γ) :
    Γ[depth]? = some t := by
  cases h with
  | parameter frame => exact frame

/-- A parameter under lambdas has the type of the element or of the items of one of their
receivers. -/
theorem Typed.occurs_parameter (h : e.Typed P [root])
    (ho : e.Occurs receivers (.parameter depth t)) :
    (depth = 0 ∧ t = root) ∨
      ∃ k receiver, depth = k + 1 ∧ receivers[k]? = some receiver ∧
        receiver.ty.element? = some t := by
  obtain ⟨items, hi, typed⟩ := h.occurs ho
  have frame : (root :: items)[depth]? = some t := typed.getElem?_of_parameter
  cases depth with
  | zero =>
    cases frame
    exact Or.inl ⟨rfl, rfl⟩
  | succ k =>
    obtain ⟨receiver, hr, element⟩ := getElem?_of_forall₂ hi frame
    exact Or.inr ⟨k, receiver, rfl, hr, element⟩

/-- A parameter evaluates to the value of its frame. -/
theorem evaluate_parameter {frames : List Value} {v : Value} (h : frames[depth]? = some v) :
    (Expr.parameter depth t).evaluate frames = pure v := by
  rw [evaluate, h]

end Expr

namespace Source

section

variable {format : GuidFormat} {source : Source} {w : Workspace} {e : Expr}

/-- **Parameters name the frames of the lambdas around them.**  A parameter under lambdas has at
most their number; it has the type of the element, or of the items of the receiver of the lambda
that it counts.  No evaluation misses a frame, unless code from outside that it runs says so, and at
each place a parameter evaluates to the element, or to the item that this lambda is applied to. -/
theorem parse_scoped (parsed : (source.parse w).1 = .ok e) :
    (∀ receivers depth t, e.Occurs receivers (.parameter depth t) → depth ≤ receivers.length ∧
      ((depth = 0 ∧ t = source.element) ∨
        ∃ k receiver, depth = k + 1 ∧ receivers[k]? = some receiver ∧
          receiver.ty.element? = some t)) ∧
    ∀ v : Value,
      (∀ s s' depth, e.invoke v s = (.error (.noFrame depth), s') →
        e.FailsNatively w.registry.schema [v] s (.noFrame depth) s') ∧
      ∀ bound depth t frames, e.Reaches [v] bound (.parameter depth t) frames →
        (depth = 0 ∧ t = source.element ∧ (Expr.parameter depth t).evaluate frames = pure v) ∨
          ∃ k receiver item, depth = k + 1 ∧ bound[k]? = some (receiver, item) ∧
            receiver.ty.element? = some t ∧
            (Expr.parameter depth t).evaluate frames = pure item := by
  have typed : e.Typed (source.premises w False False) [source.element] :=
    parse_typed parsed nofun nofun
  refine ⟨?_, fun v => ⟨?_, ?_⟩⟩
  · intro receivers depth t ho
    have place := typed.occurs_parameter ho
    refine ⟨?_, place⟩
    rcases place with ⟨rfl, -⟩ | ⟨k, receiver, rfl, hr, -⟩
    · exact Nat.zero_le _
    · obtain ⟨hk, -⟩ := List.getElem?_eq_some_iff.1 hr
      exact hk
  · intro s s' depth run
    have fails := (typed.evaluate (indifferent _) (.cons (a := v) trivial .nil)
      fun _ => trivial).of_error run
    cases fails with
    | expected bound => cases bound
    | native h => exact h
    | refused h =>
      obtain ⟨x, t, inner, u, t', -, -, -, cast⟩ := h
      cases (Value.cast_fails u t).error _ cast
  · intro bound depth t frames reached
    have framed : frames = v :: bound.map Prod.snd := reached.frames_eq
    rcases typed.occurs_parameter reached.occurs with ⟨rfl, rfl⟩ | ⟨k, receiver, rfl, hr, element⟩
    · exact Or.inl ⟨rfl, rfl, Expr.evaluate_parameter (by rw [framed]; rfl)⟩
    · rw [List.getElem?_map] at hr
      obtain ⟨⟨_, item⟩, hb, rfl⟩ := Option.map_eq_some_iff.1 hr
      refine Or.inr ⟨k, _, item, rfl, hb, element, Expr.evaluate_parameter ?_⟩
      rw [framed, List.getElem?_cons_succ, List.getElem?_map, hb]
      rfl

/-! ## An implied selector -/

/-- A sum without a selector inside of a lambda. -/
def sumWithinAny : Source := ⟨"$.Any($ > ^.Sum())", .sequence (.int .int32), [], true⟩

/-- The tree of `sumWithinAny`.  The selector that the sum implies is under two lambdas. -/
def sumWithinAnyTree : Expr :=
  let numbers := Expr.parameter 0 (.sequence (.int .int32))
  let item (depth : Nat) := Expr.parameter depth (.int .int32)
  let sum := Expr.sequenceCall numbers .sum (some (item 2)) none (.int .int32)
  .sequenceCall numbers .any (some (.binary (.compare .gt) (item 1) sum .boolean)) none .boolean

end

set_option maxRecDepth 4000 in
/-- The implied selector of a sum inside of a lambda evaluates to the item of the sum, not to that
of the lambda around it. -/
theorem parse_scoped_impliedSelector :
    let numbers : Value := .sequence 0 [Value.int32 3, Value.int32 4]
    let receiver := Expr.parameter 0 (.sequence (.int .int32))
    let selector := Expr.parameter 2 (.int .int32)
    let frames := [numbers, Value.int32 3, Value.int32 4]
    (sumWithinAny.parse Workspace.empty).1 = .ok sumWithinAnyTree ∧
      sumWithinAnyTree.Reaches [numbers] [(receiver, Value.int32 3), (receiver, Value.int32 4)]
        selector frames ∧
      selector.evaluate frames = pure (Value.int32 4) := by
  intro numbers receiver selector frames
  have parsed : (sumWithinAny.parse Workspace.empty).1 = .ok sumWithinAnyTree := rfl
  have reached : sumWithinAnyTree.Reaches [numbers]
      [(receiver, Value.int32 3), (receiver, Value.int32 4)] selector frames := by
    refine .body (s := .empty) rfl rfl rfl List.mem_cons_self ?_
    refine .part (List.mem_cons_of_mem _ List.mem_cons_self) ?_
    refine .body (s := .empty) rfl rfl rfl ?_ (.refl _ _)
    exact List.mem_cons_of_mem _ List.mem_cons_self
  refine ⟨parsed, reached, ?_⟩
  rcases ((parse_scoped parsed).2 numbers).2 _ _ _ _ reached with ⟨depth, -⟩ | place
  · cases depth
  · obtain ⟨k, receiver, item, depth, found, -, evaluated⟩ := place
    cases depth
    cases found
    exact evaluated

end Source

end TypedExpr
