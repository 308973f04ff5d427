import TypedExpr.Proofs.Evaluation.Nodes

/-!
# Evaluation under a reading

Typed trees evaluate to values of their types, whatever the reading, and it is known where their
errors come from: from an operation as the reading expects it, or from a node that the run itself
evaluates.

* `Expr.LosesNull` — the run shifts by null where the type of the shift does not have null.
* `Expr.Fails` — the errors of a run: those of the reading, those that code from outside returned,
  and the casts of mere objects that were refused.
* **`Expr.Typed.evaluate`** — the evaluation of a typed tree.
-/

namespace TypedExpr

variable {format : GuidFormat}

namespace Expr

/-- On its way, the evaluation shifts by null where the type of the shift does not have null. -/
def LosesNull [GuidFormat] (e : Expr) (frames : List Value) (s : Store) : Prop :=
  ∃ op x y t inner v u u' u'', e.Visits frames s (.binary (.shift op) x y t) inner u ∧
    t.isNullable = false ∧ x.evaluate inner u = (.ok v, u') ∧
    y.evaluate inner u' = (.ok .null, u'')

/-- On its way, the evaluation comes to a cast that refuses a mere object with the error and leaves
the last store. -/
def RefusesCast [GuidFormat] (e : Expr) (frames : List Value) (s : Store) (err : EvalError)
    (s' : Store) : Prop :=
  ∃ x t inner v u, e.Visits frames s (.convert x none t) inner u ∧ x.ty.nonNullable = .object ∧
    x.evaluate inner u = (.ok v, s') ∧ v.cast t = .error err

/-- How a run that ends with an error came to it: as expected, or because code from outside returned
it, or because a cast refused a mere object. -/
inductive Fails [GuidFormat] (schema : Schema) (H : EvalError → Prop) (e : Expr)
    (frames : List Value) (s : Store) (err : EvalError) (s' : Store) : Prop
  | expected (h : H err)
  | native (h : e.FailsNatively schema frames s err s')
  | refused (h : e.RefusesCast frames s err s')

variable {P : Premises} {lax : Prop} {V : Value → Ty → Prop} {H : EvalError → Prop} {Γ : List Ty}
  {schema : Schema} {e p : Expr} {frames inner : List Value} {s t s' : Store} {err : EvalError}

/-- **A run in which a cast refused an object ends with the error of the cast.** -/
theorem RefusesCast.evaluate (h : e.RefusesCast frames s err s') :
    e.evaluate frames s = (.error err, s') := by
  obtain ⟨x, t, inner, v, u, visits, -, run, cast⟩ := h
  refine visits.fails ((bind_of_ok run _).trans ?_)
  rw [cast]
  rfl

/-! ## Runs without shifts by null -/

/-- Whether the expression is a shift. -/
def isShift : Expr → Bool
  | .binary (.shift _) .. => true
  | _ => false

/-- Null is lost neither at a node that is no shift nor in what the run begins there. -/
theorem not_losesNull_of_starts (other : e.isShift = false)
    (begun : ∀ p inner t, e.Starts frames s p inner t → ¬ p.LosesNull inner t) :
    ¬ e.LosesNull frames s := by
  rintro ⟨op, x, y, t, inner, v, u, u', u'', visits, h⟩
  cases visits with
  | refl => cases other
  | step starts visits =>
    exact begun _ _ _ starts ⟨op, x, y, t, inner, v, u, u', u'', visits, h⟩

/-- No shift occurs in the tree. -/
def Shiftless (e : Expr) : Prop :=
  ∀ receivers op x y t, ¬ e.Occurs receivers (.binary (.shift op) x y t)

theorem Shiftless.of_parts (plain : e.lambda? = none) (other : e.isShift = false)
    (parts : ∀ p ∈ e.parts, p.Shiftless) : e.Shiftless := by
  intro receivers op x y t occurs
  rcases occurs.eq_or_part plain with rfl | ⟨p, hp, inside⟩
  · cases other
  · exact parts p hp receivers op x y t inside

theorem shiftless_literal (v : Value) (t : Ty) : (literal v t).Shiftless :=
  .of_parts rfl rfl (List.forall_mem_nil _)

theorem shiftless_parameter (depth : Nat) (t : Ty) : (parameter depth t).Shiftless :=
  .of_parts rfl rfl (List.forall_mem_nil _)

theorem shiftless_placeholder (i : Nat) (value : ParameterValue) (t : Ty) :
    (placeholder i value t).Shiftless :=
  .of_parts rfl rfl (List.forall_mem_nil _)

/-- Where no shift occurs, none shifts by null. -/
theorem Shiftless.not_losesNull (h : e.Shiftless) : ¬ e.LosesNull frames s := by
  rintro ⟨op, x, y, t, inner, v, u, u', u'', visits, -⟩
  obtain ⟨receivers, occurs⟩ := visits.occurs
  exact h receivers op x y t occurs

/-! ## Parts -/

theorem LosesNull.of_starts (starts : e.Starts frames s p inner t) (h : p.LosesNull inner t) :
    e.LosesNull frames s := by
  obtain ⟨op, x, y, ty, deep, v, u, u', u'', visits, h⟩ := h
  exact ⟨op, x, y, ty, deep, v, u, u', u'', .step starts visits, h⟩

/-- The errors of an evaluation that is begun are errors of the one that began it. -/
theorem Fails.of_starts (starts : e.Starts frames s p inner t)
    (h : p.Fails schema H inner t err s') : e.Fails schema H frames s err s' := by
  cases h with
  | expected h => exact .expected h
  | native h =>
    obtain ⟨q, deep, u, visits, fails⟩ := h
    exact .native ⟨q, deep, u, .step starts visits, fails⟩
  | refused h =>
    obtain ⟨x, ty, deep, v, u, visits, h⟩ := h
    exact .refused ⟨x, ty, deep, v, u, .step starts visits, h⟩

theorem Fails.of_outside (h : e.FailsOutside schema frames s err s') :
    e.Fails schema H frames s err s' :=
  .native ⟨e, frames, s, .refl e frames s, h⟩

/-! ## Trees -/

/-- **A typed tree evaluates to a value of its type**, or fails as expected, or because code from
outside did, or because a cast refused a mere object. -/
theorem Typed.evaluate (R : Reading P lax V H) (h : e.Typed P Γ) (hf : List.Forall₂ V frames Γ)
    (hs : e.LosesNull frames s → lax) :
    e.Evaluates V (e.Fails P.schema H frames s) frames s := by
  -- the errors of the parts are errors of the tree, with a longer way to the node that failed
  have begun {e p : Expr} {frames inner : List Value} {s t : Store}
      (hs : e.LosesNull frames s → lax) (starts : e.Starts frames s p inner t)
      (h : (p.LosesNull inner t → lax) →
        p.Evaluates V (p.Fails P.schema H inner t) inner t) :
      p.Evaluates V (e.Fails P.schema H frames s) inner t :=
    (h fun hl => hs (hl.of_starts starts)).mono_error fun _ _ => .of_starts starts
  have own {e : Expr} {frames : List Value} {s : Store} :
      ∀ err s', H err → e.Fails P.schema H frames s err s' := fun _ _ => .expected
  induction h generalizing frames s with
  | literal constant _ => exact .pure (R.admits constant)
  | parameter frame =>
    obtain ⟨v, hv, typed⟩ := getElem?_of_forall₂ hf frame
    rw [Evaluates, Expr.evaluate, hv]
    exact .pure typed
  | constant _ constant _ => exact .pure (R.admits constant)
  | deferred declared =>
    exact .of_run (fun _ _ given => R.deferred declared given) fun _ _ failed =>
      .of_outside (.deferred failed)
  | member _ known dynamic target =>
    refine .member R own known dynamic ?_
    exact fun _ starts => begun hs starts (target hf)
  | call _ known _ types target each =>
    refine .call R own known types ?_ ?_ fun _ _ => .of_outside
    · exact fun _ starts => begun hs starts (target hf)
    · exact fun a ha _ starts => begun hs starts (each a ha hf)
  | sequenceCall _ element _ _ fits target body value =>
    refine .sequenceCall R own element fits ?_ ?_ ?_
    · exact fun _ starts => begun hs starts (target hf)
    · rintro b ⟨⟩ i u hi starts
      exact begun hs starts (body b rfl (List.rel_append hf (.cons hi .nil)))
    · rintro a ⟨⟩ _ starts
      exact begun hs starts (value a rfl hf)
  | arithmetic _ _ leftTy rightTy number left right =>
    refine .arithmetic R own leftTy rightTy number ?_ ?_
    · exact fun _ starts => begun hs starts (left hf)
    · exact fun _ starts => begun hs starts (right hf)
  | bitwise _ _ leftTy rightTy bits left right =>
    refine .bitwise R own leftTy rightTy bits ?_ ?_
    · exact fun _ starts => begun hs starts (left hf)
    · exact fun _ starts => begun hs starts (right hf)
  | @shift _ op x y t _ _ leftTy rightTy bits left right =>
    refine .shift R own leftTy rightTy bits ?_ ?_ ?_
    · exact fun _ starts => begun hs starts (left hf)
    · exact fun _ starts => begun hs starts (right hf)
    · intro v u u' run null
      cases ht : t.isNullable with
      | true => exact Or.inl rfl
      | false => exact Or.inr (hs ⟨op, x, y, t, frames, v, s, u, u', .refl _ _ _, ht, run, null⟩)
  | compare _ _ _ _ left right =>
    refine .compare R ?_ ?_
    · exact fun _ starts => begun hs starts (left hf)
    · exact fun _ starts => begun hs starts (right hf)
  | logical _ _ _ rightTy left right =>
    refine .logical R rightTy ?_ ?_
    · exact fun _ starts => begun hs starts (left hf)
    · exact fun _ starts => begun hs starts (right hf)
  | concat _ _ left right =>
    refine .concat R ?_ ?_
    · exact fun _ starts => begun hs starts (left hf)
    · exact fun _ starts => begun hs starts (right hf)
  | unary _ takes operand =>
    exact .unary R own takes fun _ starts => begun hs starts (operand hf)
  | conditional _ _ _ _ same test whenTrue whenFalse =>
    refine .conditional same ?_ ?_ ?_
    · exact fun _ starts => begun hs starts (test hf)
    · exact fun _ starts => begun hs starts (whenTrue hf)
    · exact fun _ starts => begun hs starts (whenFalse hf)
  | index _ _ positionTy indexed target position =>
    refine .index R own positionTy indexed ?_ ?_
    · exact fun _ starts => begun hs starts (target hf)
    · exact fun _ starts => begun hs starts (position hf)
  | @convert _ x t _ casts _ operand =>
    refine .convert R own casts ?_ ?_
    · exact fun _ starts => begun hs starts (operand hf)
    · intro object v s' err run cast
      exact .refused ⟨x, t, frames, v, s, .refl _ _ _, object, run, cast⟩
  | convertUser _ declared source _ operand =>
    refine .convertUser R declared source ?_ fun _ _ => .of_outside
    exact fun _ starts => begun hs starts (operand hf)
  | customCompare _ _ _ left right =>
    refine .customCompare R ?_ ?_ fun _ _ => .of_outside
    · exact fun _ starts => begun hs starts (left hf)
    · exact fun _ starts => begun hs starts (right hf)
  | new _ types each =>
    refine .new R types ?_
    exact fun f hm _ starts => begun hs starts (each f hm hf)

end Expr

end TypedExpr
