import TypedExpr.Binder
import TypedExpr.Proofs.Precedence.Running

/-!
# Two runs side by side

A logic for two parts of the grammar that are run next to each other.  Started in related states,
both fail, or both give results, and then the results and the states left behind are related.

* `Binder.Coupled` — the two parts of the grammar keep step.
* `Binder.Coupled.bind` — the rule for steps one after the other; the other rules follow the shape
  of a part of the grammar.
-/

namespace TypedExpr.Binder

variable {format : GuidFormat} {α β γ δ : Type} {c c' : BindContext}
  {P P' : BindState → BindState → Prop} {Q Q' : α → β → BindState → BindState → Prop}

/-- Two runs failed both, or gave results and left states behind that are related. -/
def Agree (Q : α → β → BindState → BindState → Prop) :
    Except CompileError α × BindState → Except CompileError β × BindState → Prop
  | (.ok a, s), (.ok b, s') => Q a b s s'
  | (.error _, _), (.error _, _) => True
  | _, _ => False

/-- Started in states of the first relation, the two parts of the grammar both fail, or end in
results and states of the second one. -/
def Coupled (c c' : BindContext) (P : BindState → BindState → Prop) (x : Binder α) (y : Binder β)
    (Q : α → β → BindState → BindState → Prop) : Prop :=
  ∀ s s', P s s' → Agree Q (x c s) (y c' s')

/-! ## Results -/

theorem Agree.mono {r : Except CompileError α × BindState} {r' : Except CompileError β × BindState}
    (h : Agree Q r r') (hQ : ∀ a b s s', Q a b s s' → Q' a b s s') : Agree Q' r r' := by
  rcases r with ⟨_ | a, s⟩ <;> rcases r' with ⟨_ | b, s'⟩
  · trivial
  · exact h
  · exact h
  · exact hQ a b s s' h

/-- Next to a run with a result, the other run has a result too. -/
theorem Agree.exists_ok {r : Except CompileError β × BindState} {a : α} {s : BindState}
    (h : Agree Q (.ok a, s) r) : ∃ b s', r = (.ok b, s') ∧ Q a b s s' := by
  rcases r with ⟨_ | b, s'⟩
  · exact h.elim
  · exact ⟨b, s', rfl, h⟩

/-- Next to a failed run, the other run failed too. -/
theorem Agree.exists_error {r : Except CompileError β × BindState} {e : CompileError}
    {s : BindState} (h : Agree Q (.error e, s) r) : ∃ e' s', r = (.error e', s') := by
  rcases r with ⟨e' | b, s'⟩
  · exact ⟨e', s', rfl⟩
  · exact h.elim

/-! ## Steps -/

theorem Coupled.pure {a : α} {b : β} (h : ∀ s s', P s s' → Q a b s s') :
    Coupled c c' P (pure a) (pure b) Q := h

theorem Coupled.bind {R : γ → δ → BindState → BindState → Prop} {x : Binder α} {y : Binder β}
    {f : α → Binder γ} {g : β → Binder δ} (hx : Coupled c c' P x y Q)
    (hf : ∀ a b, Coupled c c' (Q a b) (f a) (g b) R) : Coupled c c' P (x >>= f) (y >>= g) R := by
  intro s s' hs
  have h := hx s s' hs
  rw [bind_apply, bind_apply]
  rcases hr : x c s with ⟨_ | a, s₁⟩ <;> rcases hr' : y c' s' with ⟨_ | b, s₂⟩ <;>
    rw [hr, hr'] at h
  · trivial
  · exact h.elim
  · exact h.elim
  · exact hf a b s₁ s₂ h

theorem Coupled.mono {x : Binder α} {y : Binder β} (h : Coupled c c' P x y Q)
    (hP : ∀ s s', P' s s' → P s s') (hQ : ∀ a b s s', Q a b s s' → Q' a b s s') :
    Coupled c c' P' x y Q' :=
  fun s s' hs => (h s s' (hP s s' hs)).mono hQ

/-- More is known of the states in the beginning. -/
theorem Coupled.of {x : Binder α} {y : Binder β} (h : Coupled c c' P x y Q)
    (hP : ∀ s s', P' s s' → P s s') : Coupled c c' P' x y Q :=
  h.mono hP fun _ _ _ _ => id

/-- What holds without regard to the states can be used throughout. -/
theorem Coupled.assume {p : Prop} {x : Binder α} {y : Binder β}
    (h : p → Coupled c c' P x y Q) : Coupled c c' (fun s s' => p ∧ P s s') x y Q :=
  fun s s' ⟨hp, hs⟩ => h hp s s' hs

theorem Agree.of_fails {x : Binder α} {y : Binder β} {s s' : BindState} (hx : Fails c x s)
    (hy : Fails c' y s') : Agree Q (x c s) (y c' s') := by
  obtain ⟨e, t, h⟩ := hx
  obtain ⟨e', t', h'⟩ := hy
  rw [h, h']
  trivial

/-- Two runs that fail whatever the states are. -/
theorem Coupled.fails {x : Binder α} {y : Binder β} (hx : ∀ s, Fails c x s)
    (hy : ∀ s, Fails c' y s) : Coupled c c' P x y Q :=
  fun s s' _ => .of_fails (hx s) (hy s')

theorem fail_coupled (cause cause' : ParseCause) (offset offset' : Nat) :
    Coupled c c' P (fail cause offset : Binder α) (fail cause' offset' : Binder β) Q :=
  fun _ _ _ => trivial

theorem throw_coupled (e e' : CompileError) :
    Coupled c c' P (throw e : Binder α) (throw e' : Binder β) Q :=
  fun _ _ _ => trivial

theorem unexpected_coupled (expected expected' : String) :
    Coupled c c' P (unexpected expected : Binder α) (unexpected expected' : Binder β) Q :=
  .fails (fun _ => fails_unexpected _) fun _ => fails_unexpected _

/-- Two results that are values together give the same. -/
theorem lift_coupled {r r' : Except CompileError α} (h : ∀ v, r = .ok v ↔ r' = .ok v) :
    Coupled c c' P (liftM r : Binder α) (liftM r' : Binder α) fun a b s s' => a = b ∧ P s s' := by
  intro s s' hs
  cases r with
  | ok v =>
    rw [(h v).1 rfl]
    exact ⟨rfl, hs⟩
  | error e =>
    cases r' with
    | ok v => cases (h v).2 rfl
    | error e' => trivial

theorem read_coupled :
    Coupled c c' P read read fun a b s s' => (a = c ∧ b = c') ∧ P s s' :=
  fun _ _ hs => ⟨⟨rfl, rfl⟩, hs⟩

theorem inScope_coupled {t : Ty} {alias? : Option String} {x : Binder α} {y : Binder β}
    (h : Coupled { c with scope := c.scope.push t alias? }
      { c' with scope := c'.scope.push t alias? } P x y Q) :
    Coupled c c' P (inScope t alias? x) (inScope t alias? y) Q := h

end TypedExpr.Binder
