import TypedExpr.Grammar
import TypedExpr.Proofs.Ensures

/-!
# Runs of the binder

What single parts of the grammar do in a given context to given tokens and to a given workspace.

* `Binder.Runs`, `Binder.Fails` — a run that gives a result, and a run that fails.
* `Binder.Runs.bind`, `Binder.Runs.of_bind`, `Binder.Fails.bind` — runs of steps one after the
  other; the other rules are about the steps that grammars are made of.
-/

namespace TypedExpr.Binder

variable {format : GuidFormat} {c : BindContext} {s s' s'' : BindState} {α β : Type} {a : α} {b : β}
  {w : Workspace} {t u : Token} {rest : List Token}

/-- The part of the grammar gives the result and leaves the second state behind. -/
def Runs (c : BindContext) (x : Binder α) (s : BindState) (a : α) (s' : BindState) : Prop :=
  x c s = (.ok a, s')

/-- The part of the grammar fails. -/
def Fails (c : BindContext) (x : Binder α) (s : BindState) : Prop :=
  ∃ e s', x c s = (.error e, s')

/-! ## Steps -/

theorem bind_apply (x : Binder α) (f : α → Binder β) (c : BindContext) (s : BindState) :
    (x >>= f) c s = match x c s with
      | (.ok a, s') => f a c s'
      | (.error e, s') => (.error e, s') := by
  show (x c >>= fun a => f a c) s = _
  rw [TypedExpr.bind_apply]
  rcases x c s with ⟨_ | _, _⟩ <;> rfl

theorem Runs.bind {x : Binder α} {f : α → Binder β} (hx : Runs c x s a s')
    (hf : Runs c (f a) s' b s'') : Runs c (x >>= f) s b s'' := by
  rw [Runs, bind_apply, hx]
  exact hf

/-- A run of a first step is the run of the steps behind it. -/
theorem Runs.bind_eq {x : Binder α} {f : α → Binder β} (hx : Runs c x s a s') :
    (x >>= f) c s = f a c s' := by
  rw [bind_apply, hx]

/-- Two steps give a result if the first gives one, for which the second does. -/
theorem Runs.of_bind {x : Binder α} {f : α → Binder β} (h : Runs c (x >>= f) s b s'') :
    ∃ a s', Runs c x s a s' ∧ Runs c (f a) s' b s'' :=
  bind_eq_ok.1 h

theorem Runs.pure : Runs c (pure a) s a s := rfl

theorem Fails.bind {x : Binder α} (f : α → Binder β) (h : Fails c x s) : Fails c (x >>= f) s := by
  obtain ⟨e, s', h⟩ := h
  exact ⟨e, s', by rw [bind_apply, h]⟩

theorem Runs.fails_bind {x : Binder α} {f : α → Binder β} (hx : Runs c x s a s')
    (hf : Fails c (f a) s') : Fails c (x >>= f) s := by
  obtain ⟨e, t, h⟩ := hf
  exact ⟨e, t, hx.bind_eq.trans h⟩

theorem fails_fail (cause : ParseCause) (offset : Nat) :
    Fails c (fail cause offset : Binder α) s :=
  ⟨_, _, rfl⟩

theorem fails_unexpected (expected : String) : Fails c (unexpected expected : Binder α) s :=
  ⟨_, _, rfl⟩

theorem runs_lift {r : Except CompileError α} (h : r = .ok a) :
    Runs c (liftM r : Binder α) s a s := by
  rw [h]
  rfl

/-! ## Tokens -/

theorem runs_current : Runs c current ⟨t :: rest, w⟩ t ⟨t :: rest, w⟩ := rfl

theorem runs_tokenCount : Runs c tokenCount s c.tokenCount s := rfl

theorem runs_advance : Runs c advance ⟨t :: u :: rest, w⟩ t ⟨u :: rest, w⟩ := rfl

/-- Nothing but a token that follows is needed to leave a token. -/
theorem runs_advance_append (ts : List Token) :
    Runs c advance ⟨t :: (ts ++ u :: rest), w⟩ t ⟨ts ++ u :: rest, w⟩ := by
  cases ts <;> exact runs_advance

theorem runs_isKind (kind : TokenKind) :
    Runs c (isKind kind) ⟨t :: rest, w⟩ (t.kind == kind) ⟨t :: rest, w⟩ := rfl

theorem runs_isSymbol (sign : Symbol) :
    Runs c (isSymbol sign) ⟨t :: rest, w⟩ (t.kind == .symbol sign) ⟨t :: rest, w⟩ := rfl

theorem runs_expect {kind : TokenKind} (h : t.kind = kind) (ts : List Token) :
    Runs c (expect kind) ⟨t :: (ts ++ u :: rest), w⟩ t ⟨ts ++ u :: rest, w⟩ := by
  refine (runs_isKind kind).bind ?_
  rw [h, beq_self_eq_true, if_pos rfl]
  exact runs_advance_append ts

theorem runs_expectEnd (h : t.kind = .finish) :
    Runs c expectEnd ⟨t :: rest, w⟩ () ⟨t :: rest, w⟩ := by
  refine (runs_isKind _).bind ?_
  rw [h, beq_self_eq_true, if_pos rfl]
  exact .pure

theorem runs_read : Runs c read s c s := rfl

/-! ## Repetition -/

/-- A chain ends where there is no step. -/
theorem chainFrom_ends {step : α → Binder (Option α)} (h : Runs c (step a) s none s) :
    ∀ fuel, Runs c (chainFrom step fuel a) s a s
  | 0 => .pure
  | _ + 1 => Runs.bind h .pure

theorem chain_ends {step : α → Binder (Option α)} (h : Runs c (step a) s none s) :
    Runs c (chain step a) s a s :=
  runs_tokenCount.bind (chainFrom_ends h _)

/-- A chain goes on where there is a step. -/
theorem chainFrom_step {step : α → Binder (Option α)} {a' : α} (fuel : Nat)
    (h : Runs c (step a) s (some a') s') :
    chainFrom step (fuel + 1) a c s = chainFrom step fuel a' c s' :=
  h.bind_eq

/-! ## The scope and the registry -/

theorem runs_scope : Runs c scope s c.scope s := rfl

theorem runs_bound {rule : Schema → Except CompileError α}
    (h : rule s.workspace.registry.schema = .ok a) : Runs c (bound rule) s a s :=
  Runs.bind (a := s.workspace.registry.schema) rfl (runs_lift h)

end TypedExpr.Binder
