import TypedExpr.Binder

/-!
# What a computation ensures

Partial correctness of computations that may fail and that work on a state.  An invariant of the
state holds before and after, whether the computation succeeds or not; a value satisfies one
predicate, an error another.

* `Meets` — what holds of a result, be it a value or an error.
* `Ensures` — what a computation does to every state of an invariant.
* `Ensures.bind` — the rule for steps one after the other; the other rules follow the shape of a
  computation.
* `EnsuresAt` — what a computation does to one state; what comes later knows the run so far.
-/

namespace TypedExpr

variable {ε σ α β : Type}

/-! ## Results -/

/-- The value of a result lies in `Q`, or its error in `E`. -/
structure Meets (r : Except ε α) (Q : α → Prop) (E : ε → Prop) : Prop where
  ok : ∀ a, r = .ok a → Q a
  error : ∀ e, r = .error e → E e

@[simp] theorem meets_ok {Q : α → Prop} {E : ε → Prop} {a : α} :
    Meets (.ok a) Q E ↔ Q a := by
  constructor
  · intro h
    exact h.ok a rfl
  · intro h
    constructor
    · rintro _ ⟨⟩
      exact h
    · rintro _ ⟨⟩

@[simp] theorem meets_error {Q : α → Prop} {E : ε → Prop} {e : ε} :
    Meets (.error e : Except ε α) Q E ↔ E e := by
  constructor
  · intro h
    exact h.error e rfl
  · intro h
    constructor
    · rintro _ ⟨⟩
    · rintro _ ⟨⟩
      exact h

theorem Meets.mono {r : Except ε α} {Q Q' : α → Prop} {E E' : ε → Prop} (h : Meets r Q E)
    (hQ : ∀ a, Q a → Q' a) (hE : ∀ e, E e → E' e) : Meets r Q' E' :=
  ⟨fun a hr => hQ a (h.ok a hr), fun e hr => hE e (h.error e hr)⟩

/-- The value is what it was; less is known of the error. -/
theorem Meets.mono_error {r : Except ε α} {Q : α → Prop} {E E' : ε → Prop} (h : Meets r Q E)
    (hE : ∀ e, E e → E' e) : Meets r Q E' :=
  h.mono (fun _ => id) hE

theorem Meets.map {r : Except ε α} {f : α → β} {Q : β → Prop} {E : ε → Prop}
    (h : Meets r (fun a => Q (f a)) E) : Meets (r.map f) Q E := by
  cases r with
  | ok a => exact meets_ok.2 (h.ok a rfl)
  | error e => exact meets_error.2 (h.error e rfl)

theorem Meets.bind {r : Except ε α} {f : α → Except ε β} {Q : α → Prop} {Q' : β → Prop}
    {E : ε → Prop} (h : Meets r Q E) (hf : ∀ a, Q a → Meets (f a) Q' E) :
    Meets (r >>= f) Q' E := by
  cases r with
  | ok a => exact hf a (meets_ok.1 h)
  | error e => exact meets_error.2 (meets_error.1 h)

/-- What cannot fail gives a value. -/
theorem Meets.exists_ok {r : Except ε α} {Q : α → Prop} (h : Meets r Q fun _ => False) :
    ∃ a, r = .ok a ∧ Q a := by
  cases r with
  | ok a => exact ⟨a, rfl, meets_ok.1 h⟩
  | error e => exact (meets_error.1 h).elim

/-- A fold keeps what each of its steps keeps. -/
theorem Meets.foldlM {f : β → α → Except ε β} {Q : β → Prop} {E : ε → Prop} {as : List α} {b : β}
    (init : Q b) (step : ∀ b, Q b → ∀ a ∈ as, Meets (f b a) Q E) : Meets (as.foldlM f b) Q E := by
  induction as generalizing b with
  | nil => exact meets_ok.2 init
  | cons a as ih =>
    rw [List.foldlM_cons]
    refine (step b init a List.mem_cons_self).bind fun b' hb => ih hb ?_
    intro c hc d hd
    exact step c hc d (List.mem_cons_of_mem _ hd)

/-- The value of two steps comes from a value of the first. -/
theorem exists_of_bind_eq_ok {r : Except ε α} {f : α → Except ε β} {b : β}
    (h : (r >>= f) = .ok b) : ∃ a, r = .ok a ∧ f a = .ok b := by
  cases r with
  | ok a => exact ⟨a, rfl, h⟩
  | error e => cases h

/-- The error of two steps is that of the first, or of the second behind a value of the first. -/
theorem of_bind_eq_error {r : Except ε α} {f : α → Except ε β} {e : ε}
    (h : (r >>= f) = .error e) : r = .error e ∨ ∃ a, r = .ok a ∧ f a = .error e := by
  cases r with
  | ok a => exact Or.inr ⟨a, rfl, h⟩
  | error e' =>
    cases h
    exact Or.inl rfl

/-! ## Computations -/

/-- Started in a state of the invariant `I`, the computation ends in one, and its result has its
value in `Q` or its error in `E`. -/
def Ensures (I : σ → Prop) (x : ExceptT ε (StateM σ) α) (Q : α → Prop) (E : ε → Prop) : Prop :=
  ∀ s, I s → I (x s).2 ∧ Meets (x s).1 Q E

/-- One run of two steps. -/
theorem bind_apply (x : ExceptT ε (StateM σ) α) (f : α → ExceptT ε (StateM σ) β) (s : σ) :
    (x >>= f) s = match x s with
      | (.ok a, s') => f a s'
      | (.error e, s') => (.error e, s') := by
  show (ExceptT.bind x f) s = _
  simp only [ExceptT.bind, ExceptT.mk, bind, StateT.bind, ExceptT.bindCont]
  rcases x s with ⟨_ | _, _⟩ <;> rfl

/-- Two steps give a value if the first gives one, for which the second does. -/
theorem bind_eq_ok {x : ExceptT ε (StateM σ) α} {f : α → ExceptT ε (StateM σ) β} {s s' : σ}
    {b : β} : (x >>= f) s = (.ok b, s') ↔ ∃ a t, x s = (.ok a, t) ∧ f a t = (.ok b, s') := by
  rw [bind_apply]
  constructor
  · intro h
    rcases run : x s with ⟨e | a, t⟩ <;> rw [run] at h
    · cases h
    · exact ⟨a, t, rfl, h⟩
  · rintro ⟨a, t, run, h⟩
    rw [run]
    exact h

section Rules

variable {I : σ → Prop} {Q : α → Prop} {E : ε → Prop}

theorem Ensures.pure {a : α} (h : Q a) : Ensures I (pure a : ExceptT ε (StateM σ) α) Q E :=
  fun _ hs => ⟨hs, meets_ok.2 h⟩

theorem Ensures.throw {e : ε} (h : E e) : Ensures I (throw e : ExceptT ε (StateM σ) α) Q E :=
  fun _ hs => ⟨hs, meets_error.2 h⟩

theorem Ensures.bind {Q' : β → Prop} {x : ExceptT ε (StateM σ) α}
    {f : α → ExceptT ε (StateM σ) β} (hx : Ensures I x Q E)
    (hf : ∀ a, Q a → Ensures I (f a) Q' E) : Ensures I (x >>= f) Q' E := by
  intro s hs
  have h := hx s hs
  rw [bind_apply]
  rcases hr : x s with ⟨r, s'⟩
  rw [hr] at h
  cases r with
  | ok a => exact hf a (meets_ok.1 h.2) s' h.1
  | error e => exact ⟨h.1, meets_error.2 (meets_error.1 h.2)⟩

theorem Ensures.mono {Q' : α → Prop} {E' : ε → Prop} {x : ExceptT ε (StateM σ) α}
    (h : Ensures I x Q E) (hQ : ∀ a, Q a → Q' a) (hE : ∀ e, E e → E' e) :
    Ensures I x Q' E' :=
  fun s hs => ⟨(h s hs).1, (h s hs).2.mono hQ hE⟩

theorem Ensures.mono_error {E' : ε → Prop} {x : ExceptT ε (StateM σ) α} (h : Ensures I x Q E)
    (hE : ∀ e, E e → E' e) : Ensures I x Q E' :=
  h.mono (fun _ => id) hE

theorem Ensures.lift {r : Except ε α} (h : Meets r Q E) :
    Ensures I (liftM r : ExceptT ε (StateM σ) α) Q E := by
  intro s hs
  cases r with
  | ok a => exact ⟨hs, h⟩
  | error e => exact ⟨hs, h⟩

end Rules

/-! ## One run -/

/-- Started in the state `s`, the computation ends with a value in `Q`, or with an error that lies
in `E` together with the state behind it. -/
def EnsuresAt (s : σ) (x : ExceptT ε (StateM σ) α) (Q : α → Prop) (E : ε → σ → Prop) : Prop :=
  Meets (x s).1 Q (E · (x s).2)

/-- A first step that fails ends both steps. -/
theorem bind_of_error {x : ExceptT ε (StateM σ) α} {s s' : σ} {e : ε}
    (h : x s = (.error e, s')) (f : α → ExceptT ε (StateM σ) β) :
    (x >>= f) s = (.error e, s') := by
  rw [bind_apply, h]

/-- Behind a first step that succeeds comes the second. -/
theorem bind_of_ok {x : ExceptT ε (StateM σ) α} {s t : σ} {a : α} (h : x s = (.ok a, t))
    (f : α → ExceptT ε (StateM σ) β) : (x >>= f) s = f a t := by
  rw [bind_apply, h]

namespace EnsuresAt

variable {s s' : σ} {x : ExceptT ε (StateM σ) α} {Q : α → Prop} {E : ε → σ → Prop}

theorem pure {a : α} (h : Q a) : EnsuresAt s (pure a : ExceptT ε (StateM σ) α) Q E :=
  meets_ok.2 h

/-- The second step starts where the first one ended, and it is known how it came there. -/
theorem bind {Q' : β → Prop} {f : α → ExceptT ε (StateM σ) β} (hx : EnsuresAt s x Q E)
    (hf : ∀ a t, x s = (.ok a, t) → Q a → EnsuresAt t (f a) Q' E) :
    EnsuresAt s (x >>= f) Q' E := by
  rw [EnsuresAt] at hx
  rcases run : x s with ⟨e | a, t⟩ <;> rw [run] at hx
  · rw [EnsuresAt, bind_of_error run]
    exact meets_error.2 (hx.error e rfl)
  · rw [EnsuresAt, bind_of_ok run]
    exact hf a t run (hx.ok a rfl)

theorem mono {Q' : α → Prop} {E' : ε → σ → Prop} (h : EnsuresAt s x Q E)
    (hQ : ∀ a, Q a → Q' a) (hE : ∀ e t, E e t → E' e t) : EnsuresAt s x Q' E' :=
  Meets.mono h hQ fun e => hE e (x s).2

theorem mono_error {E' : ε → σ → Prop} (h : EnsuresAt s x Q E)
    (hE : ∀ e t, E e t → E' e t) : EnsuresAt s x Q E' :=
  h.mono (fun _ => id) hE

theorem lift {r : Except ε α} (h : Meets r Q (E · s)) :
    EnsuresAt s (liftM r : ExceptT ε (StateM σ) α) Q E := by
  cases r with
  | ok a => exact h
  | error e => exact h

/-- A step that does not touch the state leaves the second one where it was. -/
theorem bind_lift {Q' : β → Prop} {r : Except ε α} {f : α → ExceptT ε (StateM σ) β}
    (h : Meets r Q (E · s)) (hf : ∀ a, r = .ok a → Q a → EnsuresAt s (f a) Q' E) :
    EnsuresAt s (liftM r >>= f) Q' E := by
  cases r with
  | ok a => exact hf a rfl (meets_ok.1 h)
  | error e => exact meets_error.2 (h.error e rfl)

/-- What every start ensures, one does. -/
theorem of_ensures {F : ε → Prop} (h : Ensures (fun _ => True) x Q F) (hE : ∀ e t, F e → E e t) :
    EnsuresAt s x Q E :=
  (h s trivial).2.mono (fun _ => id) fun e => hE e (x s).2

/-- It is enough to know how the run ends. -/
theorem of_run (ok : ∀ a t, x s = (.ok a, t) → Q a) (error : ∀ e t, x s = (.error e, t) → E e t) :
    EnsuresAt s x Q E :=
  ⟨fun a h => ok a (x s).2 (Prod.ext h rfl), fun e h => error e (x s).2 (Prod.ext h rfl)⟩

/-- The value of the run. -/
theorem of_ok {a : α} (h : EnsuresAt s x Q E) (run : x s = (.ok a, s')) : Q a :=
  h.ok a (by rw [run])

/-- The error of the run, and the state behind it. -/
theorem of_error {e : ε} (h : EnsuresAt s x Q E) (run : x s = (.error e, s')) : E e s' := by
  have ends : E e (x s).2 := h.error e (by rw [run])
  rwa [run] at ends

end EnsuresAt

end TypedExpr
