import TypedExpr.Proofs.Operands.Promotion
import TypedExpr.Proofs.Value.Renaming

/-!
# Evaluating two operands in either order

An operator evaluates its left operand first.  Where that order does not matter for two expressions,
it does not matter for the operands that stand for them after they were brought to one type: each
one is converted on its own, and an operand that was dropped can only be null.

* `Expr.evaluateBoth` — the values of two operands, from left to right.
* `Expr.Exchanges` — the order of evaluation does not matter, identities aside.
* **`Expr.Follows.outcomes`** — the outcomes of either order of two converted operands.
-/

namespace TypedExpr

variable {format : GuidFormat} {s : Schema} {a b e x y : Expr} {t u : Ty} {v w : Value}
  {π : Identity → Identity}
variable {f g : Value → Except EvalError Value} {frames : List Value} {st : Store}

/-! ## Both orders -/

/-- The values of two expressions, evaluated from left to right. -/
def Expr.evaluateBoth [GuidFormat] (x y : Expr) (frames : List Value) : Eval (Value × Value) := do
  let v ← x.evaluate frames
  let w ← y.evaluate frames
  return (v, w)

/-- Two outcomes, one after the other: the first error counts. -/
def pairUp (p q : Except EvalError Value) : Except EvalError (Value × Value) := do
  let v ← p
  let w ← q
  return (v, w)

/-- The two values in the other order, with other identities. -/
def exchange (π : Identity → Identity) (p : Value × Value) : Value × Value :=
  (p.2.rename π, p.1.rename π)

/-- The order in which two expressions are evaluated does not matter: but for the identities of what
they build, the outcome is the same. -/
def Expr.Exchanges [GuidFormat] (x y : Expr) (frames : List Value) (st : Store) : Prop :=
  ∃ π : Identity → Identity, π.Injective ∧
    (y.evaluateBoth x frames st).1 = (x.evaluateBoth y frames st).1.map (exchange π)

theorem Expr.evaluateBoth_fst {p : Except EvalError Value} {st' : Store}
    (hx : x.evaluate frames st = (p, st')) :
    (x.evaluateBoth y frames st).1 = pairUp p (y.evaluate frames st').1 := by
  unfold evaluateBoth
  rw [bind_apply, hx]
  cases p with
  | error e => rfl
  | ok v =>
    simp only
    rw [bind_apply]
    rcases y.evaluate frames st' with ⟨_ | _, _⟩ <;> rfl

theorem pairUp_eq_ok {p q : Except EvalError Value} (h : pairUp p q = .ok (v, w)) :
    p = .ok v ∧ q = .ok w := by
  cases p with
  | error e => cases h
  | ok v =>
    cases q with
    | error e => cases h
    | ok w =>
      cases h
      exact ⟨rfl, rfl⟩

/-- What is made of a value without the store. -/
theorem bind_lift_fst {α β : Type} (m : Eval α) (k : α → Except EvalError β) (st : Store) :
    ((m >>= fun z => liftM (k z)) st).1 = (m st).1 >>= k := by
  rw [bind_apply]
  rcases m st with ⟨_ | z, st'⟩
  · rfl
  · show ((liftM (k z) : Eval β) st').1 = k z
    cases k z <;> rfl

/-- Where the order of evaluation does not matter, neither does it for what is made of the values,
if that is the same for the exchanged values. -/
theorem Expr.Exchanges.bind_fst {α : Type} {k k' : Value × Value → Except EvalError α}
    (h : x.Exchanges y frames st)
    (same : ∀ (π : Identity → Identity), π.Injective → ∀ z, k' (exchange π z) = k z) :
    ((x.evaluateBoth y frames >>= fun z => liftM (k z)) st).1 =
      ((y.evaluateBoth x frames >>= fun z => liftM (k' z)) st).1 := by
  obtain ⟨π, inj, back⟩ := h
  rw [bind_lift_fst, bind_lift_fst, back]
  cases (x.evaluateBoth y frames st).1 with
  | error e => rfl
  | ok z => exact (same π inj z).symm

/-- Two values come from one run after the other. -/
theorem Expr.runs_of_evaluateBoth (h : (a.evaluateBoth b frames st).1 = .ok (v, w)) :
    ∃ st₁ st₂, a.evaluate frames st = (.ok v, st₁) ∧ b.evaluate frames st₁ = (.ok w, st₂) := by
  rcases ha : a.evaluate frames st with ⟨p, st₁⟩
  rw [evaluateBoth_fst ha] at h
  obtain ⟨rfl, hw⟩ := pairUp_eq_ok h
  exact ⟨st₁, (b.evaluate frames st₁).2, rfl, Prod.ext hw rfl⟩

/-- Unless both fail, two outcomes and the same outcomes in the other order correspond. -/
theorem pairUp_exchange {p q : Except EvalError Value} (met : (∃ v, p = .ok v) ∨ ∃ w, q = .ok w) :
    pairUp (q.map (Value.rename π)) (p.map (Value.rename π)) = (pairUp p q).map (exchange π) := by
  rcases met with ⟨v, rfl⟩ | ⟨w, rfl⟩
  · cases q <;> rfl
  · cases p <;> rfl

/-! ## Values that are converted -/

theorem Value.viewAs_rename (v : Value) :
    (v.rename π).viewAs u t = (v.viewAs u t).map (rename π) := by
  unfold viewAs
  split
  · rfl
  · exact cast_rename v t

/-- A conversion of values that looks at no identities and keeps them. -/
def Blind (f : Value → Except EvalError Value) : Prop :=
  ∀ (π : Identity → Identity) (v : Value), f (v.rename π) = (f v).map (Value.rename π)

theorem Blind.trans (hf : Blind f) (hg : Blind g) : Blind fun v => f v >>= g := by
  intro π v
  show f (v.rename π) >>= g = (f v >>= g).map _
  rw [hf π v]
  cases f v with
  | error e => rfl
  | ok w => exact hg π w

theorem blind_viewAs (u t : Ty) : Blind (Value.viewAs u t) := fun _ => Value.viewAs_rename

namespace Expr

/-- An expression follows another one: it has its value, converted, or it is null. -/
inductive Follows [GuidFormat] (x e : Expr) (f : Value → Except EvalError Value) : Prop
  | after (h : ∀ frames, x.evaluate frames = e.evaluate frames >>= fun v => liftM (f v))
  | null (h : ∀ frames, x.evaluate frames = pure .null)

theorem Represents.follows (h : x.Represents s e t) (plain : s.declared? e.ty t = none) :
    x.Follows e (Value.viewAs e.ty t) := by
  rcases h.evaluates with after | ⟨-, -, alone⟩
  · rw [Schema.represent_eq_viewAs plain] at after
    exact .after after
  · exact .null alone

/-- What stands for an expression that stands for a third one follows that one. -/
theorem Represents.follows_trans (hx : x.Represents s e u) (he : e.Represents s a t)
    (plain : s.declared? a.ty t = none) (plain' : s.declared? t u = none)
    (accepts : t.acceptsNull = true → u.acceptsNull = true) :
    x.Follows a fun v => v.viewAs a.ty t >>= Value.viewAs t u := by
  rcases hx.evaluates with after | ⟨-, -, alone⟩
  · rw [he.ty] at after
    rcases he.evaluates with after' | ⟨-, null, alone⟩
    · refine .after fun frames => ?_
      rw [after, after', Schema.represent_eq_viewAs plain, Schema.represent_eq_viewAs plain',
        bind_assoc]
      congr 1
      funext v
      cases v.viewAs a.ty t <;> rfl
    · refine .null fun frames => ?_
      rw [after, alone, pure_bind, Schema.represent_null (accepts null)]
  · exact .null alone

/-! ## Outcomes -/

/-- A conversion of the value that an expression gave. -/
theorem run_after {st' : Store} (h : x.evaluate frames = e.evaluate frames >>= fun v => liftM (f v))
    (he : e.evaluate frames st = (.ok v, st')) : x.evaluate frames st = (f v, st') := by
  rw [h, bind_of_ok he]
  cases f v <;> rfl

/-- **The outcomes of two converted operands in either order.**  They are those of the conversions
one after the other, where null may stand in for an operand. -/
theorem Follows.outcomes (hx : x.Follows a f) (hy : y.Follows b g) (hf : Blind f) (hg : Blind g)
    (run : (a.evaluateBoth b frames st).1 = .ok (v, w)) (swap : a.Exchanges b frames st) :
    ∃ (π : Identity → Identity) (p q : Except EvalError Value), π.Injective ∧
      (x.evaluateBoth y frames st).1 = pairUp p q ∧
      (y.evaluateBoth x frames st).1 = pairUp (q.map (Value.rename π)) (p.map (Value.rename π)) ∧
      (p = f v ∨ p = .ok .null) ∧ (q = .ok .null ∨ ∃ ρ, q = g (w.rename ρ)) := by
  obtain ⟨π, inj, back⟩ := swap
  rw [run] at back
  obtain ⟨st₁, st₂, ha, hb⟩ := runs_of_evaluateBoth run
  obtain ⟨st₁', st₂', hb', ha'⟩ := runs_of_evaluateBoth back
  have same (r : Except EvalError Value) : r.map (Value.rename id) = r := by
    cases r <;> simp [Except.map]
  have kept : ∃ ρ, g w = g (w.rename ρ) := ⟨id, by rw [Value.rename_id]⟩
  cases hx with
  | after hx =>
    cases hy with
    | after hy =>
      refine ⟨π, f v, g w, inj, ?_, ?_, .inl rfl, .inr kept⟩
      · rw [evaluateBoth_fst (run_after (hx frames) ha), run_after (hy frames) hb]
      · rw [evaluateBoth_fst (run_after (hy frames) hb'), run_after (hx frames) ha', hf, hg]
    | null hy =>
      refine ⟨id, f v, .ok .null, fun _ _ => id, ?_, ?_, .inl rfl, .inl rfl⟩
      · rw [evaluateBoth_fst (run_after (hx frames) ha), hy frames]
        rfl
      · rw [evaluateBoth_fst (show y.evaluate frames st = (.ok .null, st) from by rw [hy]; rfl),
          run_after (hx frames) ha, same, same]
  | null hx =>
    have hx (st : Store) : x.evaluate frames st = (.ok .null, st) := by
      rw [hx]
      rfl
    cases hy with
    | after hy =>
      refine ⟨id, .ok .null, g (w.rename π), fun _ _ => id, ?_, ?_, .inr rfl, .inr ⟨π, rfl⟩⟩
      · rw [evaluateBoth_fst (hx st), run_after (hy frames) hb']
      · rw [evaluateBoth_fst (run_after (hy frames) hb'), hx, same]
        rfl
    | null hy =>
      refine ⟨id, .ok .null, .ok .null, fun _ _ => id, ?_, ?_, .inr rfl, .inl rfl⟩
      · rw [evaluateBoth_fst (hx st), hy frames]
        rfl
      · rw [evaluateBoth_fst (show y.evaluate frames st = (.ok .null, st) from by rw [hy]; rfl), hx]
        rfl

/-- **The order of evaluation does not matter for converted operands**, if it does not for the given
ones, unless both conversions fail. -/
theorem Represents.exchanges (hx : x.Represents s a t) (hy : y.Represents s b t)
    (plain : s.declared? a.ty t = none) (plain' : s.declared? b.ty t = none)
    (run : (a.evaluateBoth b frames st).1 = .ok (v, w)) (swap : a.Exchanges b frames st)
    (met : (∃ r, v.viewAs a.ty t = .ok r) ∨ ∃ r, w.viewAs b.ty t = .ok r) :
    x.Exchanges y frames st := by
  obtain ⟨π, p, q, inj, forth, back, first, second⟩ :=
    (hx.follows plain).outcomes (hy.follows plain') (blind_viewAs _ _) (blind_viewAs _ _) run swap
  refine ⟨π, inj, ?_⟩
  rw [forth, back]
  refine pairUp_exchange (met.imp ?_ ?_)
  · rintro ⟨r, hr⟩
    rcases first with first | first
    · exact ⟨r, first.trans hr⟩
    · exact ⟨.null, first⟩
  · rintro ⟨r, hr⟩
    rcases second with second | ⟨ρ, second⟩
    · exact ⟨.null, second⟩
    · rw [second, Value.viewAs_rename, hr]
      exact ⟨r.rename ρ, rfl⟩

end Expr

end TypedExpr
