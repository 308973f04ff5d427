import TypedExpr.Proofs.Typing.Promotion

/-!
# Typing of operators

Every rule that binds an operator to typed operands gives a typed expression.

* `Binding.arithmetic_typed`, `Binding.comparison_typed`, … — the binary operators one by one.
* **`Binding.binary_typed`** — any binary operator.
* `Binding.negate_typed`, `Binding.conditional_typed`, … — the other forms.
* `Binding.explicitConversion_typed` — a type applied to an expression.
-/

namespace TypedExpr

variable {format : GuidFormat}

namespace Binding

variable {P : Premises} {Γ : List Ty} {l r e : Expr} {t : Ty}

/-! ## Operands -/

/-- A number is brought to the type that it is computed in, with null added on demand. -/
theorem coerceTo_promoted (env : P.Environment Γ) (h : e.Typed P Γ) {b : Bool}
    (ht : e.ty.nonNullable.isNumeric = true) :
    (e.coerceTo P.schema (e.ty.nonNullable.promoted.lift b)).HasType P Γ
      (e.ty.nonNullable.promoted.lift b) := by
  refine h.coerceTo (fun strict => ?_) fun _ => Ty.casts_promoted ht b
  exact (h.allows env strict).nonNullable.promoted.lift b

/-! ## Binary operators -/

theorem arithmetic_typed (env : P.Environment Γ) (hl : l.Typed P Γ) (hr : r.Typed P Γ)
    (op : ArithmeticOp) (offset : Nat) :
    Meets (arithmetic P.schema op l r offset) (Expr.Typed P Γ) (fun _ => True) := by
  refine (unify_typed env hl hr op.symbol offset).bind fun ⟨x, y⟩ ⟨hx, hy, same⟩ => ?_
  simp only at hx hy same ⊢
  split
  next number =>
    have hx' := coerceTo_promoted env hx (b := x.ty.isNullable) number
    have hy' := coerceTo_promoted env hy (b := x.ty.isNullable) (same ▸ number)
    rw [← same] at hy'
    refine meets_ok.2 (.arithmetic hx'.typed hy'.typed hx'.ty hy'.ty ?_)
    rw [Ty.nonNullable_lift_of_isNumeric (Ty.isNumeric_promoted number)]
    exact Ty.isArithmetic_promoted number
  next => exact meets_error.2 trivial

theorem bitwise_typed (env : P.Environment Γ) (hl : l.Typed P Γ) (hr : r.Typed P Γ)
    (op : BitwiseOp) (offset : Nat) :
    Meets (bitwise P.schema op l r offset) (Expr.Typed P Γ) (fun _ => True) := by
  refine (unify_typed env hl hr op.symbol offset).bind fun ⟨x, y⟩ ⟨hx, hy, same⟩ => ?_
  simp only at hx hy same ⊢
  split
  next ht => exact meets_ok.2 (.bitwise hx hy rfl same.symm (by rw [ht]; rfl))
  next ht => exact meets_ok.2 (.bitwise hx hy rfl same.symm (by rw [ht]; rfl))
  next t ht =>
    have number : x.ty.nonNullable.isNumeric = true := by rw [ht]; rfl
    have hx' := coerceTo_promoted env hx (b := x.ty.isNullable) number
    have hy' := coerceTo_promoted env hy (b := x.ty.isNullable) (same ▸ number)
    rw [← same] at hy'
    rw [ht] at hx' hy'
    refine meets_ok.2 (.bitwise hx'.typed hy'.typed hx'.ty hy'.ty ?_)
    rw [Ty.nonNullable_lift_of_isNumeric rfl]
    cases t <;> rfl
  next => exact meets_error.2 trivial

theorem shift_typed (env : P.Environment Γ) (hl : l.Typed P Γ) (hr : r.Typed P Γ)
    (op : ShiftOp) (offset : Nat) :
    Meets (shift P.schema op l r offset) (Expr.Typed P Γ) (fun _ => True) := by
  unfold shift
  simp only
  split
  next integral =>
    rw [Bool.and_eq_true] at integral
    have hl' := coerceTo_promoted env hl (b := l.ty.isNullable)
      (Ty.isNumeric_of_isIntegral integral.1)
    have hr' := hr.coerceTo (t := (Ty.int .int32).lift r.ty.isNullable)
      (fun _ => (Ty.wellFormed_int _).lift _) fun _ => by
        rw [Ty.nonNullable_lift_of_isNumeric rfl]
        exact .numeric (Ty.isNumericLike_of_isNumeric (Ty.isNumeric_of_isIntegral integral.2)) rfl
    refine meets_ok.2 (.shift hl'.typed hr'.typed hl'.ty ?_ ?_)
    · rw [hr'.ty, Ty.nonNullable_lift_of_isNumeric rfl]
    · rw [Ty.nonNullable_lift_of_isNumeric
        (Ty.isNumeric_promoted (Ty.isNumeric_of_isIntegral integral.1))]
      exact Ty.isShiftable_promoted integral.1
  next => exact meets_error.2 trivial

theorem sum_typed (env : P.Environment Γ) (hl : l.Typed P Γ) (hr : r.Typed P Γ) (offset : Nat) :
    Meets (sum P.schema l r offset) (Expr.Typed P Γ) (fun _ => True) := by
  unfold sum
  split
  · exact meets_ok.2 (.concat hl hr)
  · exact arithmetic_typed env hl hr .add offset

theorem logical_typed (hl : l.Typed P Γ) (hr : r.Typed P Γ) (op : LogicalOp) (offset : Nat) :
    Meets (logical op l r offset) (Expr.Typed P Γ) (fun _ => True) := by
  unfold logical
  split
  next h => exact meets_ok.2 (.logical hl hr h.1 h.2)
  next => exact meets_error.2 trivial

/-- A comparison is a truth value. -/
theorem comparison_typed (env : P.Environment Γ) (hl : l.Typed P Γ) (hr : r.Typed P Γ)
    (op : CompareOp) (offset : Nat) :
    Meets (comparison P.schema op l r offset) (·.HasType P Γ .boolean) (fun _ => True) := by
  unfold comparison
  split
  next order declared => exact meets_ok.2 ⟨.customCompare hl hr declared, rfl⟩
  next =>
    refine (unify_typed env hl hr op.symbol offset).bind fun ⟨x, y⟩ ⟨hx, hy, same⟩ => ?_
    simp only at hx hy same ⊢
    split
    next h => exact meets_ok.2 ⟨.compare hx hy same (by simpa using h), rfl⟩
    next => exact meets_error.2 trivial

/-- **Any binary operator on typed operands.** -/
theorem binary_typed (env : P.Environment Γ) (hl : l.Typed P Γ) (hr : r.Typed P Γ)
    (op : BinaryOp) (offset : Nat) :
    Meets (binary P.schema op l r offset) (Expr.Typed P Γ) (fun _ => True) := by
  unfold binary
  split
  · exact sum_typed env hl hr offset
  · exact sum_typed env hl hr offset
  · exact arithmetic_typed env hl hr _ offset
  · exact bitwise_typed env hl hr _ offset
  · exact shift_typed env hl hr _ offset
  · exact (comparison_typed env hl hr _ offset).mono (fun _ h => h.typed) (fun _ => id)
  · exact logical_typed hl hr _ offset

/-! ## Other forms -/

theorem contains_typed (env : P.Environment Γ) (hl : l.Typed P Γ) (hr : r.Typed P Γ)
    (offset : Nat) :
    Meets (contains P.schema l r offset) (Expr.Typed P Γ) (fun _ => True) := by
  unfold contains
  split
  next => exact meets_error.2 trivial
  next t element =>
    split
    next => exact meets_error.2 trivial
    next p hp =>
      have allowed : P.allows t := fun strict => (hl.allows env strict).element element
      have hp := hr.promote? allowed hp
      refine meets_ok.2 (.sequenceCall hl element nofun ?_ ⟨nofun, ?_, ?_, nofun, rfl⟩)
      · rintro _ ⟨⟩
        exact hp.typed
      · rintro (h | h) <;> cases h
      · exact fun _ => congrArg some hp.ty

/-- The candidates of a membership make a truth value. -/
theorem oneOf_typed (env : P.Environment Γ) (he : e.Typed P Γ) (candidates : List Expr)
    (each : ∀ c ∈ candidates, c.Typed P Γ) (offset : Nat) :
    Meets (oneOf P.schema e candidates offset)
      (fun test? => ∀ test ∈ test?, test.HasType P Γ .boolean) (fun _ => True) := by
  unfold oneOf
  -- the tests so far are a truth value
  refine Meets.foldlM ?_ ?_
  · rintro _ ⟨⟩
  · intro acc hacc c hc
    refine (comparison_typed env he (each c hc) .eq offset).bind fun t ht => meets_ok.2 ?_
    rintro _ ⟨⟩
    split
    next acc =>
      have ha := hacc acc rfl
      exact ⟨.logical ha.typed ht.typed ha.ty ht.ty, rfl⟩
    next => exact ht

theorem conditional_typed (env : P.Environment Γ) (he : e.Typed P Γ) (hl : l.Typed P Γ)
    (hr : r.Typed P Γ) (offset : Nat) :
    Meets (conditional P.schema e l r offset) (Expr.Typed P Γ) (fun _ => True) := by
  unfold conditional
  split
  next test =>
    refine (unify_typed env hl hr "?:" offset).bind fun ⟨x, y⟩ ⟨hx, hy, same⟩ => ?_
    exact meets_ok.2 (.conditional he hx hy test same)
  next => exact meets_error.2 trivial

/-- The negative of a literal is a number. -/
theorem negateLiteral?_conforms {v w : Value} (h : negateLiteral? v = some w) :
    w.Conforms w.ty ∧ w.ty.WellFormed := by
  have hi : ∀ (t : IntType) (n : Word t), (Value.int t n).Conforms (Value.int t n).ty ∧
      (Value.int t n).ty.WellFormed := fun t n => ⟨.int t n, Ty.wellFormed_int t⟩
  unfold negateLiteral? at h
  split at h
  · cases h
    exact hi _ _
  · cases h
    exact hi _ _
  · cases h
    split <;> exact hi _ _
  · split at h <;> cases h
    exact hi _ _
  · cases h
    exact ⟨.single _, Ty.wellFormed_of_subterms rfl rfl⟩
  · cases h
    exact ⟨.double _, Ty.wellFormed_of_subterms rfl rfl⟩
  · cases h

theorem negatedLiteral?_typed (h : negatedLiteral? l = some e) : e.Typed P Γ := by
  unfold negatedLiteral? at h
  split at h
  · obtain ⟨w, hw, rfl⟩ := Option.map_eq_some_iff.1 h
    have hw := negateLiteral?_conforms hw
    exact .ofValue hw.1 hw.2
  · cases h

/-- The numbers that are negated in the type in which they are computed. -/
theorem takes_negate_promoted (number : t.isNumeric = true) (h32 : t ≠ .int .uint32)
    (h64 : t ≠ .int .uint64) : UnaryOp.negate.takes t.promoted = true := by
  cases t with
  | int u =>
    cases u with
    | uint32 => exact absurd rfl h32
    | uint64 => exact absurd rfl h64
    | _ => rfl
  | single | double => rfl
  | _ => cases number

theorem negate_typed (env : P.Environment Γ) (he : e.Typed P Γ) (offset : Nat) :
    Meets (negate P.schema e offset) (Expr.Typed P Γ) (fun _ => True) := by
  unfold negate
  simp only
  split
  next e' h => exact meets_ok.2 (negatedLiteral?_typed h)
  next =>
    split
    next ht =>
      have h := he.coerceTo (t := (Ty.int .int64).lift e.ty.isNullable)
        (fun _ => (Ty.wellFormed_int _).lift _) fun _ => by
          rw [Ty.nonNullable_lift_of_isNumeric rfl, ht]
          exact .numeric rfl rfl
      refine meets_ok.2 (.unary h.typed ?_)
      rw [h.ty, Ty.nonNullable_lift_of_isNumeric rfl]
      rfl
    next => exact meets_error.2 trivial
    next h32 h64 =>
      split
      next number =>
        have h := coerceTo_promoted env he (b := e.ty.isNullable) number
        refine meets_ok.2 (.unary h.typed ?_)
        rw [h.ty, Ty.nonNullable_lift_of_isNumeric (Ty.isNumeric_promoted number)]
        exact takes_negate_promoted number h32 h64
      next => exact meets_error.2 trivial

theorem complement_typed (env : P.Environment Γ) (he : e.Typed P Γ) (offset : Nat) :
    Meets (complement P.schema e offset) (Expr.Typed P Γ) (fun _ => True) := by
  unfold complement
  split
  next ht => exact meets_ok.2 (.unary he (by rw [ht]; rfl))
  next t ht =>
    have number : e.ty.nonNullable.isNumeric = true := by rw [ht]; rfl
    have h := coerceTo_promoted env he (b := e.ty.isNullable) number
    rw [ht, Ty.promoted] at h
    refine meets_ok.2 (.unary h.typed ?_)
    rw [h.ty, Ty.nonNullable_lift_of_isNumeric rfl]
    cases t <;> rfl
  next => exact meets_error.2 trivial

/-- A type is only applied to an expression where a cast is meant for it. -/
theorem casts_of_allowsExplicit {a : Ty} (h : allowsExplicit a t = true)
    (single : t.element? = none) : a.Casts t := by
  simp only [allowsExplicit, Bool.or_eq_true, Bool.and_eq_true, beq_iff_eq] at h
  rcases h with ((⟨ha, ht⟩ | rfl) | ⟨rfl, ht⟩) | rfl
  · exact .numeric ha ht
  · exact .toText a
  · exact .read ht
  · exact .fromObject single

/-- A type without items, applied to a typed expression. -/
theorem explicitConversion_typed (he : e.Typed P Γ) (ht : P.allows t)
    (single : t.nonNullable.element? = none) (offset : Nat) :
    Meets (explicitConversion P.schema e t offset) (Expr.Typed P Γ) (fun _ => True) := by
  unfold explicitConversion
  split
  next p hp => exact meets_ok.2 (he.promote? ht hp).typed
  next =>
    simp only
    split
    next explicit =>
      have casts := casts_of_allowsExplicit explicit single
      split
      next => exact meets_ok.2 (.convert he casts ht)
      next v hv =>
        split
        next w hw =>
          refine meets_ok.2 (he.withConstant (fun sound => ?_) ht).typed
          exact (Value.ConformsIn.meets_cast (he.constant_admits hv sound) casts).ok w hw
        next => exact meets_error.2 trivial
    next => exact meets_error.2 trivial

end Binding

end TypedExpr
