import TypedExpr.Proofs.Typing.Calls

/-!
# Typing of the grammar

Every rule of the grammar gives typed expressions, if the rule for expressions inside of it does.

* `Grammar.identifier_gives`, `Grammar.primary_binds` — names and primaries.
* `Grammar.unary_binds`, `Grammar.binaryLevel_binds` — operators.
* **`Grammar.expression_binds`** — expressions are typed, whatever the depth of nesting.
-/

namespace TypedExpr

variable {format : GuidFormat} {P : Premises}

namespace Grammar

open Binder

variable {c : BindContext} {inner : Binder Expr} {e x : Expr} {t : Ty}

/-! ## Names -/

theorem typeAccess_gives (hi : inner.Binds P) (ctx : P.Context c) (ht : P.allows t)
    (single : t.nonNullable.element? = none) (name : String) (offset : Nat) :
    Gives P c (typeAccess inner t name offset) (Expr.Typed P c.scope.types) := by
  refine current_gives.bind fun token _ => ?_
  split
  · refine advance_gives.bind fun _ _ => expectIdentifier_gives.bind fun _ _ => ?_
    refine (findMember?_gives t _).bind fun m? hm => ?_
    split
    next name' ty v =>
      have known := hm _ rfl
      exact .pure (.literal (fun _ => constant_conforms known rfl) fun strict =>
        (ht strict).member known)
    next => exact fail_gives _ _
  · refine (argumentList_gives hi ctx).bind fun args ha => ?_
    split
    next operand =>
      have operandTyped := ha operand List.mem_cons_self
      exact bound_gives (Binding.explicitConversion_typed operandTyped ht single offset)
    next => exact fail_gives _ _
  · exact unexpected_gives _

theorem choice_gives (hi : inner.Binds P) (ctx : P.Context c) (offset : Nat) :
    Gives P c (choice inner offset) (Expr.Typed P c.scope.types) := by
  refine (argumentList_gives hi ctx).bind fun args ha => ?_
  split
  next test a b =>
    simp only [List.mem_cons, List.not_mem_nil, or_false, forall_eq_or_imp, forall_eq] at ha
    exact bound_gives
      (Binding.conditional_typed ctx.environment ha.1 ha.2.1 ha.2.2 offset)
  next => exact scope_gives.bind fun _ _ => fail_gives _ _

theorem contextKeyword_gives (name : String) (offset : Nat) :
    Gives P c (contextKeyword name offset) fun e? => ∀ e ∈ e?, e.Typed P c.scope.types := by
  unfold contextKeyword
  split
  · refine scope_gives.bind fun s hs => .pure ?_
    rintro _ ⟨⟩
    exact hs ▸ s.typed_current
  · split
    · refine (parentReference_gives name offset).bind fun e he => .pure ?_
      rintro _ ⟨⟩
      exact he
    · split
      · refine scope_gives.bind fun s hs => .pure ?_
        rintro _ ⟨⟩
        exact hs ▸ s.typed_root
      · exact .pure nofun

theorem implicitMember_gives (hi : inner.Binds P) (ctx : P.Context c) (name : String)
    (offset : Nat) :
    Gives P c (implicitMember inner name offset) fun e? =>
      ∀ e ∈ e?, e.Typed P c.scope.types := by
  refine scope_gives.bind fun s hs => ?_
  subst hs
  have it : c.scope.current.Typed P c.scope.types := c.scope.typed_current
  refine (isSymbol_gives _).bind fun _ _ => ?_
  split
  · refine (isCallable_gives _ _).bind fun _ _ => ?_
    split
    · refine (methodCall_gives hi ctx it name offset).bind fun e he => .pure ?_
      rintro _ ⟨⟩
      exact he
    · exact .pure nofun
  · refine (findMember?_gives _ _).bind fun m? hm => .pure fun e he => ?_
    obtain ⟨m, hm', rfl⟩ := Option.map_eq_some_iff.1 he
    exact memberAccess_typed ctx.environment it (hm m hm')

theorem memberOrType_gives (hi : inner.Binds P) (ctx : P.Context c) (name : String)
    (offset : Nat) :
    Gives P c (memberOrType inner name offset) (Expr.Typed P c.scope.types) := by
  refine (implicitMember_gives hi ctx name offset).bind fun e? he => ?_
  split
  next e => exact .pure (he e rfl)
  next =>
    refine (findType?_gives ctx name).bind fun t? ht => ?_
    split
    next t =>
      exact typeAccess_gives hi ctx (ht t rfl).1 (ht t rfl).2 name offset
    next => split <;> exact fail_gives _ _

theorem plainName_gives (hi : inner.Binds P) (ctx : P.Context c) (name : String) (offset : Nat) :
    Gives P c (plainName inner name offset) (Expr.Typed P c.scope.types) := by
  refine (isSymbol_gives _).bind fun _ _ => ?_
  split
  · exact choice_gives hi ctx _
  · refine scope_gives.bind fun s hs => ?_
    subst hs
    split
    next e he => exact .pure (Scope.typed_resolve? he)
    next => exact memberOrType_gives hi ctx _ _

theorem identifier_gives (hi : inner.Binds P) (ctx : P.Context c) :
    Gives P c (identifier inner) (Expr.Typed P c.scope.types) := by
  refine advance_gives.bind fun t _ => read_gives.bind fun c' _ => ?_
  have rest := plainName_gives hi ctx t.text t.offset
  simp only
  split
  · refine (contextKeyword_gives _ _).bind fun e? he => ?_
    split
    next e => exact .pure (he e rfl)
    next => exact rest
  · exact rest

/-! ## Projections -/

theorem fieldName_gives (e : Expr) : Gives P c (fieldName e) fun _ => True := by
  refine (isKind_gives _).bind fun _ _ => ?_
  split
  · exact advance_gives.bind fun _ _ => expectIdentifier_gives.bind fun _ _ => .pure trivial
  · refine scope_gives.bind fun _ _ => ?_
    split
    · exact .pure trivial
    · exact unexpected_gives _

theorem projectionField_gives (hi : inner.Binds P) (ctx : P.Context c)
    {fields : List (String × Expr)} (hf : ∀ f ∈ fields, f.2.Typed P c.scope.types) :
    Gives P c (projectionField inner fields) fun fields =>
      ∀ f ∈ fields, f.2.Typed P c.scope.types := by
  refine current_gives.bind fun _ _ => (hi c ctx).bind fun e he => ?_
  refine (fieldName_gives e).bind fun name _ => ?_
  split
  · exact fail_gives _ _
  · refine .pure fun f hf' => ?_
    rcases List.mem_append.1 hf' with h | h
    · exact hf f h
    · rw [List.mem_singleton.1 h]
      exact he

/-- The record of a projection has the fields of the projection. -/
theorem projection_gives (hi : inner.Binds P) (ctx : P.Context c) :
    Gives P c (projection inner) (Expr.Typed P c.scope.types) := by
  refine (expect_gives _).bind fun _ _ => (expect_gives _).bind fun _ _ => ?_
  refine (separated_gives (fun _ h => projectionField_gives hi ctx h) (by simp)).bind
    fun fields hf => ?_
  refine (expect_gives _).bind fun _ _ => (anonymousRecord_gives _).bind fun d hd => ?_
  refine .pure (.new ?_ ?_)
  · intro e he
    obtain ⟨f, hf', rfl⟩ := List.mem_map.1 he
    exact hf f hf'
  · simp [hd]

/-! ## Primaries -/

/-- A number of a parameter stands for the parameter. -/
theorem parameter_typed (ctx : P.Context c) (index offset : Nat) :
    Meets (Parameter.bind c.params index offset) (Expr.Typed P c.scope.types)
      (fun _ => True) := by
  unfold Parameter.bind
  rw [ctx.params]
  split
  next p hp =>
    have lawful := ctx.environment.lawful
    have hm : p ∈ P.params := List.mem_of_getElem? hp
    refine meets_ok.2 ?_
    rcases p with ⟨t, v | source⟩
    · exact .constant (List.getElem?_eq_some_iff.1 hp).1 (lawful.constants _ hm v rfl)
        (lawful.params _ hm)
    · exact .deferred hp
  next => exact meets_error.2 trivial

theorem primaryStart_gives (hi : inner.Binds P) (ctx : P.Context c) :
    Gives P c (primaryStart inner) (Expr.Typed P c.scope.types) := by
  refine current_gives.bind fun t _ => ?_
  split
  · exact numberLiteral_gives fun _ _ => integerValue?_conforms
  · exact numberLiteral_gives fun _ _ => realValue?_conforms
  · exact literal_gives (.string _) Ty.wellFormed_string
  · exact literal_gives (.boolean _) Ty.wellFormed_boolean
  · exact literal_gives (.boolean _) Ty.wellFormed_boolean
  · exact literal_gives (.null rfl) (Ty.wellFormed_of_subterms rfl rfl)
  · refine advance_gives.bind fun _ _ => read_gives.bind fun c' hc => ?_
    subst hc
    exact lift_gives (parameter_typed ctx _ _)
  · refine advance_gives.bind fun _ _ => scope_gives.bind fun s hs => .pure ?_
    exact hs ▸ s.typed_current
  · exact advance_gives.bind fun _ _ => parentReference_gives _ _
  · refine advance_gives.bind fun _ _ => scope_gives.bind fun s hs => .pure ?_
    exact hs ▸ s.typed_root
  · refine advance_gives.bind fun _ _ => (hi c ctx).bind fun e he => ?_
    exact (expect_gives _).bind fun _ _ => .pure he
  · exact projection_gives hi ctx
  · exact identifier_gives hi ctx
  · exact unexpected_gives _

theorem suffixStep_gives (hi : inner.Binds P) (ctx : P.Context c)
    (hx : x.Typed P c.scope.types) :
    Gives P c (suffixStep inner x) fun e? => ∀ e ∈ e?, e.Typed P c.scope.types := by
  refine current_gives.bind fun t _ => ?_
  split
  · refine advance_gives.bind fun _ _ => (memberOrCall_gives hi ctx hx).bind fun e he => .pure ?_
    rintro _ ⟨⟩
    exact he
  · refine (indexer_gives hi ctx hx).bind fun e he => .pure ?_
    rintro _ ⟨⟩
    exact he
  · exact .pure nofun

theorem primary_binds (hi : inner.Binds P) : (primary inner).Binds P := fun _ ctx =>
  (primaryStart_gives hi ctx).bind fun _ he =>
    chain_gives (fun _ hx => suffixStep_gives hi ctx hx) he

/-! ## Operators -/

theorem signStep_gives (signs : List (UnaryOp × Nat)) :
    Gives P c (signStep signs) fun _ => True := by
  refine current_gives.bind fun t _ => ?_
  split
  · exact advance_gives.bind fun _ _ => .pure trivial
  · exact .pure trivial

theorem applySign_gives (ctx : P.Context c) (he : e.Typed P c.scope.types)
    (sign : UnaryOp × Nat) : Gives P c (applySign e sign) (Expr.Typed P c.scope.types) := by
  unfold applySign
  split
  · exact bound_gives (Binding.negate_typed ctx.environment he _)
  · exact bound_gives (Binding.complement_typed ctx.environment he _)

theorem unary_binds (hi : inner.Binds P) : (unary inner).Binds P := by
  intro c ctx
  refine (chain_gives (Q := fun _ => True) (fun signs _ => ?_) trivial).bind fun signs _ => ?_
  · exact (signStep_gives signs).mono fun _ _ _ _ => trivial
  · refine (primary_binds hi c ctx).bind fun e he => ?_
    induction signs generalizing e with
    | nil => exact .pure he
    | cons sign signs ih =>
      rw [List.foldlM_cons]
      exact (applySign_gives ctx he sign).bind ih

theorem binaryStep_gives {op? : TokenKind → Option BinaryOp} {operand : Binder Expr}
    (ho : operand.Binds P) (ctx : P.Context c) (hx : x.Typed P c.scope.types) :
    Gives P c (binaryStep op? operand x) fun e? => ∀ e ∈ e?, e.Typed P c.scope.types := by
  refine current_gives.bind fun t _ => ?_
  split
  next op _ =>
    refine advance_gives.bind fun _ _ => (ho c ctx).bind fun right hr => ?_
    refine (bound_gives (Binding.binary_typed ctx.environment hx hr op _)).bind
      fun e he => .pure ?_
    rintro _ ⟨⟩
    exact he
  next => exact .pure nofun

/-- A level of binary operators over typed operands. -/
theorem binaryLevel_binds {op? : TokenKind → Option BinaryOp} {operand : Binder Expr}
    (ho : operand.Binds P) : (binaryLevel op? operand).Binds P := fun c ctx =>
  (ho c ctx).bind fun _ he => chain_gives (fun _ hx => binaryStep_gives ho ctx hx) he

theorem relational_binds (hi : inner.Binds P) : (relational inner).Binds P :=
  binaryLevel_binds (binaryLevel_binds (binaryLevel_binds (unary_binds hi)))

theorem membership_gives (hi : inner.Binds P) (ctx : P.Context c)
    (hx : x.Typed P c.scope.types) (offset : Nat) :
    Gives P c (membership inner x offset) (Expr.Typed P c.scope.types) := by
  refine (isSymbol_gives _).bind fun _ _ => ?_
  split
  · refine advance_gives.bind fun _ _ => (expressionList_gives hi ctx).bind fun es hes => ?_
    refine (expect_gives _).bind fun _ _ => ?_
    simp only
    split
    next source hs =>
      have typed : source.Typed P c.scope.types := by
        split at hs
        · split at hs <;> cases hs
          exact hes _ List.mem_cons_self
        · cases hs
      exact bound_gives (Binding.contains_typed ctx.environment typed hx offset)
    next =>
      refine (bound_gives (Binding.oneOf_typed ctx.environment hx es hes offset)).bind
        fun e? he => ?_
      split
      next e => exact .pure (he e rfl).typed
      next => exact unexpected_gives _
  · refine (relational_binds hi c ctx).bind fun source hs => ?_
    exact bound_gives (Binding.contains_typed ctx.environment hs hx offset)

theorem equalityStep_gives (hi : inner.Binds P) (ctx : P.Context c)
    (hx : x.Typed P c.scope.types) :
    Gives P c (equalityStep inner x) fun e? => ∀ e ∈ e?, e.Typed P c.scope.types := by
  refine (isKind_gives _).bind fun _ _ => ?_
  split
  · refine advance_gives.bind fun _ _ => (membership_gives hi ctx hx _).bind fun e he => .pure ?_
    rintro _ ⟨⟩
    exact he
  · exact binaryStep_gives (relational_binds hi) ctx hx

theorem equality_binds (hi : inner.Binds P) : (equality inner).Binds P := fun c ctx =>
  (relational_binds hi c ctx).bind fun _ he =>
    chain_gives (fun _ hx => equalityStep_gives hi ctx hx) he

theorem conditional_binds (hi : inner.Binds P) : (conditional inner).Binds P := by
  intro c ctx
  have test : (disjunction inner).Binds P :=
    binaryLevel_binds (binaryLevel_binds (equality_binds hi))
  refine current_gives.bind fun _ _ => (test c ctx).bind fun e he => ?_
  refine (isSymbol_gives _).bind fun _ _ => ?_
  split
  · refine advance_gives.bind fun _ _ => (hi c ctx).bind fun a ha => ?_
    refine (expect_gives _).bind fun _ _ => (hi c ctx).bind fun b hb => ?_
    exact bound_gives (Binding.conditional_typed ctx.environment he ha hb _)
  · exact .pure he

/-! ## Expressions -/

/-- **Expressions are typed**, whatever the depth of nesting. -/
theorem expression_binds : ∀ depth : Nat, (expression depth).Binds P
  | 0 => fun _ _ => unexpected_gives _
  | depth + 1 => conditional_binds (expression_binds depth)

theorem anyExpression_binds : anyExpression.Binds P := fun c ctx =>
  tokenCount_gives.bind fun _ _ => expression_binds _ c ctx

theorem whole_binds : whole.Binds P := fun c ctx =>
  (anyExpression_binds c ctx).bind fun _ he => expectEnd_gives.bind fun _ _ => .pure he

end Grammar

end TypedExpr
