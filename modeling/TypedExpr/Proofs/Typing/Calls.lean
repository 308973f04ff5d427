import TypedExpr.Grammar
import TypedExpr.Proofs.Typing.Binder

/-!
# Typing of members and calls

What parts of the grammar give typed expressions for: the references to frames, and the members,
calls and indexers of a typed receiver.

* `Binder.Binds` — a part of the grammar gives expressions that are typed in every scope.
* `Scope.typed_current`, `Scope.typed_parent?`, … — references to frames.
* `Grammar.sequenceCall_typed` — a method of sequences, each with the lambda that it takes.
* **`Grammar.memberOrCall_gives`** — what stands behind a dot is typed, if the receiver is.
-/

namespace TypedExpr

variable {format : GuidFormat}

/-- In every scope, the part of the grammar gives expressions that are typed under its frames. -/
def Binder.Binds (P : Premises) (b : Binder Expr) : Prop :=
  ∀ c, P.Context c → Binder.Gives P c b (Expr.Typed P c.scope.types)

variable {P : Premises}

/-! ## References to frames -/

namespace Scope

variable {s : Scope} {e : Expr}

/-- The number of a frame is the number of those outside of it. -/
theorem typed_parameter [GuidFormat] (before : List Frame) {after : List Frame} {f : Frame}
    (h : s.frames = before ++ f :: after) :
    (Expr.parameter after.length f.ty).Typed P s.types := by
  refine .parameter ?_
  simp [types, h]

theorem typed_current (s : Scope) : s.current.Typed P s.types := by
  unfold current top depth
  cases hs : s.inner with
  | nil => exact typed_parameter [] (by rw [frames, hs, List.nil_append])
  | cons f rest =>
    have split : s.frames = [] ++ f :: (rest ++ [s.base]) := by
      rw [frames, hs]
      rfl
    have h := typed_parameter (P := P) [] split
    simpa using h

theorem typed_parent? (h : s.parent? = some e) : e.Typed P s.types := by
  unfold parent? at h
  split at h
  · cases h
  next f rest hs =>
    cases h
    cases rest with
    | nil => exact typed_parameter [f] (by rw [frames, hs]; rfl)
    | cons g rest =>
      have h := typed_parameter (P := P) (s := s) (f := g) [f]
        (show s.frames = f :: g :: (rest ++ [s.base]) by rw [frames, hs]; rfl)
      simpa using h

theorem typed_root (s : Scope) : s.root.Typed P s.types :=
  typed_parameter s.inner rfl

theorem typed_resolve? {name : String} (h : s.resolve? name = some e) : e.Typed P s.types := by
  -- the frames that were passed over stand in front of those that are left
  suffices ∀ before after, s.frames = before ++ after → resolveIn? name after = some e →
      e.Typed P s.types from this [] s.frames rfl h
  intro before after hs h
  induction after generalizing before with
  | nil => cases h
  | cons f rest ih =>
    unfold resolveIn? at h
    split at h
    · cases h
      exact typed_parameter _ hs
    · exact ih (before ++ [f]) (by simp [hs]) h

end Scope

namespace Grammar

open Binder

variable {c : BindContext} {inner : Binder Expr} {e x : Expr} {t : Ty}

/-! ## Literals -/

theorem integerValue?_conforms {text : String} {v : Value} (h : integerValue? text = some v) :
    v.Conforms v.ty ∧ v.ty.WellFormed := by
  have word (t : IntType) (n : Word t) : (Value.int t n).Conforms (Value.int t n).ty ∧
      (Value.int t n).ty.WellFormed := ⟨.int t n, Ty.wellFormed_int t⟩
  unfold integerValue? at h
  obtain ⟨n, -, rfl⟩ := Option.map_eq_some_iff.1 h
  simp only
  repeat' split
  all_goals exact word _ _

theorem realValue?_conforms {text : String} {v : Value} (h : realValue? text = some v) :
    v.Conforms v.ty ∧ v.ty.WellFormed := by
  have double (x : Float) : (Value.double x).Conforms (Value.double x).ty ∧
      (Value.double x).ty.WellFormed := ⟨.double x, Ty.wellFormed_of_subterms rfl rfl⟩
  unfold realValue? at h
  simp only at h
  split at h
  · obtain ⟨x, -, rfl⟩ := Option.map_eq_some_iff.1 h
    exact ⟨.single _, Ty.wellFormed_of_subterms rfl rfl⟩
  · obtain ⟨x, -, rfl⟩ := Option.map_eq_some_iff.1 h
    exact double x
  · obtain ⟨x, -, rfl⟩ := Option.map_eq_some_iff.1 h
    exact double x

theorem numberLiteral_gives {value? : String → Option Value} {Γ : List Ty}
    (h : ∀ text v, value? text = some v → v.Conforms v.ty ∧ v.ty.WellFormed) :
    Gives P c (numberLiteral value?) (Expr.Typed P Γ) := by
  refine advance_gives.bind fun t _ => ?_
  split
  next v hv => exact .pure (.ofValue (h _ v hv).1 (h _ v hv).2)
  next => exact throw_gives _

theorem literal_gives {v : Value} {Γ : List Ty} (hv : v.Conforms v.ty) (ht : v.ty.WellFormed) :
    Gives P c (literal v) (Expr.Typed P Γ) :=
  advance_gives.bind fun _ _ => .pure (.ofValue hv ht)

/-! ## Members and calls -/

theorem constant_conforms {m : Member} {v : Value} (hm : m ∈ MemberTable.membersOf t)
    (hv : m.kind = .constant v) : v.Conforms m.ty := by
  cases t with
  | record d =>
    obtain ⟨i, hi, rfl⟩ := List.mem_mapIdx.1 hm
    cases hv
  | enum d =>
    obtain ⟨c, -, rfl⟩ := List.mem_map.1 hm
    cases hv
    exact .enum d c.2
  | string | grouping =>
    rw [List.mem_singleton.1 hm] at hv
    cases hv
  | nullable t =>
    rcases List.mem_cons.1 hm with rfl | hm
    · cases hv
    · rw [List.mem_singleton.1 hm] at hv
      cases hv
  | _ => cases hm

theorem memberAccess_typed {Γ : List Ty} {m : Member} (env : P.Environment Γ)
    (h : x.Typed P Γ) (hm : m ∈ MemberTable.membersOf x.ty) :
    (memberAccess x m).Typed P Γ := by
  unfold memberAccess
  split
  next v hv =>
    refine .literal (fun _ => ?_) fun strict => (h.allows env strict).member hm
    exact constant_conforms hm hv
  next hk => exact .member h hm (by unfold Member.isStatic; split <;> simp_all)

theorem parentReference_gives (keyword : String) (offset : Nat) :
    Gives P c (parentReference keyword offset) (Expr.Typed P c.scope.types) := by
  refine scope_gives.bind fun s hs => ?_
  subst hs
  split
  next e he => exact .pure (Scope.typed_parent? he)
  next => exact fail_gives _ _

theorem isCallable_gives (t : Ty) (name : String) :
    Gives P c (isCallable t name) fun _ => True := by
  unfold isCallable
  split
  · exact .pure trivial
  · exact (findMethods_gives t name).bind fun _ _ => .pure trivial

theorem expressionList_gives (hi : inner.Binds P) (ctx : P.Context c) :
    Gives P c (expressionList inner) fun es => ∀ e ∈ es, e.Typed P c.scope.types := by
  refine Gives.bind (Q := fun es => ∀ e ∈ es, e.Typed P c.scope.types) ?_ fun es hes => ?_
  · refine separated_gives (fun es hes => ?_) nofun
    refine (hi c ctx).bind fun e he => .pure ?_
    exact List.forall_mem_cons.2 ⟨he, hes⟩
  · exact .pure fun e he => hes e (List.mem_reverse.1 he)

theorem argumentList_gives (hi : inner.Binds P) (ctx : P.Context c) :
    Gives P c (argumentList inner) fun es => ∀ e ∈ es, e.Typed P c.scope.types := by
  have close (es : List Expr) (hes : ∀ e ∈ es, e.Typed P c.scope.types) :
      Gives P c (do
        let _ ← expect (.symbol .rightParen)
        return es) fun es => ∀ e ∈ es, e.Typed P c.scope.types :=
    (expect_gives _).bind fun _ _ => .pure hes
  refine (expect_gives _).bind fun _ _ => (isSymbol_gives _).bind fun empty _ => ?_
  simp only
  split
  · exact (Gives.pure nofun).bind close
  · exact (expressionList_gives hi ctx).bind close

theorem lambdaName?_gives : Gives P c lambdaName? fun _ => True := by
  refine (isKind_gives _).bind fun _ _ => ?_
  split
  · refine peekKind_gives.bind fun _ _ => ?_
    split
    · exact advance_gives.bind fun _ _ => advance_gives.bind fun _ _ => .pure trivial
    · exact .pure trivial
  · exact .pure trivial

/-- The body of a lambda is typed under one more frame. -/
theorem lambdaBody_gives (hi : inner.Binds P) (ctx : P.Context c) (ht : P.allows t) :
    Gives P c (lambdaBody inner t) (Expr.Typed P (c.scope.types ++ [t])) := by
  refine lambdaName?_gives.bind fun name _ => inScope_gives ?_
  have h := hi _ (ctx.push ht name)
  rwa [Scope.types_push] at h

/-- The type of the plain argument of a method of sequences. -/
def valueTy (item : Ty) (m : SequenceMethod) : Ty :=
  if m = .contains then item else .int .int32

theorem sequenceValue_gives (hi : inner.Binds P) (ctx : P.Context c) {item : Ty}
    (ht : P.allows item) (m : SequenceMethod) (offset : Nat) :
    Gives P c (sequenceValue inner x item m offset)
      (·.HasType P c.scope.types (valueTy item m)) := by
  have allowed : P.allows (valueTy item m) := by
    unfold valueTy
    split
    · exact ht
    · exact fun _ => Ty.wellFormed_int _
  refine (hi c ctx).bind fun e he => ?_
  refine schema_gives.bind fun s hs => ?_
  subst hs
  split
  next p hp => exact .pure (he.promote? allowed hp)
  next => exact fail_gives _ _

theorem sumTy_isNumeric (h : t.nonNullable.isNumeric = true) :
    (SequenceMethod.sumTy t).nonNullable.isNumeric = true := by
  have hp := Ty.isNumeric_promoted h
  unfold SequenceMethod.sumTy
  rwa [Ty.nonNullable_lift_of_isNumeric hp]

/-- The type of a sum is the type of the sum of such sums. -/
theorem sumTy_sumTy (h : t.nonNullable.isNumeric = true) :
    SequenceMethod.sumTy (SequenceMethod.sumTy t) = SequenceMethod.sumTy t := by
  have hp := Ty.isNumeric_promoted h
  unfold SequenceMethod.sumTy
  rw [Ty.nonNullable_lift_of_isNumeric hp, Ty.promoted_promoted, Ty.isNullable_lift_of_isNumeric hp]

/-- A call of a method of sequences with a lambda and an argument that it takes. -/
theorem sequenceCall_typed {Γ : List Ty} {item : Ty} {lambda argument : Option Expr}
    (env : P.Environment Γ) (hx : x.Typed P Γ) (element : x.ty.element? = some item)
    (m : SequenceMethod) (hl : ∀ b ∈ lambda, b.Typed P (Γ ++ [item]))
    (accepted : ∀ b ∈ lambda, m.role.accepts b.ty = true)
    (given : m.argument = .lambda ∨ m.impliesIdentity = true → lambda.isSome = true)
    (ha : ∀ a ∈ argument, a.HasType P Γ (valueTy item m))
    (value : m.argument = .value → argument.isSome = true) :
    (Expr.sequenceCall x m
      (if m = .sum then
        lambda.map fun body => body.coerceTo P.schema (m.resultTy item (lambda.map Expr.ty))
      else lambda)
      argument (m.resultTy item (lambda.map Expr.ty))).Typed P Γ := by
  have argumentTy (hv : m.argument = .value) : argument.map Expr.ty = some (valueTy item m) := by
    obtain ⟨a, rfl⟩ := Option.isSome_iff_exists.1 (value hv)
    exact congrArg some (ha a rfl).ty
  split
  next hm =>
    subst hm
    obtain ⟨body, rfl⟩ := Option.isSome_iff_exists.1 (given (Or.inr rfl))
    have number : body.ty.nonNullable.isNumeric = true := accepted body rfl
    have inner := env.push fun strict => (hx.allows env strict).element element
    have hb : (body.coerceTo P.schema (SequenceMethod.sumTy body.ty)).HasType P (Γ ++ [item])
        (SequenceMethod.sumTy body.ty) :=
      Binding.coerceTo_promoted inner (hl body rfl) (b := body.ty.isNullable) number
    show (Expr.sequenceCall x .sum (some (body.coerceTo P.schema (SequenceMethod.sumTy body.ty)))
      argument (SequenceMethod.sumTy body.ty)).Typed P Γ
    refine .sequenceCall hx element ?_ (fun a h => (ha a h).typed)
      ⟨?_, fun _ => rfl, argumentTy, ?_, ?_⟩
    · rintro _ ⟨⟩
      exact hb.typed
    · rintro _ ⟨⟩
      show Ty.isNumeric (Expr.ty (body.coerceTo _ _)).nonNullable = true
      rw [hb.ty]
      exact sumTy_isNumeric number
    · exact fun _ => congrArg some hb.ty
    · show SequenceMethod.sumTy body.ty = SequenceMethod.sumTy (body.coerceTo _ _).ty
      rw [hb.ty, sumTy_sumTy number]
  next hm =>
    refine .sequenceCall hx element hl (fun a h => (ha a h).typed) ⟨?_, ?_, argumentTy, ?_, rfl⟩
    · intro u hu
      obtain ⟨b, hb, rfl⟩ := Option.map_eq_some_iff.1 hu
      exact accepted b hb
    · exact fun h => by simpa using given h
    · exact fun h => absurd h hm

theorem sequenceResult_gives (ctx : P.Context c) {item : Ty} {lambda argument : Option Expr}
    (hx : x.Typed P c.scope.types) (element : x.ty.element? = some item) (m : SequenceMethod)
    (hl : ∀ b ∈ lambda, b.Typed P (c.scope.types ++ [item]))
    (ha : ∀ a ∈ argument, a.HasType P c.scope.types (valueTy item m))
    (given : m.argument = .lambda → lambda.isSome = true)
    (value : m.argument = .value → argument.isSome = true) (bodyOffset : Nat) :
    Gives P c (sequenceResult x item m lambda argument bodyOffset)
      (Expr.Typed P c.scope.types) := by
  refine scope_gives.bind fun s hs => ?_
  subst hs
  simp only
  generalize hl' : lambda.or _ = lambda'
  have typed : ∀ b ∈ lambda', b.Typed P (c.scope.types ++ [item]) := by
    intro b hb
    subst hl'
    rcases Option.or_eq_some_iff.1 hb with hb | ⟨-, hb⟩
    · exact hl b hb
    · split at hb <;> cases hb
      -- the implied lambda refers to its own frame
      refine .parameter ?_
      rw [← Scope.length_types, List.getElem?_concat_length]
  have present : m.argument = .lambda ∨ m.impliesIdentity = true → lambda'.isSome = true := by
    intro h
    subst hl'
    rcases h with h | h
    · simp [given h]
    · simp [h]
  have close (accepted : ∀ b ∈ lambda', m.role.accepts b.ty = true) :=
    sequenceCall_typed ctx.environment hx element m typed accepted present ha value
  split
  next body =>
    split
    next => exact (fail_gives _ _ (Q := fun _ => False)).bind fun _ h => h.elim
    next accepts =>
      refine schema_gives.bind fun s hs => ?_
      subst hs
      refine .pure (close ?_)
      rintro _ ⟨⟩
      simpa using accepts
  next none =>
    refine schema_gives.bind fun s hs => ?_
    subst hs
    exact .pure (close fun b hb => absurd hb (none b))

theorem sequenceCall_gives (hi : inner.Binds P) (ctx : P.Context c) {item : Ty}
    (hx : x.Typed P c.scope.types) (element : x.ty.element? = some item) (m : SequenceMethod)
    (offset : Nat) :
    Gives P c (sequenceCall inner x item m offset) (Expr.Typed P c.scope.types) := by
  have allowed : P.allows item := fun strict => (hx.allows ctx.environment strict).element element
  refine (expect_gives _).bind fun _ _ => current_gives.bind fun token _ => ?_
  have close (lambda argument : Option Expr)
      (hl : ∀ b ∈ lambda, b.Typed P (c.scope.types ++ [item]))
      (ha : ∀ a ∈ argument, a.HasType P c.scope.types (valueTy item m))
      (given : m.argument = .lambda → lambda.isSome = true)
      (value : m.argument = .value → argument.isSome = true) :
      Gives P c (do
        let parts ← pure (lambda, argument)
        let _ ← expect (.symbol .rightParen)
        sequenceResult x item m parts.1 parts.2 token.offset) (Expr.Typed P c.scope.types) := by
    refine (Gives.pure (Q := (· = (lambda, argument))) rfl).bind fun parts hparts => ?_
    subst hparts
    refine (expect_gives _).bind fun _ _ => ?_
    exact sequenceResult_gives ctx hx element m hl ha given value _
  simp only
  split
  next hm => exact close none none nofun nofun (by simp [hm]) (by simp [hm])
  next hm =>
    refine (sequenceValue_gives hi ctx allowed m offset).bind fun a ha => ?_
    refine close none (some a) nofun ?_ (by simp [hm]) fun _ => rfl
    rintro _ ⟨⟩
    exact ha
  next hm =>
    refine (lambdaBody_gives hi ctx allowed).bind fun b hb => ?_
    refine close (some b) none ?_ nofun (fun _ => rfl) (by simp [hm])
    rintro _ ⟨⟩
    exact hb
  next hm =>
    refine (isSymbol_gives _).bind fun empty _ => ?_
    split
    · exact close none none nofun nofun (by simp [hm]) (by simp [hm])
    · refine (lambdaBody_gives hi ctx allowed).bind fun b hb => ?_
      refine close (some b) none ?_ nofun (fun _ => rfl) (by simp [hm])
      rintro _ ⟨⟩
      exact hb

/-- Arguments that were promoted one by one have the types of the parameters. -/
theorem promoteAll?_typed {Γ : List Ty} : ∀ {es : List Expr} {ts : List Ty}
    {ps : List Promotion}, (∀ e ∈ es, e.Typed P Γ) → (∀ t ∈ ts, P.allows t) →
    Overload.promoteAll? P.schema es ts = some ps →
    (∀ e ∈ ps.map Promotion.expr, e.Typed P Γ) ∧ (ps.map Promotion.expr).map Expr.ty = ts
  | [], [], ps, _, _, h => by
    cases h
    exact ⟨nofun, rfl⟩
  | e :: es, t :: ts, ps, he, ht, h => by
    obtain ⟨p, hp, h⟩ := Option.bind_eq_some_iff.1 h
    obtain ⟨qs, hqs, h⟩ := Option.bind_eq_some_iff.1 h
    cases h
    rw [List.forall_mem_cons] at he ht
    have head := he.1.promote? ht.1 hp
    have tail := promoteAll?_typed he.2 ht.2 hqs
    refine ⟨?_, ?_⟩
    · rw [List.map_cons, List.forall_mem_cons]
      exact ⟨head.typed, tail.1⟩
    · rw [List.map_cons, List.map_cons, head.ty, tail.2]
  | [], _ :: _, _, _, _, h => by cases h
  | _ :: _, [], _, _, _, h => by cases h

/-- The method that is chosen is one of those asked for, and it is called with arguments of the
types of its parameters. -/
theorem resolve_typed {Γ : List Ty} {methods : List Method} {args : List Expr} {chosen : Overload}
    (hp : ∀ m ∈ methods, ∀ t ∈ m.params, P.allows t) (ha : ∀ a ∈ args, a.Typed P Γ)
    (h : Overload.resolve P.schema methods args = .ok chosen) :
    chosen.method ∈ methods ∧ (∀ a ∈ chosen.args, a.Typed P Γ) ∧
      chosen.args.map Expr.ty = chosen.method.params := by
  obtain ⟨m, hm, hc⟩ := List.mem_filterMap.1 (Overload.mem_of_choose h)
  obtain ⟨ps, hps, rfl⟩ := Option.map_eq_some_iff.1 hc
  exact ⟨hm, promoteAll?_typed ha (hp m hm) hps⟩

theorem overloadedCall_gives (ctx : P.Context c) (hx : x.Typed P c.scope.types) (name : String)
    {methods : List Method} (hm : ∀ m ∈ methods, m ∈ (MemberTable.of P.schema x.ty).methods)
    {args : List Expr} (ha : ∀ a ∈ args, a.Typed P c.scope.types) (offset : Nat) :
    Gives P c (overloadedCall x name methods args offset) (Expr.Typed P c.scope.types) := by
  refine schema_gives.bind fun s hs => ?_
  subst hs
  split
  next chosen h =>
    have allowed : ∀ m ∈ methods, ∀ t ∈ m.params, P.allows t := fun m hm' t ht strict =>
      ((hx.allows ctx.environment strict).method (ctx.environment.lawful.schema strict)
        (hm m hm')).2 t ht
    obtain ⟨known, each, types⟩ := resolve_typed allowed ha h
    exact .pure (.call hx (hm _ known) each types)
  next => exact fail_gives _ _
  next => exact fail_gives _ _

theorem methodCall_gives (hi : inner.Binds P) (ctx : P.Context c) (hx : x.Typed P c.scope.types)
    (name : String) (offset : Nat) :
    Gives P c (methodCall inner x name offset) (Expr.Typed P c.scope.types) := by
  unfold methodCall
  split
  next item m element _ => exact sequenceCall_gives hi ctx hx element m offset
  next =>
    refine (findMethods_gives x.ty name).bind fun methods hm => ?_
    refine (argumentList_gives hi ctx).bind fun args ha => ?_
    exact overloadedCall_gives ctx hx name hm ha offset

theorem memberOrCall_gives (hi : inner.Binds P) (ctx : P.Context c)
    (hx : x.Typed P c.scope.types) :
    Gives P c (memberOrCall inner x) (Expr.Typed P c.scope.types) := by
  refine expectIdentifier_gives.bind fun t _ => (isSymbol_gives _).bind fun _ _ => ?_
  split
  · exact methodCall_gives hi ctx hx _ _
  · refine (findMember?_gives x.ty _).bind fun m? hm => ?_
    split
    next m => exact .pure (memberAccess_typed ctx.environment hx (hm m rfl))
    next => exact fail_gives _ _

theorem indexer_gives (hi : inner.Binds P) (ctx : P.Context c) (hx : x.Typed P c.scope.types) :
    Gives P c (indexer inner x) (Expr.Typed P c.scope.types) := by
  refine (expect_gives _).bind fun _ _ => (hi c ctx).bind fun position hp => ?_
  refine (expect_gives _).bind fun _ _ => schema_gives.bind fun s hs => ?_
  subst hs
  split
  next item p hitem hpos =>
    have hpos := hp.promote? (fun _ => Ty.wellFormed_int _) hpos
    refine .pure (.index hx hpos.typed hpos.ty ?_)
    split at hitem
    next ht =>
      cases hitem
      exact Or.inl ⟨ht, rfl⟩
    next => exact Or.inr hitem
  next => exact fail_gives _ _

end Grammar

end TypedExpr
