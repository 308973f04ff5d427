import TypedExpr.Proofs.Typing.Binding

/-!
# What the binder ensures

A logic for parts of the grammar.  While tokens are read the schema and the registered types stay
as they are; a part of the grammar that is run under a context of the premises gives a result with
a property, or fails.

* `Premises.Keeps` — what stays the same.
* `Premises.Context` — the context in which a part of the grammar is run.
* `Binder.Gives` — the property of the results, with its rules.
* `Binder.chain_gives`, `Binder.separated_gives` — repetition keeps a property.
-/

namespace TypedExpr

variable {format : GuidFormat}

/-! ## Contexts -/

/-- The types of all frames, from the outside in. -/
def Scope.types (s : Scope) : List Ty := (s.frames.map Frame.ty).reverse

@[simp] theorem Scope.types_push (s : Scope) (t : Ty) (alias? : Option String) :
    (s.push t alias?).types = s.types ++ [t] := by
  simp [types, frames, push]

@[simp] theorem Scope.types_ofElement (t : Ty) : (ofElement t).types = [t] := rfl

theorem Scope.length_types (s : Scope) : s.types.length = s.depth := by
  simp [types, frames, depth]

theorem Scope.base_mem_types (s : Scope) : s.base.ty ∈ s.types := by
  simp [types, frames]

namespace Premises

/-- The state belongs to the premises: it has their schema, and the registered types may stand in
trees. -/
structure Keeps (P : Premises) (s : BindState) : Prop where
  schema : s.workspace.registry.schema = P.schema
  named : ∀ p ∈ s.workspace.registry.named, P.allows p.2

/-- The context belongs to the premises: it has their parameters, and the types of its frames may
stand in trees. -/
structure Context (P : Premises) (c : BindContext) : Prop where
  params : c.params = P.params
  environment : P.Environment c.scope.types

/-- The context inside a lambda. -/
theorem Context.push {P : Premises} {c : BindContext} {t : Ty} (ctx : P.Context c)
    (h : P.allows t) (alias? : Option String) :
    P.Context { c with scope := c.scope.push t alias? } := by
  refine ⟨ctx.params, ?_⟩
  rw [Scope.types_push]
  exact ctx.environment.push h

end Premises

namespace Binder

variable {P : Premises} {c : BindContext} {α β : Type} {Q : α → Prop}

/-- Run under the context, the part of the grammar gives a result of the property, or fails. -/
def Gives [GuidFormat] (P : Premises) (c : BindContext) (b : Binder α) (Q : α → Prop) : Prop :=
  Ensures P.Keeps (b c) Q (fun _ => True)

/-! ## Steps -/

theorem Gives.pure {a : α} (h : Q a) : Gives P c (pure a) Q := Ensures.pure h

theorem Gives.bind {Q' : β → Prop} {x : Binder α} {f : α → Binder β} (hx : Gives P c x Q)
    (hf : ∀ a, Q a → Gives P c (f a) Q') : Gives P c (x >>= f) Q' :=
  Ensures.bind hx hf

theorem Gives.mono {Q' : α → Prop} {x : Binder α} (h : Gives P c x Q) (hQ : ∀ a, Q a → Q' a) :
    Gives P c x Q' :=
  Ensures.mono h hQ fun _ => id

theorem throw_gives (e : CompileError) : Gives P c (throw e : Binder α) Q :=
  Ensures.throw trivial

theorem fail_gives (cause : ParseCause) (offset : Nat) :
    Gives P c (fail cause offset : Binder α) Q :=
  throw_gives _

theorem lift_gives {r : Except CompileError α} (h : Meets r Q fun _ => True) :
    Gives P c (liftM r : Binder α) Q :=
  Ensures.lift h

theorem read_gives : Gives P c read (· = c) := Ensures.pure rfl

theorem get_gives : Gives P c get P.Keeps := fun _ hs => ⟨hs, meets_ok.2 hs⟩

theorem set_gives {s : BindState} (h : P.Keeps s) : Gives P c (set s) fun _ => True :=
  fun _ _ => ⟨h, meets_ok.2 trivial⟩

/-! ## Tokens -/

theorem current_gives : Gives P c current fun _ => True :=
  get_gives.bind fun _ _ => .pure trivial

theorem tokenCount_gives : Gives P c tokenCount fun _ => True :=
  read_gives.bind fun _ _ => .pure trivial

theorem checkFault_gives : Gives P c checkFault fun _ => True := by
  refine read_gives.bind fun c' _ => ?_
  cases c'.fault with
  | some e => exact throw_gives _
  | none => exact .pure trivial

theorem advance_gives : Gives P c advance fun _ => True := by
  refine get_gives.bind fun s hs => ?_
  split
  next t u rest _ =>
    have keeps : P.Keeps { s with tokens := u :: rest } := ⟨hs.schema, hs.named⟩
    exact (set_gives keeps).bind fun _ _ => .pure trivial
  next => exact checkFault_gives.bind fun _ _ => .pure trivial

theorem peekKind_gives : Gives P c peekKind fun _ => True := by
  refine get_gives.bind fun s hs => ?_
  split
  · exact .pure trivial
  · exact checkFault_gives.bind fun _ _ => .pure trivial

theorem unexpected_gives (expected : String) : Gives P c (unexpected expected : Binder α) Q :=
  current_gives.bind fun _ _ => fail_gives _ _

theorem isKind_gives (kind : TokenKind) : Gives P c (isKind kind) fun _ => True :=
  current_gives.bind fun _ _ => .pure trivial

theorem isSymbol_gives (s : Symbol) : Gives P c (isSymbol s) fun _ => True :=
  isKind_gives _

theorem expect_gives (kind : TokenKind) : Gives P c (expect kind) fun _ => True := by
  refine (isKind_gives kind).bind fun here _ => ?_
  split
  · exact advance_gives
  · exact unexpected_gives _

theorem expectIdentifier_gives : Gives P c expectIdentifier fun _ => True := expect_gives _

theorem expectEnd_gives : Gives P c expectEnd fun _ => True := by
  refine (isKind_gives _).bind fun here _ => ?_
  split
  · exact .pure trivial
  · exact unexpected_gives _

/-! ## Repetition -/

theorem chainFrom_gives {step : α → Binder (Option α)}
    (h : ∀ a, Q a → Gives P c (step a) fun b? => ∀ b ∈ b?, Q b) :
    ∀ (fuel : Nat) (a : α), Q a → Gives P c (chainFrom step fuel a) Q
  | 0, _, ha => .pure ha
  | fuel + 1, a, ha => by
    refine (h a ha).bind fun b? hb => ?_
    split
    next b => exact chainFrom_gives h fuel b (hb b rfl)
    next => exact .pure ha

/-- What every step keeps, a chain keeps. -/
theorem chain_gives {step : α → Binder (Option α)} {a : α}
    (h : ∀ a, Q a → Gives P c (step a) fun b? => ∀ b ∈ b?, Q b) (ha : Q a) :
    Gives P c (chain step a) Q :=
  tokenCount_gives.bind fun fuel _ => chainFrom_gives h fuel a ha

theorem separatedFrom_gives {item : α → Binder α} (h : ∀ a, Q a → Gives P c (item a) Q) :
    ∀ (fuel : Nat) (a : α), Q a → Gives P c (separatedFrom item fuel a) Q
  | 0, _, ha => .pure ha
  | fuel + 1, a, ha => by
    refine (h a ha).bind fun b hb => (isSymbol_gives _).bind fun more _ => ?_
    split
    · exact advance_gives.bind fun _ _ => separatedFrom_gives h fuel b hb
    · exact .pure hb

/-- What every item keeps, a list of items keeps. -/
theorem separated_gives {item : α → Binder α} {a : α} (h : ∀ a, Q a → Gives P c (item a) Q)
    (ha : Q a) : Gives P c (separated item a) Q :=
  tokenCount_gives.bind fun fuel _ => separatedFrom_gives h fuel a ha

/-! ## The scope and the registry -/

theorem scope_gives : Gives P c scope (· = c.scope) :=
  read_gives.bind fun _ hc => .pure (hc ▸ rfl)

theorem inScope_gives {t : Ty} {alias? : Option String} {b : Binder α}
    (h : Gives P { c with scope := c.scope.push t alias? } b Q) :
    Gives P c (inScope t alias? b) Q := h

theorem schema_gives : Gives P c schema (· = P.schema) :=
  get_gives.bind fun _ hs => .pure hs.schema

theorem members_gives (t : Ty) : Gives P c (members t) (· = MemberTable.of P.schema t) := by
  refine get_gives.bind fun s hs => ?_
  have keeps : P.Keeps { s with workspace := (s.workspace.members t).2 } := by
    refine ⟨(s.workspace.registry.members_schema t).trans hs.schema, ?_⟩
    show ∀ p ∈ (s.workspace.registry.members t).2.named, _
    rw [Registry.members_named]
    exact hs.named
  refine (set_gives keeps).bind fun _ _ => .pure ?_
  rw [← hs.schema]
  exact s.workspace.registry.members_fst t

theorem findMember?_gives (t : Ty) (name : String) :
    Gives P c (findMember? t name) fun m? => ∀ m ∈ m?, m ∈ MemberTable.membersOf t := by
  refine (members_gives t).bind fun table ht => .pure fun m hm => ?_
  subst ht
  rcases Option.or_eq_some_iff.1 hm with h | ⟨-, h⟩
  · exact List.mem_of_find?_eq_some h
  · exact List.mem_of_find?_eq_some h

theorem findMethods_gives (t : Ty) (name : String) :
    Gives P c (findMethods t name) fun ms => ∀ m ∈ ms, m ∈ (MemberTable.of P.schema t).methods := by
  refine (members_gives t).bind fun table ht => .pure fun m hm => ?_
  subst ht
  unfold MemberTable.findMethods at hm
  simp only at hm
  split at hm
  · exact (List.mem_filter.1 hm).1
  · exact (List.mem_filter.1 hm).1

/-- A name stands for a type without items that may stand in trees. -/
theorem findType?_gives (ctx : P.Context c) (name : String) :
    Gives P c (findType? name) fun t? => ∀ t ∈ t?, P.allows t ∧ t.nonNullable.element? = none := by
  refine scope_gives.bind fun s hs => get_gives.bind fun state keeps => ?_
  subst hs
  obtain ⟨schema, named, -⟩ := state.workspace.registry.findType_snd name c.scope.base.ty
  have keeps' : P.Keeps
      { state with workspace := (state.workspace.findType name c.scope.base.ty).2 } := by
    refine ⟨schema.trans keeps.schema, ?_⟩
    show ∀ p ∈ (state.workspace.registry.findType name c.scope.base.ty).2.named, _
    rw [named]
    exact keeps.named
  refine (set_gives keeps').bind fun _ _ => .pure fun t ht => ?_
  have ht : ((state.workspace.registry.findType name c.scope.base.ty).1.or
    (Ty.predefined? name)) = some t := ht
  rw [Registry.findType_fst] at ht
  rcases Option.or_eq_some_iff.1 ht with h | ⟨-, h⟩
  · constructor
    · intro strict
      have lawful := ctx.environment.lawful.schema strict
      exact Registry.wellFormed_of_findType? (keeps.schema ▸ lawful)
        (fun p hp => keeps.named p hp strict)
        (ctx.environment.frames _ (Scope.base_mem_types _) strict) h
    · have exposed := Registry.isExposed_of_findType? h
      cases t <;> first | rfl | cases exposed
  · constructor
    · intro _
      exact predefined?_wellFormed h
    · unfold Ty.predefined? at h
      split at h <;> cases h <;> rfl

theorem bound_gives {rule : Schema → Except CompileError α}
    (h : Meets (rule P.schema) Q fun _ => True) : Gives P c (bound rule) Q :=
  schema_gives.bind fun _ hs => lift_gives (hs ▸ h)

theorem anonymousRecord_gives (fields : List (String × Ty)) :
    Gives P c (anonymousRecord fields) fun d => d.fields = fields := by
  refine get_gives.bind fun s hs => ?_
  have keeps : P.Keeps { s with workspace := { s.workspace with
      nextAnonymous := s.workspace.nextAnonymous + 1 } } := ⟨hs.schema, hs.named⟩
  exact (set_gives keeps).bind fun _ _ => .pure rfl

end Binder

end TypedExpr
