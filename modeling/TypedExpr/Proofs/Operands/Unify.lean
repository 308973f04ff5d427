import TypedExpr.Proofs.Operands.Promotion
import TypedExpr.Registry

/-!
# Exchanging two operands

Two operands are brought to one type by rules that ask the right one first.  Which type they get
depends on that order only where both are constants and each adapts to the other one, or where two
records declare conversions of each other.

* `Binding.MutuallyAdapt` — two constants that each adapt to the type of the other one.
* `Schema.OneSided` — of two records, at most one speaks of the other.
* `Binding.commonTy?_swap` — the type that operands meet in.
* **`Binding.unify_swap`** — exchanged operands become the same two expressions, exchanged.
-/

namespace TypedExpr

variable {format : GuidFormat}

/-! ## Records that speak of records -/

/-- The types that a side of a declared comparison speaks of. -/
def Operand.mentioned : Operand → List Ty
  | this => []
  | other t => t.subterms

namespace Schema

/-- A record speaks of another one in the comparisons or in the conversions that it declares. -/
def Mentions (s : Schema) (d e : RecordDef) : Prop :=
  (∃ c ∈ s.comparisons d, .record e ∈ c.left.mentioned ++ c.right.mentioned) ∨
    ∃ c ∈ s.conversions d, .record e ∈ c.source.subterms

/-- Of two records, at most one speaks of the other one.  It is so wherever a record has to be known
before another one can speak of it. -/
def OneSided (s : Schema) : Prop :=
  ∀ d e : RecordDef, d ≠ e → s.Mentions d e → ¬ s.Mentions e d

open Ty (mem_subterms_self)

variable {s : Schema} {a b t : Ty} {c c' : ImplicitConversion} {d e : RecordDef}

/-! ## Conversions of operands -/

/-- A conversion of an operand is built-in, or its target declares it. -/
theorem operandConversion?_cases (h : s.operandConversion? a t = some c) :
    (a.implicit? t = some c ∧ c.kind ≠ .toObject) ∨
      ∃ d, t = .record d ∧ c.cost = 20 ∧ ∃ conversion ∈ s.conversions d, conversion.source = a := by
  obtain ⟨h, value⟩ := Option.filter_eq_some_iff.1 h
  rcases Option.or_eq_some_iff.1 h with built | ⟨-, declared⟩
  · exact Or.inl ⟨built, bne_iff_ne.1 value⟩
  · split at declared
    next d _ =>
      obtain ⟨i, hi, rfl⟩ := Option.map_eq_some_iff.1 declared
      obtain ⟨hlt, hs, -⟩ := List.findIdx?_eq_some_iff_getElem.1 hi
      exact Or.inr ⟨d, rfl, rfl, _, List.getElem_mem hlt, beq_iff_eq.1 hs⟩
    next => cases declared

/-- From a record, the only built-in conversion adds null to it. -/
theorem cost_of_implicit?_record (h : (Ty.record d).implicit? t = some c) (differ : .record d ≠ t)
    (value : c.kind ≠ .toObject) : c.cost = 1 := by
  have kind := Ty.implicit?_sound h
  generalize c.kind = k at kind value
  cases kind with
  | identity => exact absurd rfl differ
  | numericWidening source _ | wrapNumber source _ => cases source
  | toObject => exact absurd rfl value
  | wrap plain =>
    obtain ⟨kind, -, wrap⟩ := Ty.implicit?_wrap plain
    rw [wrap] at h
    cases h
    rfl

/-- A record that declares a conversion from another one, or from that one with null, speaks of
it. -/
theorem mentions_of_source {conversion : Conversion} (mem : conversion ∈ s.conversions d)
    (source : conversion.source.nonNullable = .record e) : s.Mentions d e := by
  refine Or.inr ⟨conversion, mem, ?_⟩
  cases h : conversion.source with
  | nullable t =>
    rw [h] at source
    exact List.mem_cons_of_mem _ (source ▸ mem_subterms_self t)
  | record d' =>
    rw [h] at source
    exact source ▸ mem_subterms_self _
  | _ =>
    rw [h] at source
    cases source

/-- Where two operands convert to each other, one way is cheaper, unless two records declare the
two conversions. -/
theorem cost_ne_or_records (differ : a ≠ b) (ha : s.operandConversion? b a = some c)
    (hb : s.operandConversion? a b = some c') :
    c.cost ≠ c'.cost ∨
      ∃ d e, a = .record d ∧ b = .record e ∧ s.Mentions d e ∧ s.Mentions e d := by
  rcases operandConversion?_cases ha with ⟨ba, value⟩ | ⟨d, rfl, cost, f, hf, source⟩
  · rcases operandConversion?_cases hb with ⟨ab, value'⟩ | ⟨e, rfl, cost', g, hg, source'⟩
    · exact absurd (Ty.implicit?_antisymm ab ba value' value) differ
    · refine Or.inl ?_
      rw [cost_of_implicit?_record ba (Ne.symm differ) value, cost']
      decide
  · rcases operandConversion?_cases hb with ⟨ab, value'⟩ | ⟨e, rfl, cost', g, hg, source'⟩
    · refine Or.inl ?_
      rw [cost_of_implicit?_record ab differ value', cost]
      decide
    · exact Or.inr ⟨d, e, rfl, rfl, mentions_of_source hf (by rw [source]; rfl),
        mentions_of_source hg (by rw [source']; rfl)⟩

end Schema

/-! ## The type that operands meet in -/

namespace Binding

open Ty (nonNullable_of_plain)

variable {s : Schema} {a b t : Ty}

/-- Whether both operands convert to a type. -/
def meetIn (s : Schema) (a b t : Ty) : Bool :=
  (s.operandConversion? a t).isSome && (s.operandConversion? b t).isSome

theorem meetIn_comm (s : Schema) (a b t : Ty) : meetIn s a b t = meetIn s b a t :=
  Bool.and_comm _ _

/-- The type of an operand, as a type for both. -/
def own (nullable : Bool) (t : Ty) : Ty := t.nonNullable.lift nullable

/-- Two candidates may be exchanged if they are not both accepted, or are the same. -/
theorem find?_exchange {α : Type} {p : α → Bool} {x y : α} {rest : List α}
    (h : p x = true → p y = true → x = y) :
    (x :: y :: rest).find? p = (y :: x :: rest).find? p := by
  cases hx : p x <;> cases hy : p y <;> simp [hx, hy]
  exact h hx hy

theorem exists_operandConversion? {c : ImplicitConversion} (h : a.implicit? t = some c)
    (value : c.kind ≠ .toObject) : s.operandConversion? a t ≠ none := by
  intro refused
  exact Option.filter_eq_none_iff.1 refused c (s.implicit?_built_in h) (bne_iff_ne.2 value)

/-- Where the type of an operand is not that of both, null was taken from it or added. -/
theorem own_cases {nullable : Bool} (hn : a.isNullable = true → nullable = true)
    (moved : own nullable a ≠ a) :
    a = .nullable (own nullable a) ∨
      a.isNullable = false ∧ nullable = true ∧ own nullable a = .nullable a := by
  cases nullable with
  | false =>
    have plain : a.isNullable = false := by simpa using hn
    exact absurd (nonNullable_of_plain plain) moved
  | true =>
    cases a with
    | nullable t =>
      refine Or.inl (congrArg Ty.nullable ?_)
      show t = t.nullableOf
      change t.nullableOf ≠ _ at moved
      unfold Ty.nullableOf at moved ⊢
      split at moved
      next accepts => rw [if_pos accepts]
      next => exact absurd rfl moved
    | _ => first | exact absurd rfl moved | exact Or.inr ⟨rfl, rfl, rfl⟩

/-- Only a record takes null from its own values, by a conversion that it declares. -/
theorem record_of_conversion {c : ImplicitConversion}
    (h : s.operandConversion? (.nullable t) t = some c) : ∃ d, t = .record d := by
  rcases Schema.operandConversion?_cases h with ⟨built, value⟩ | ⟨d, rfl, -⟩
  · have kind := Ty.implicit?_sound built
    generalize c.kind = k at kind value
    cases kind with
    | numericWidening source _ => cases source
    | toObject => exact absurd rfl value
    | wrapNumber source _ => cases source
  · exact ⟨d, rfl⟩

/-- Where operands meet in the type of the first one without its null, that is a record that
declares conversions of both. -/
theorem meet_taken {c c' : ImplicitConversion} (hb : b ≠ .null)
    (hba : s.operandConversion? b (.nullable t) = none)
    (fromA : s.operandConversion? (.nullable t) t = some c)
    (fromB : s.operandConversion? b t = some c') :
    ∃ d, t = .record d ∧ ∃ conversion ∈ s.conversions d, conversion.source = b := by
  obtain ⟨d, rfl⟩ := record_of_conversion fromA
  rcases Schema.operandConversion?_cases fromB with ⟨built, value⟩ | ⟨d', ⟨⟩, -, declared⟩
  · have kind := Ty.implicit?_sound built
    generalize c'.kind = k at kind value
    cases kind with
    | identity =>
      obtain ⟨k, value, wrap⟩ := Ty.implicit?_wrap (t := .record d) rfl
      exact absurd hba (exists_operandConversion? wrap value)
    | nullLiteral => exact absurd rfl hb
    | numericWidening _ target | enumToUnderlying _ target => cases target
  · exact ⟨d, rfl, declared⟩

/-- Where operands meet in the type of the first one with null added, the second one is a number
that may be null. -/
theorem meet_added {c : ImplicitConversion} (plain : a.isNullable = false) (hb : b ≠ .null)
    (nullable : b.isNullable = true) (hab : s.operandConversion? a b = none)
    (fromB : s.operandConversion? b (.nullable a) = some c) :
    ∃ u, b = .nullable u ∧ isNumericLike u = true := by
  rcases Schema.operandConversion?_cases fromB with ⟨built, value⟩ | ⟨d', ⟨⟩, -⟩
  have kind := Ty.implicit?_sound built
  generalize c.kind = k at kind value
  cases kind with
  | identity =>
    obtain ⟨k, value, wrap⟩ := Ty.implicit?_wrap plain
    exact absurd hab (exists_operandConversion? wrap value)
  | nullLiteral => exact absurd rfl hb
  | numericWidening _ target | enumToUnderlying _ target => cases target
  | wrap _ =>
    rw [plain] at nullable
    cases nullable
  | wrapNumber source _ =>
    cases b with
    | nullable u => exact ⟨u, rfl, source⟩
    | _ => cases nullable

/-- Operands of which neither converts to the type of the other one meet in the type of the first
for two reasons only: it is a record that declares conversions of both, or it is a number that the
other one, which may be null, widens to. -/
theorem meet_own {nullable : Bool} (hn : nullable = (a.isNullable || b.isNullable))
    (hb : b ≠ .null) (hab : s.operandConversion? a b = none)
    (hba : s.operandConversion? b a = none) (meet : meetIn s a b (own nullable a) = true) :
    (∃ d, a = .nullable (.record d) ∧ own nullable a = .record d ∧
      ∃ conversion ∈ s.conversions d, conversion.source = b) ∨
    a.isNullable = false ∧ ∃ u, b = .nullable u ∧ isNumericLike u = true := by
  obtain ⟨fromA, fromB⟩ := Bool.and_eq_true_iff.1 meet
  obtain ⟨c, hc⟩ := Option.isSome_iff_exists.1 fromA
  obtain ⟨c', hc'⟩ := Option.isSome_iff_exists.1 fromB
  have moved : own nullable a ≠ a := by
    intro same
    rw [same, hba] at hc'
    cases hc'
  have kept : a.isNullable = true → nullable = true := by
    intro h
    rw [hn, h, Bool.true_or]
  rcases own_cases kept moved with taken | ⟨plain, lifted, added⟩
  · left
    generalize own nullable a = t at hc hc' taken ⊢
    subst taken
    obtain ⟨d, rfl, declared⟩ := meet_taken hb hba hc hc'
    exact ⟨d, rfl, rfl, declared⟩
  · right
    rw [added] at hc'
    rw [hn, plain, Bool.false_or] at lifted
    exact ⟨plain, meet_added plain hb lifted hab hc'⟩

/-- If both operands meet in the type of either, two records declare conversions of each other. -/
theorem records_of_meet {nullable : Bool} (hn : nullable = (a.isNullable || b.isNullable))
    (ha : a ≠ .null) (hb : b ≠ .null) (hab : s.operandConversion? a b = none)
    (hba : s.operandConversion? b a = none) (first : meetIn s a b (own nullable a) = true)
    (second : meetIn s a b (own nullable b) = true) :
    ∃ d e, own nullable a = .record d ∧ own nullable b = .record e ∧
      s.Mentions d e ∧ s.Mentions e d := by
  rw [meetIn_comm] at second
  have hn' : nullable = (b.isNullable || a.isNullable) := hn.trans (Bool.or_comm _ _)
  rcases meet_own hn hb hab hba first with ⟨d, rfl, ownA, f, hf, fromB⟩ | ⟨plain, u, rfl, number⟩
  · rcases meet_own hn' ha hba hab second with
      ⟨e, rfl, ownB, g, hg, fromA⟩ | ⟨_, _, ⟨⟩, number⟩
    · exact ⟨d, e, ownA, ownB, Schema.mentions_of_source hf (by rw [fromB]; rfl),
        Schema.mentions_of_source hg (by rw [fromA]; rfl)⟩
    · cases number
  · rcases meet_own hn' ha hba hab second with ⟨_, ⟨⟩, -⟩ | ⟨⟨⟩, -⟩
    cases number

/-- The types of both operands are candidates, then the numeric ones. -/
theorem meetingTypes_eq (ha : a ≠ .null) (hb : b ≠ .null) :
    meetingTypes a b = own (a.isNullable || b.isNullable) a ::
      own (a.isNullable || b.isNullable) b ::
        commonNumeric.map (·.lift (a.isNullable || b.isNullable)) := by
  simp [meetingTypes, own, ha, hb, beq_false_of_ne ha, beq_false_of_ne hb]

theorem meetingTypes_null (b : Ty) : meetingTypes .null b = meetingTypes b .null := by
  by_cases hb : b = .null
  · rw [hb]
  · simp [meetingTypes, hb]

theorem commonTy?_eq (s : Schema) (a b : Ty) :
    commonTy? s a b = (meetingTypes a b).find? (meetIn s a b) := rfl

/-- **Operands of which neither converts to the type of the other one meet in the same type in
either order**, unless two records declare conversions of each other. -/
theorem commonTy?_swap (hab : s.operandConversion? a b = none)
    (hba : s.operandConversion? b a = none) (h : commonTy? s a b = some t)
    (free : s.OneSided ∨ ∀ d, t ≠ .record d) : commonTy? s b a = some t := by
  have comm : meetIn s b a = meetIn s a b := funext (meetIn_comm s b a)
  rw [commonTy?_eq] at h ⊢
  rw [comm]
  by_cases ha : a = .null
  · rw [ha] at h ⊢
    rwa [← meetingTypes_null]
  by_cases hb : b = .null
  · rw [hb] at h ⊢
    rwa [meetingTypes_null]
  rw [meetingTypes_eq ha hb] at h
  rw [meetingTypes_eq hb ha, Bool.or_comm, find?_exchange, h]
  intro second first
  obtain ⟨d, e, ownA, ownB, mentions, mentions'⟩ :=
    records_of_meet rfl ha hb hab hba first second
  rcases free with oneSided | free
  · by_cases same : d = e
    · rw [ownA, ownB, same]
    · exact absurd mentions' (oneSided d e same mentions)
  · rw [List.find?_cons_of_pos first, ownA] at h
    exact absurd (Option.some.inj h).symm (free d)

/-! ## Two operands -/

variable {l r x y : Expr} {operator operator' : String} {offset offset' : Nat}

/-- Two operands are constants of different types, and each adapts to the type of the other one. -/
def MutuallyAdapt [GuidFormat] (a b : Expr) : Prop :=
  a.ty ≠ b.ty ∧ (adapt? a b.ty).isSome = true ∧ (adapt? b a.ty).isSome = true

theorem MutuallyAdapt.symm (h : MutuallyAdapt l r) : MutuallyAdapt r l :=
  ⟨Ne.symm h.1, h.2.2, h.2.1⟩

/-- What is no constant does not adapt. -/
theorem not_mutuallyAdapt (h : l.constant? = none ∨ r.constant? = none) : ¬ MutuallyAdapt l r := by
  rintro ⟨-, hl, hr⟩
  rcases h with h | h
  · rw [adapt?, h] at hl
    cases hl
  · rw [adapt?, h] at hr
    cases hr

/-- Exchanged operands are converted to the same two expressions, exchanged. -/
theorem Converted.swap (differ : l.ty ≠ r.ty) (h : Converted s l r x y)
    (free : s.OneSided ∨ ∀ d, x.ty ≠ .record d) : Converted s r l y x := by
  cases h with
  | @toLeft c found cheap =>
    refine .toRight found fun c' found' => Nat.lt_of_le_of_ne (cheap c' found') ?_
    rcases Schema.cost_ne_or_records differ found found' with
      ne | ⟨d, e, hd, he, mentions, mentions'⟩
    · exact ne
    · rcases free with oneSided | free
      · have apart : d ≠ e := fun same => differ (by rw [hd, he, same])
        exact absurd mentions' (oneSided d e apart mentions)
      · exact absurd hd (free d)
  | @toRight c found cheap => exact .toLeft found fun c' found' => Nat.le_of_lt (cheap c' found')
  | common noLeft noRight meet =>
    rw [(Expr.Represents.coerceTo s l _).ty] at free
    exact .common noRight noLeft (commonTy?_swap noRight noLeft meet free)

/-- **Exchanged operands become the same two expressions, exchanged.** -/
theorem unify_swap (apart : ¬ MutuallyAdapt l r) (h : unify s operator l r offset = .ok (x, y))
    (free : s.OneSided ∨ ∀ d, x.ty ≠ .record d) :
    unify s operator' r l offset' = .ok (y, x) := by
  unfold unify at h ⊢
  split at h
  next same =>
    cases h
    rw [if_pos same.symm]
  next differ =>
    rw [if_neg (Ne.symm differ)]
    split at h
    next r' hr =>
      cases h
      have hl : adapt? l r.ty = none := by
        cases hl : adapt? l r.ty with
        | none => rfl
        | some l' => exact absurd ⟨differ, by rw [hl]; rfl, by rw [hr]; rfl⟩ apart
      rw [hl]
    next hr =>
      split at h
      next l' hl =>
        cases h
        rfl
      next hl =>
        have converted := convertBoth_eq_ok_iff.1 h
        exact convertBoth_eq_ok_iff.2 (converted.swap differ free)

end Binding

end TypedExpr
