import TypedExpr.Proofs.Conversion

/-!
# Convertibility as an order

The built-in conversions order the types: every type converts to itself at no cost, two different
types never convert both ways, and what can be done in two steps can be done in one.  A type that
adds null to a type with null would break this, since the object type would convert to it and back.

* `Ty.Widens`, `Ty.NumberTo` — the conversions of numbers and of constants of enumerations.
* `Ty.Convertible` — which types convert to which, as a relation.
* **`Ty.exists_implicit?_iff`** — a conversion is found exactly if there is one.
* **`Ty.implicit?_orders`** — the conversions order the types.
-/

namespace TypedExpr.Ty

variable {a b t u : Ty} {c : ImplicitConversion}

/-! ## Numbers -/

/-- A number keeps its type, or it becomes a wider one. -/
def Widens (a t : Ty) : Prop := a = t ∧ a.isNumeric = true ∨ t ∈ a.widenings

theorem widenings_trans (h : t ∈ a.widenings) (h' : u ∈ t.widenings) : u ∈ a.widenings := by
  cases a with
  | int s =>
    cases s <;> simp only [widenings, List.mem_cons, List.not_mem_nil, or_false] at h <;>
      grind [widenings]
  | single =>
    simp only [widenings, List.mem_cons, List.not_mem_nil, or_false] at h
    subst h
    cases h'
  | _ => cases h

theorem not_mem_widenings_self (a : Ty) : a ∉ a.widenings :=
  fun h => Nat.lt_irrefl _ (rank_lt_of_mem_widenings h)

theorem Widens.trans (h : a.Widens t) (wider : u ∈ t.widenings) : u ∈ a.widenings := by
  rcases h with ⟨rfl, -⟩ | wide
  · exact wider
  · exact widenings_trans wide wider

theorem Widens.target (h : a.Widens t) : t.isNumeric = true := by
  rcases h with ⟨rfl, numeric⟩ | wider
  · exact numeric
  · exact (widenings_isNumeric wider).2

/-- A widening has a cost. -/
theorem Widens.cost (h : a.Widens t) : ∃ n, a.wideningCost? t = some n := by
  unfold wideningCost?
  split
  next => exact ⟨0, rfl⟩
  next differ =>
    have found : (a.widenings.findIdx? (· == t)).isSome = true := by
      rw [List.findIdx?_isSome, List.any_eq_true]
      exact ⟨t, h.resolve_left differ, beq_self_eq_true t⟩
    obtain ⟨i, hi⟩ := Option.isSome_iff_exists.1 found
    exact ⟨2 + i, by rw [hi]; rfl⟩

/-- It costs nothing exactly if the number keeps its type. -/
theorem eq_of_wideningCost?_zero (h : a.wideningCost? t = some 0) : a = t := by
  unfold wideningCost? at h
  split at h
  next same => exact same.1
  next =>
    obtain ⟨i, -, cost⟩ := Option.map_eq_some_iff.1 h
    omega

/-- A number becomes a wider one, or a constant of an enumeration the number that stands for it or
a wider one. -/
inductive NumberTo : Ty → Ty → Prop
  | widen {a t : Ty} (wider : t ∈ a.widenings) : NumberTo a t
  | underlying {d : EnumDef} {t : Ty} (widens : d.underlying.Widens t) : NumberTo (.enum d) t

theorem NumberTo.target (h : a.NumberTo t) : t.isNumeric = true := by
  cases h with
  | widen wider => exact (widenings_isNumeric wider).2
  | underlying widens => exact widens.target

theorem NumberTo.source (h : a.NumberTo t) : Binding.isNumericLike a = true := by
  cases h with
  | widen wider => exact isNumericLike_of_isNumeric (widenings_isNumeric wider).1
  | underlying => rfl

theorem NumberTo.ne (h : a.NumberTo t) : a ≠ t := by
  rintro rfl
  have numeric := h.target
  cases h with
  | widen wider => exact not_mem_widenings_self a wider
  | underlying => cases numeric

/-- From a number on there are only wider numbers. -/
theorem NumberTo.trans (h : a.NumberTo t) (h' : t.NumberTo u) : a.NumberTo u := by
  have numeric := h.target
  cases h' with
  | underlying => cases numeric
  | widen wider' =>
    cases h with
    | widen wider => exact .widen (widenings_trans wider wider')
    | underlying widens => exact .underlying (Or.inr (widens.trans wider'))

/-- The conversion of a number is found.  It is of one of the two kinds that are possible below an
explicit null. -/
theorem NumberTo.implicit? (h : a.NumberTo t) :
    ∃ c, a.implicit? t = some c ∧ (c.kind = .numericWidening ∨ c.kind = .enumToUnderlying) := by
  have numeric := h.target
  have plain : t.isNullable = false := by
    cases t with
    | nullable => cases numeric
    | _ => rfl
  have notNull : a ≠ .null := by
    rintro rfl
    cases h.source
  rw [implicit?_plain plain, if_neg h.ne, if_neg notNull]
  cases h with
  | widen wider =>
    obtain ⟨n, cost⟩ := Widens.cost (Or.inr wider)
    have widened : a.widened? t = some ⟨.numericWidening, n⟩ := by rw [widened?, cost]
    refine ⟨⟨.numericWidening, n⟩, ?_, Or.inl rfl⟩
    cases a with
    | int | single => exact widened
    | _ => cases wider
  | @underlying d _ widens =>
    obtain ⟨n, cost⟩ := widens.cost
    refine ⟨⟨.enumToUnderlying, 10 + n⟩, ?_, Or.inr rfl⟩
    rw [implicitPlain?, if_pos numeric, cost]
    rfl

/-- A conversion of one of the two kinds is one of numbers. -/
theorem numberTo_of_implicit? (h : a.implicit? t = some c)
    (kind : c.kind = .numericWidening ∨ c.kind = .enumToUnderlying) : a.NumberTo t := by
  have sound := implicit?_sound h
  have differ : a ≠ t := by
    rintro rfl
    rw [implicit?_refl] at h
    cases h
    rcases kind with kind | kind <;> cases kind
  rcases kind with kind | kind
  · rw [kind] at sound
    cases sound with
    | numericWidening source target =>
      obtain ⟨n, cost⟩ := wideningCost?_of_implicit? source target h
      exact .widen ((mem_widenings cost).resolve_left fun same => differ same.1)
  · rw [kind] at sound
    cases sound with
    | enumToUnderlying d target =>
      have plain : t.isNullable = false := by
        cases t with
        | nullable => cases target
        | _ => rfl
      rw [implicit?_plain plain, if_neg differ, if_neg nofun, implicitPlain?, if_pos target] at h
      obtain ⟨n, cost, -⟩ := Option.map_eq_some_iff.1 h
      exact .underlying (mem_widenings cost)

/-! ## The conversions as a relation -/

/-- Which types convert to which. -/
inductive Convertible : Ty → Ty → Prop
  | refl (t : Ty) : Convertible t t
  | null {t : Ty} (accepts : t.acceptsNull = true) : Convertible .null t
  | number {a t : Ty} (step : a.NumberTo t) : Convertible a t
  | items (key t : Ty) : Convertible (.grouping key t) (.sequence t)
  | object (a : Ty) : Convertible a .object
  | wrap {t : Ty} (plain : t.isNullable = false) : Convertible t (.nullable t)
  | wrapNumber {a t : Ty} (step : a.nonNullable.NumberTo t) : Convertible a (.nullable t)

theorem nonNullable_isNullable (h : ∀ s, a ≠ .nullable s) : a.nonNullable = a := by
  cases a with
  | nullable s => exact absurd rfl (h s)
  | _ => rfl

/-- Below an explicit null, a number is converted, or a type without explicit null is not converted
at all.  Adding the null has its own cost. -/
theorem wrapNull_cases {plain : Bool} {inner : ImplicitConversion}
    (h : wrapNull plain inner = some c) :
    c.cost = inner.cost + 1 ∧
      ((inner.kind = .numericWidening ∨ inner.kind = .enumToUnderlying) ∨
        plain = true ∧ inner.kind = .identity) := by
  unfold wrapNull at h
  split at h
  next kind =>
    cases h
    exact ⟨rfl, Or.inl (Or.inl kind)⟩
  next kind =>
    cases h
    exact ⟨rfl, Or.inl (Or.inr kind)⟩
  next kind =>
    split at h
    next explicit =>
      cases h
      exact ⟨rfl, Or.inr ⟨explicit, kind⟩⟩
    next => cases h
  next => cases h

theorem wrapNull_number {plain : Bool} {inner : ImplicitConversion}
    (kind : inner.kind = .numericWidening ∨ inner.kind = .enumToUnderlying) :
    wrapNull plain inner = some ⟨.nullableWrap, inner.cost + 1⟩ := by
  unfold wrapNull
  rcases kind with kind | kind <;> rw [kind]

/-- A conversion to a type with an explicit null. -/
theorem convertible_of_nullable (h : a.implicit? (.nullable t) = some c) :
    a.Convertible (.nullable t) := by
  unfold Ty.implicit? at h
  split at h
  next same => exact same ▸ .refl a
  next =>
    split at h
    next => exact .null rfl
    next s _ =>
      obtain ⟨inner, found, wrapped⟩ := Option.bind_eq_some_iff.1 h
      refine .wrapNumber (numberTo_of_implicit? found ?_)
      exact (wrapNull_cases wrapped).2.resolve_right fun same => Bool.false_ne_true same.1
    next plain =>
      obtain ⟨inner, found, wrapped⟩ := Option.bind_eq_some_iff.1 h
      have whole : a.nonNullable = a := nonNullable_isNullable plain
      rcases (wrapNull_cases wrapped).2 with kind | ⟨-, kind⟩
      · exact .wrapNumber (whole.symm ▸ numberTo_of_implicit? found kind)
      · have sound := implicit?_sound found
        rw [kind] at sound
        obtain rfl := sound.eq
        refine .wrap ?_
        cases a with
        | nullable s => exact absurd rfl (plain s)
        | _ => rfl

theorem convertible_of_implicit? (h : a.implicit? t = some c) : a.Convertible t := by
  have sound := implicit?_sound h
  generalize hk : c.kind = kind at sound
  cases sound with
  | identity => exact .refl a
  | nullLiteral accepts => exact .null accepts
  | numericWidening => exact .number (numberTo_of_implicit? h (Or.inl hk))
  | enumToUnderlying => exact .number (numberTo_of_implicit? h (Or.inr hk))
  | groupingToSequence key t => exact .items key t
  | toObject => exact .object a
  | wrap | wrapNumber => exact convertible_of_nullable h

theorem implicit?_null (accepts : t.acceptsNull = true) : ∃ c, null.implicit? t = some c := by
  cases t with
  | nullable t => exact ⟨⟨.nullLiteral, 1⟩, rfl⟩
  | null => exact ⟨_, implicit?_refl _⟩
  | object | string | record | sequence | grouping => exact ⟨⟨.nullLiteral, 1⟩, rfl⟩
  | _ => cases accepts

theorem widened?_object (a : Ty) : a.widened? .object = some ⟨.toObject, 50⟩ := by
  unfold widened?
  split
  next n cost => cases (wideningCost?_isNumeric cost).2
  next => exact if_pos rfl

theorem implicit?_object (a : Ty) : ∃ c, a.implicit? .object = some c := by
  rw [implicit?_plain rfl]
  split
  · exact ⟨_, rfl⟩
  · split
    · exact ⟨_, if_pos rfl⟩
    · refine ⟨⟨.toObject, 50⟩, ?_⟩
      have widened := widened?_object a
      cases a <;> exact widened

theorem Convertible.implicit? (h : a.Convertible t) : ∃ c, a.implicit? t = some c := by
  cases h with
  | refl => exact ⟨_, implicit?_refl a⟩
  | null accepts => exact implicit?_null accepts
  | number step =>
    obtain ⟨c, found, -⟩ := step.implicit?
    exact ⟨c, found⟩
  | items key t =>
    rw [implicit?_plain rfl, if_neg nofun, if_neg nofun, implicitPlain?, if_pos rfl]
    exact ⟨_, rfl⟩
  | object => exact implicit?_object a
  | wrap plain =>
    obtain ⟨kind, -, found⟩ := implicit?_wrap plain
    exact ⟨_, found⟩
  | @wrapNumber _ u step =>
    obtain ⟨inner, found, kind⟩ := step.implicit?
    unfold Ty.implicit?
    split
    next => exact ⟨_, rfl⟩
    next =>
      split
      next => exact ⟨_, rfl⟩
      next s _ => exact ⟨_, Option.bind_eq_some_iff.2 ⟨inner, found, wrapNull_number kind⟩⟩
      next plain =>
        rw [nonNullable_isNullable plain] at found
        exact ⟨_, Option.bind_eq_some_iff.2 ⟨inner, found, wrapNull_number kind⟩⟩

/-- **A conversion is found exactly if there is one.** -/
theorem exists_implicit?_iff : (a.implicit? t).isSome = true ↔ a.Convertible t := by
  rw [Option.isSome_iff_exists]
  exact ⟨fun ⟨_, h⟩ => convertible_of_implicit? h, Convertible.implicit?⟩

/-! ## The order -/

/-- If null was added to the type, then where it was no value already.  The types inside of
sequences and groupings are not looked at. -/
def AddsNullOnce (t : Ty) : Prop := t.isNullable = true → t.nonNullable.acceptsNull = false

theorem not_acceptsNull_of_isNumericLike (h : Binding.isNumericLike a = true) :
    a.acceptsNull = false := by
  cases a with
  | int | single | double | enum => rfl
  | _ => cases h

theorem NumberTo.nonNullable (h : a.NumberTo t) : a.nonNullable = a := by
  have source := h.source
  cases a with
  | nullable => cases source
  | _ => rfl

/-- What accepts null converts only to what accepts null. -/
theorem Convertible.acceptsNull (h : a.Convertible t) (ha : a.acceptsNull = true) :
    t.acceptsNull = true := by
  cases h with
  | refl => exact ha
  | null accepts => exact accepts
  | number step =>
    rw [not_acceptsNull_of_isNumericLike step.source] at ha
    cases ha
  | items | object | wrap | wrapNumber => rfl

/-- **Convertibility is transitive**, unless the last type adds null where it is a value. -/
theorem Convertible.trans (once : u.AddsNullOnce) (h : a.Convertible t) (h' : t.Convertible u) :
    a.Convertible u := by
  cases h with
  | refl => exact h'
  | null accepts => exact .null (h'.acceptsNull accepts)
  | number step =>
    have numeric := step.target
    cases h' with
    | refl => exact .number step
    | number step' => exact .number (step.trans step')
    | object => exact .object a
    | wrap => exact .wrapNumber (step.nonNullable.symm ▸ step)
    | wrapNumber step' =>
      rw [nonNullable_of_isNumeric numeric] at step'
      exact .wrapNumber (step.nonNullable.symm ▸ step.trans step')
    | null | items => cases numeric
  | items key t =>
    cases h' with
    | refl => exact .items key t
    | object => exact .object _
    | wrap => cases once rfl
    | number step' | wrapNumber step' => cases step'.source
  | object =>
    cases h' with
    | refl | object => exact .object a
    | wrap => cases once rfl
    | number step' | wrapNumber step' => cases step'.source
  | wrap plain =>
    cases h' with
    | refl => exact .wrap plain
    | object => exact .object a
    | wrapNumber step' => exact .wrapNumber ((nonNullable_of_plain plain).symm ▸ step')
    | number step' => cases step'.source
    | wrap nested => cases nested
  | wrapNumber step =>
    cases h' with
    | refl => exact .wrapNumber step
    | object => exact .object a
    | wrapNumber step' => exact .wrapNumber (step.trans step')
    | number step' => cases step'.source
    | wrap nested => cases nested

/-- The object type converts to no other type. -/
theorem Convertible.eq_object (once : t.AddsNullOnce) (h : Ty.Convertible .object t) :
    t = .object := by
  cases h with
  | refl | object => rfl
  | wrap => cases once rfl
  | number step | wrapNumber step => cases step.source

/-- **Two different types do not both convert to the other one**, unless one of them adds null where
it is a value. -/
theorem Convertible.antisymm (ha : a.AddsNullOnce) (ht : t.AddsNullOnce) (h : a.Convertible t)
    (h' : t.Convertible a) : a = t := by
  obtain ⟨c, found⟩ := h.implicit?
  obtain ⟨c', found'⟩ := h'.implicit?
  by_cases toObject : c.kind = .toObject
  · have sound := implicit?_sound found
    rw [toObject] at sound
    cases sound
    exact h'.eq_object ha
  · by_cases toObject' : c'.kind = .toObject
    · have sound := implicit?_sound found'
      rw [toObject'] at sound
      cases sound
      exact (h.eq_object ht).symm
    · exact implicit?_antisymm found found' toObject toObject'

/-! ## Costs -/

theorem eq_of_widened?_zero (h : a.widened? t = some c) (free : c.cost = 0) : a = t := by
  unfold widened? at h
  split at h
  next n cost =>
    cases h
    exact eq_of_wideningCost?_zero (free ▸ cost)
  next =>
    split at h
    next =>
      cases h
      cases free
    next => cases h

theorem eq_of_implicitPlain?_zero (h : a.implicitPlain? t = some c) (free : c.cost = 0) :
    a = t := by
  unfold implicitPlain? at h
  split at h
  next =>
    split at h
    next =>
      cases h
      cases free
    next => exact eq_of_widened?_zero h free
  next =>
    split at h
    next =>
      obtain ⟨n, -, rfl⟩ := Option.map_eq_some_iff.1 h
      exact absurd free (by simp)
    next => exact eq_of_widened?_zero h free
  next => exact eq_of_widened?_zero h free

theorem eq_of_plain_zero (plain : t.isNullable = false) (h : a.implicit? t = some c)
    (free : c.cost = 0) : a = t := by
  rw [implicit?_plain plain] at h
  split at h
  next same => exact same
  next =>
    split at h
    next =>
      split at h
      next =>
        cases h
        cases free
      next => cases h
    next => exact eq_of_implicitPlain?_zero h free

theorem eq_of_nullable_zero (h : a.implicit? (.nullable t) = some c) (free : c.cost = 0) :
    a = .nullable t := by
  unfold Ty.implicit? at h
  split at h
  next same => exact same
  next =>
    split at h
    next =>
      cases h
      cases free
    next =>
      obtain ⟨inner, -, wrapped⟩ := Option.bind_eq_some_iff.1 h
      cases (wrapNull_cases wrapped).1.symm.trans free
    next =>
      obtain ⟨inner, -, wrapped⟩ := Option.bind_eq_some_iff.1 h
      cases (wrapNull_cases wrapped).1.symm.trans free

/-- **A conversion is free exactly if nothing has to be converted.** -/
theorem cost_eq_zero_iff (h : a.implicit? t = some c) : c.cost = 0 ↔ a = t := by
  constructor
  · cases t with
    | nullable t => exact eq_of_nullable_zero h
    | _ => exact eq_of_plain_zero rfl h
  · rintro rfl
    rw [implicit?_refl] at h
    cases h
    rfl

/-! ## The order of types -/

/-- **The conversions order the types.**  Every type converts to itself, two different types do not
both convert to the other one, and two conversions one after the other make one; a conversion is
free exactly if nothing has to be converted.  None of the types may add null where it is a value
already. -/
theorem implicit?_orders {a b d : Ty} (ha : a.AddsNullOnce) (hb : b.AddsNullOnce)
    (hd : d.AddsNullOnce) :
    (a.implicit? a).isSome = true ∧
    ((a.implicit? b).isSome = true → (b.implicit? a).isSome = true → a = b) ∧
    ((a.implicit? b).isSome = true → (b.implicit? d).isSome = true →
      (a.implicit? d).isSome = true) ∧
    ∀ c, a.implicit? b = some c → (c.cost = 0 ↔ a = b) := by
  simp only [exists_implicit?_iff]
  exact ⟨.refl a, fun h h' => h.antisymm ha hb h', fun h h' => h.trans hd h',
    fun c found => cost_eq_zero_iff found⟩

/-- An enumeration over bytes. -/
def byteEnum : EnumDef := ⟨0, "E", .int .uint8, [], true⟩

/-- A constant over bytes, a number of 16 bits and one of 64 bits that may be null. -/
theorem implicit?_orders_bytes :
    AddsNullOnce (.enum byteEnum) ∧ AddsNullOnce (.nullable (.int .int16)) ∧
      AddsNullOnce (.nullable (.int .int64)) ∧
      ((Ty.enum byteEnum).implicit? (.nullable (.int .int64))).isSome = true := by
  have first : AddsNullOnce (.enum byteEnum) := nofun
  have second : AddsNullOnce (.nullable (.int .int16)) := fun _ => rfl
  have third : AddsNullOnce (.nullable (.int .int64)) := fun _ => rfl
  have steps := (implicit?_orders first second third).2.2.1
  exact ⟨first, second, third, steps (by decide) (by decide)⟩

/-- Null added to the object type would make two types that convert both ways. -/
example : (object.implicit? (.nullable .object)).isSome = true ∧
    ((nullable .object).implicit? .object).isSome = true := by decide

end TypedExpr.Ty
