import TypedExpr.Proofs.Value.Casting

/-!
# What the implicit conversions are

Which conversions there are between which types, as a relation, and that every conversion that has
to be carried out is meant for a cast.

* `Ty.Implicit` — the kinds of built-in conversions with their types.
* **`Ty.implicit?_sound`** — the built-in conversions that are found are of these kinds.
* `Schema.implicit?_sound` — so are those with a schema, apart from the declared ones.
* `Ty.Implicit.casts` — between which types they convert.
* **`Ty.implicit?_antisymm`** — they do not lead both ways between two types.
-/

namespace TypedExpr

namespace Ty

variable {a t u : Ty} {c c' : ImplicitConversion}

/-! ## Widening -/

theorem widenings_isNumeric (h : u ∈ a.widenings) : a.isNumeric = true ∧ u.isNumeric = true := by
  cases a with
  | int s =>
    refine ⟨rfl, ?_⟩
    cases s <;> simp only [widenings, List.mem_cons, List.not_mem_nil, or_false] at h <;>
      grind [isNumeric]
  | single =>
    simp only [widenings, List.mem_cons, List.not_mem_nil, or_false] at h
    exact ⟨rfl, h ▸ rfl⟩
  | _ => cases h

/-- A number keeps its type at a cost, or goes to one of the types that it widens to. -/
theorem mem_widenings {n : Nat} (h : a.wideningCost? t = some n) :
    a = t ∧ a.isNumeric = true ∨ t ∈ a.widenings := by
  unfold wideningCost? at h
  split at h
  next same => exact Or.inl same
  next =>
    obtain ⟨i, hi, -⟩ := Option.map_eq_some_iff.1 h
    obtain ⟨hlt, ht, -⟩ := List.findIdx?_eq_some_iff_getElem.1 hi
    exact Or.inr (beq_iff_eq.1 ht ▸ List.getElem_mem hlt)

theorem wideningCost?_isNumeric {n : Nat} (h : a.wideningCost? t = some n) :
    a.isNumeric = true ∧ t.isNumeric = true := by
  rcases mem_widenings h with ⟨rfl, numeric⟩ | up
  · exact ⟨numeric, numeric⟩
  · exact widenings_isNumeric up

/-- How wide a number is: a widening leads upwards. -/
def rank : Ty → Nat
  | .int t => t.bits
  | .single => 65
  | .double => 66
  | _ => 0

theorem rank_lt_of_mem_widenings (h : u ∈ a.widenings) : a.rank < u.rank := by
  cases a with
  | int s =>
    cases s <;> simp only [widenings, List.mem_cons, List.not_mem_nil, or_false] at h <;>
      grind [rank, IntType.bits]
  | single =>
    simp only [widenings, List.mem_cons, List.not_mem_nil, or_false] at h
    rw [h]
    decide
  | _ => cases h

theorem wideningCost?_antisymm {m n : Nat} (h : a.wideningCost? t = some m)
    (h' : t.wideningCost? a = some n) : a = t := by
  rcases mem_widenings h with ⟨same, -⟩ | up
  · exact same
  · rcases mem_widenings h' with ⟨same, -⟩ | down
    · exact same.symm
    · exact absurd (rank_lt_of_mem_widenings up) (Nat.lt_asymm (rank_lt_of_mem_widenings down))

theorem isNumericLike_of_isNumeric (h : a.isNumeric = true) : Binding.isNumericLike a = true := by
  cases a with
  | enum d => rfl
  | _ => exact h

/-! ## Types without explicit null -/

theorem nonNullable_of_plain (plain : t.isNullable = false) : t.nonNullable = t := by
  cases t with
  | nullable t => cases plain
  | _ => rfl

theorem nonNullable_of_isNumeric (h : t.isNumeric = true) : t.nonNullable = t := by
  cases t with
  | nullable t => cases h
  | _ => rfl

/-- The built-in conversion to a type without explicit null. -/
theorem implicit?_plain (plain : t.isNullable = false) :
    a.implicit? t =
      if a = t then some ⟨.identity, 0⟩
      else if a = .null then if t.acceptsNull then some ⟨.nullLiteral, 1⟩ else none
      else a.implicitPlain? t := by
  cases t with
  | nullable t => cases plain
  | _ => rfl

/-! ## Built-in conversions -/

/-- Which kinds of built-in conversions lead from one type to another. -/
inductive Implicit : Ty → Ty → ConversionKind → Prop
  | identity (t : Ty) : Implicit t t .identity
  | nullLiteral {t : Ty} (accepts : t.acceptsNull = true) : Implicit .null t .nullLiteral
  | numericWidening {a t : Ty} (source : a.isNumeric = true) (target : t.isNumeric = true) :
      Implicit a t .numericWidening
  | enumToUnderlying (d : EnumDef) {t : Ty} (target : t.isNumeric = true) :
      Implicit (.enum d) t .enumToUnderlying
  | groupingToSequence (key t : Ty) :
      Implicit (.grouping key t) (.sequence t) .groupingToSequence
  | toObject (a : Ty) : Implicit a .object .toObject
  | wrap {t : Ty} (plain : t.isNullable = false) : Implicit t (.nullable t) .nullableWrap
  | wrapNumber {a t : Ty} (source : Binding.isNumericLike a.nonNullable = true)
      (target : t.isNumeric = true) : Implicit a (.nullable t) .nullableWrap

theorem widened?_sound (h : a.widened? t = some c) : a.Implicit t c.kind := by
  unfold widened? at h
  split at h
  next hw =>
    cases h
    have hn := wideningCost?_isNumeric hw
    exact .numericWidening hn.1 hn.2
  next =>
    split at h
    next ht =>
      cases h
      exact ht ▸ .toObject a
    next => cases h

theorem implicitPlain?_sound (h : a.implicitPlain? t = some c) : a.Implicit t c.kind := by
  unfold implicitPlain? at h
  split at h
  next key u u' =>
    split at h
    next same =>
      cases h
      exact same ▸ .groupingToSequence key u
    next => exact widened?_sound h
  next d =>
    split at h
    next ht =>
      obtain ⟨n, -, rfl⟩ := Option.map_eq_some_iff.1 h
      exact .enumToUnderlying d ht
    next => exact widened?_sound h
  next => exact widened?_sound h

/-- A conversion between the types inside makes one to a nullable type. -/
theorem wrapNull_sound {plain : Bool} (hp : plain = !a.isNullable)
    (inner : a.nonNullable.Implicit t c.kind) (h : wrapNull plain c = some c') :
    a.Implicit (.nullable t) c'.kind := by
  unfold wrapNull at h
  split at h
  next hk =>
    cases h
    rw [hk] at inner
    generalize ha : a.nonNullable = u at inner
    cases inner with
    | numericWidening source target =>
      exact .wrapNumber (isNumericLike_of_isNumeric (ha ▸ source)) target
  next hk =>
    cases h
    rw [hk] at inner
    generalize ha : a.nonNullable = u at inner
    cases inner with
    | enumToUnderlying d target => exact .wrapNumber (by rw [ha]; rfl) target
  next hk =>
    split at h
    next hi =>
      cases h
      rw [hk] at inner
      have hn : a.isNullable = false := by simpa [hi] using hp.symm
      generalize ha : a.nonNullable = u at inner
      cases inner with
      | identity t =>
        rw [nonNullable_of_plain hn] at ha
        exact ha ▸ .wrap hn
    next => cases h
  next => cases h

theorem implicit?_sound_of_plain (plain : t.isNullable = false) (h : a.implicit? t = some c) :
    a.Implicit t c.kind := by
  rw [implicit?_plain plain] at h
  split at h
  next same =>
    cases h
    exact same ▸ .identity a
  next =>
    split at h
    next ha =>
      split at h
      next accepts =>
        cases h
        exact ha ▸ .nullLiteral accepts
      next => cases h
    next => exact implicitPlain?_sound h

/-- **What the built-in conversions are.** -/
theorem implicit?_sound : ∀ {t a : Ty} {c : ImplicitConversion}, a.implicit? t = some c →
    a.Implicit t c.kind
  | .nullable t, a, c, h => by
    unfold implicit? at h
    split at h
    next same =>
      cases h
      exact same ▸ .identity a
    next =>
      split at h
      · cases h
        exact .nullLiteral rfl
      next s _ =>
        obtain ⟨c', hc, hw⟩ := Option.bind_eq_some_iff.1 h
        exact wrapNull_sound rfl (implicit?_sound hc) hw
      next plain =>
        obtain ⟨c', hc, hw⟩ := Option.bind_eq_some_iff.1 h
        have hn : a.isNullable = false := by
          cases a with
          | nullable s => exact absurd rfl (plain s)
          | _ => rfl
        refine wrapNull_sound (by rw [hn]; rfl) ?_ hw
        rw [nonNullable_of_plain hn]
        exact implicit?_sound hc
  | .null, _, _, h | .object, _, _, h | .boolean, _, _, h | .int _, _, _, h | .single, _, _, h
  | .double, _, _, h | .string, _, _, h | .guid, _, _, h | .dateTime, _, _, h | .enum _, _, _, h
  | .record _, _, _, h | .sequence _, _, _, h | .grouping .., _, _, h =>
    implicit?_sound_of_plain rfl h

theorem implicit?_refl (t : Ty) : t.implicit? t = some ⟨.identity, 0⟩ := by
  unfold implicit?
  cases t <;> exact if_pos rfl

theorem ne_nullable (t : Ty) : t ≠ .nullable t := by
  intro h
  have size := congrArg sizeOf h
  simp at size

/-- Null is added to any type that does not have it explicitly. -/
theorem implicit?_wrap (plain : t.isNullable = false) :
    ∃ kind, kind ≠ .toObject ∧ t.implicit? (.nullable t) = some ⟨kind, 1⟩ := by
  cases t with
  | nullable t => cases plain
  | null => exact ⟨.nullLiteral, nofun, rfl⟩
  | _ =>
    refine ⟨.nullableWrap, nofun, ?_⟩
    show (if _ then _ else Option.bind _ (wrapNull true)) = _
    rw [if_neg (ne_nullable _), implicit?_refl]
    rfl

theorem Implicit.eq (h : a.Implicit t .identity) : a = t := by
  cases h with
  | identity t => rfl

theorem Implicit.eq_null (h : a.Implicit t .nullLiteral) : a = .null := by
  cases h with
  | nullLiteral accepts => rfl

theorem Implicit.acceptsNull (h : a.Implicit t .nullLiteral) : t.acceptsNull = true := by
  cases h with
  | nullLiteral accepts => exact accepts

theorem not_implicit_userDefined {d : RecordDef} {i : Nat} :
    ¬ a.Implicit t (.userDefined d i) := by
  intro h
  cases h

/-- A conversion that has to be carried out is meant for a cast. -/
theorem Implicit.casts {kind : ConversionKind} (h : a.Implicit t kind)
    (hk : kind ≠ .identity) : a.nonNullable.Casts t.nonNullable := by
  cases h with
  | identity t => exact absurd rfl hk
  | nullLiteral accepts => exact .fromNull _
  | numericWidening source target =>
    rw [nonNullable_of_isNumeric source, nonNullable_of_isNumeric target]
    exact .numeric (isNumericLike_of_isNumeric source) (isNumericLike_of_isNumeric target)
  | enumToUnderlying d target =>
    rw [nonNullable_of_isNumeric target]
    exact .numeric rfl (isNumericLike_of_isNumeric target)
  | groupingToSequence key t => exact .items key t
  | toObject a => exact .toObject _
  | wrap plain =>
    rw [nonNullable_of_plain plain]
    exact .refl plain
  | wrapNumber source target => exact .numeric source (isNumericLike_of_isNumeric target)

/-! ## Conversions in both directions -/

theorem wideningCost?_of_widened? (target : t.isNumeric = true) (h : a.widened? t = some c) :
    ∃ n, a.wideningCost? t = some n := by
  unfold widened? at h
  split at h
  next n hn => exact ⟨n, hn⟩
  next =>
    split at h
    next object =>
      rw [object] at target
      cases target
    next => cases h

/-- Between numbers there are no conversions but widenings. -/
theorem wideningCost?_of_implicit? (source : a.isNumeric = true) (target : t.isNumeric = true)
    (h : a.implicit? t = some c) : ∃ n, a.wideningCost? t = some n := by
  have plain : t.isNullable = false := by
    cases t with
    | nullable t => cases target
    | _ => rfl
  rw [implicit?_plain plain] at h
  split at h
  next same => exact ⟨0, if_pos ⟨same, source⟩⟩
  next =>
    cases a with
    | int i | single | double => exact wideningCost?_of_widened? target h
    | _ => cases source

/-- A conversion between two types with null is one between the types inside. -/
theorem implicit?_of_nullable (h : (nullable a).implicit? (nullable t) = some c) (differ : a ≠ t) :
    ∃ c', a.implicit? t = some c' := by
  unfold implicit? at h
  rw [if_neg (fun same => differ (nullable.inj same))] at h
  obtain ⟨c', hc, -⟩ := Option.bind_eq_some_iff.1 h
  exact ⟨c', hc⟩

/-- **Two different types do not both convert to the other one**, if neither becomes a mere
object. -/
theorem implicit?_antisymm (h : a.implicit? t = some c) (h' : t.implicit? a = some c')
    (value : c.kind ≠ .toObject) (value' : c'.kind ≠ .toObject) : a = t := by
  have forth := implicit?_sound h
  have back := implicit?_sound h'
  generalize c.kind = k at forth value
  generalize c'.kind = k' at back value'
  cases forth with
  | identity => rfl
  | nullLiteral accepts =>
    cases back with
    | identity | nullLiteral _ => rfl
    | numericWidening _ target | enumToUnderlying _ target => cases target
  | numericWidening source target =>
    obtain ⟨m, hm⟩ := wideningCost?_of_implicit? source target h
    obtain ⟨n, hn⟩ := wideningCost?_of_implicit? target source h'
    exact wideningCost?_antisymm hm hn
  | enumToUnderlying d target =>
    cases back with
    | identity => rfl
    | nullLiteral => cases target
    | numericWidening _ target' | enumToUnderlying _ target' => cases target'
  | groupingToSequence key t =>
    cases back with
    | numericWidening _ target => cases target
  | toObject => exact absurd rfl value
  | wrap plain =>
    cases back with
    | numericWidening source _ => cases source
    | toObject => exact absurd rfl value'
    | wrapNumber _ _ => cases plain
  | @wrapNumber _ u source target =>
    cases back with
    | identity => rfl
    | numericWidening source _ => cases source
    | toObject => exact absurd rfl value'
    | wrap plain => cases plain
    | @wrapNumber _ v source' target' =>
      by_cases inside : v = u
      · rw [inside]
      · obtain ⟨_, hc⟩ := implicit?_of_nullable h inside
        obtain ⟨_, hc'⟩ := implicit?_of_nullable h' (Ne.symm inside)
        obtain ⟨m, hm⟩ := wideningCost?_of_implicit? target' target hc
        obtain ⟨n, hn⟩ := wideningCost?_of_implicit? target target' hc'
        exact absurd (wideningCost?_antisymm hm hn) inside

end Ty

/-! ## Declared conversions -/

/-- A conversion is built-in, or the target declares it for the type. -/
theorem Schema.implicit?_sound {s : Schema} {a t : Ty} {c : ImplicitConversion}
    (h : s.implicit? a t = some c) :
    a.Implicit t c.kind ∨ ∃ d i conversion, c.kind = .userDefined d i ∧ t = .record d ∧
      (s.conversions d)[i]? = some conversion ∧ conversion.source = a := by
  rcases Option.or_eq_some_iff.1 h with built | ⟨-, declared⟩
  · exact Or.inl (Ty.implicit?_sound built)
  · split at declared
    next d =>
      obtain ⟨i, hi, rfl⟩ := Option.map_eq_some_iff.1 declared
      obtain ⟨hlt, hs, -⟩ := List.findIdx?_eq_some_iff_getElem.1 hi
      exact Or.inr ⟨d, i, _, rfl, rfl, List.getElem?_eq_getElem hlt, beq_iff_eq.1 hs⟩
    next => cases declared

end TypedExpr
