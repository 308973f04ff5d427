import TypedExpr.Proofs.Operands.Integers
import TypedExpr.Proofs.Value.Enumerations

/-!
# Implicit conversions to integral types

A type that converts implicitly to an integral type has integers that the integral type has as
well, and an explicit null only if the target has one.  The cast that carries the conversion out
wraps, but there is nothing to wrap.

* `Ty.range?` — the integral type whose range the numbers of a type lie in.
* `Ty.Embeds` — what converts implicitly to an integral type.
* **`Value.cast_of_implicit?`** — no such conversion loses anything.
-/

namespace TypedExpr

/-! ## Integral ranges -/

/-- The integral type whose range the numbers of a type lie in, if the type has integers only: its
own, or the one that an enumeration is over. -/
def Ty.range? : Ty → Option IntType
  | .int t => some t
  | .enum d => match d.underlying with
    | .int t => some t
    | _ => none
  | _ => none

theorem IntType.Within.contains {t w : IntType} {n : Int} (h : t.Within w) (hn : t.Contains n) :
    w.Contains n :=
  ⟨Int.le_trans h.1 hn.1, Int.le_trans hn.2 h.2⟩

/-- The value is no constant of an enumeration whose number is beyond the underlying type. -/
def Value.InRange (v : Value) : Prop :=
  ∀ (d : EnumDef) (n : Word .int64) (t : IntType),
    v = .enum d n → d.underlying = .int t → t.Contains n.val

namespace Ty

variable {a b : Ty} {t u : IntType} {c : ImplicitConversion}

/-- Null converts to the target, or a type whose integers the target has.  An explicit null of the
source is one of the target. -/
structure Embeds (a b : Ty) (t : IntType) : Prop where
  null : a.acceptsNull = true → b.isNullable = true
  integers : a = .null ∨ ∃ u, a.nonNullable.range? = some u ∧ u.Within t

/-- A type without null has no explicit null. -/
theorem nonNullable_of_not_acceptsNull (h : a.acceptsNull = false) : a.nonNullable = a := by
  cases a with
  | nullable a => cases h
  | _ => rfl

theorem within_of_wideningCost? {cost : Nat} (h : a.wideningCost? (.int t) = some cost) :
    ∃ u, a = .int u ∧ u.Within t := by
  rcases mem_widenings h with ⟨rfl, -⟩ | up
  · exact ⟨t, rfl, .refl t⟩
  · cases a with
    | int u => exact ⟨u, rfl, wideningCost?_int.1 (by simp [h])⟩
    | _ => simp [widenings] at up

/-- Without explicit nulls, integers convert to the types that have them, and so do enumerations
over them. -/
theorem range?_of_implicit? (h : a.implicit? (.int t) = some c) :
    a.acceptsNull = false ∧ ∃ u, a.range? = some u ∧ u.Within t := by
  rw [implicit?_plain rfl] at h
  split at h
  next same =>
    subst same
    exact ⟨rfl, t, rfl, .refl t⟩
  next differ =>
    split at h
    next => simp [acceptsNull] at h
    next =>
      have widened (h : a.widened? (.int t) = some c) :
          a.acceptsNull = false ∧ ∃ u, a.range? = some u ∧ u.Within t := by
        obtain ⟨cost, found⟩ := wideningCost?_of_widened? rfl h
        obtain ⟨u, rfl, within⟩ := within_of_wideningCost? found
        exact ⟨rfl, u, rfl, within⟩
      cases a with
      | enum d =>
        obtain ⟨cost, found, -⟩ := Option.map_eq_some_iff.1 h
        obtain ⟨u, underlies, within⟩ := within_of_wideningCost? found
        exact ⟨rfl, u, by simp [range?, underlies], within⟩
      | _ => exact widened h

/-- **What converts implicitly to an integral type.** -/
theorem embeds_of_implicit? (hb : b.nonNullable = .int t) (h : a.implicit? b = some c) :
    a.Embeds b t := by
  rw [eq_lift_of_int hb] at h
  cases explicit : b.isNullable with
  | false =>
    rw [explicit] at h
    obtain ⟨plain, u, range, within⟩ := range?_of_implicit? h
    refine ⟨by simp [plain], Or.inr ⟨u, ?_, within⟩⟩
    rwa [nonNullable_of_not_acceptsNull plain]
  | true =>
    refine ⟨fun _ => explicit, ?_⟩
    rw [explicit] at h
    change a.implicit? (.nullable (.int t)) = some c at h
    unfold implicit? at h
    split at h
    next same =>
      subst same
      exact Or.inr ⟨t, rfl, .refl t⟩
    next =>
      split at h
      next => exact Or.inl rfl
      next s _ =>
        obtain ⟨inner, found, -⟩ := Option.bind_eq_some_iff.1 h
        exact Or.inr (range?_of_implicit? found).2
      next =>
        obtain ⟨inner, found, -⟩ := Option.bind_eq_some_iff.1 h
        obtain ⟨plain, u, range, within⟩ := range?_of_implicit? found
        refine Or.inr ⟨u, ?_, within⟩
        rwa [nonNullable_of_not_acceptsNull plain]

end Ty

/-! ## Values -/

namespace Value

section

variable {format : GuidFormat} {a b : Ty} {t u : IntType} {c : ImplicitConversion} {v : Value}

/-- A value of a type with integers is an integer in the range, which a cast to an integral type
brings into the range of that type. -/
theorem number?_of_range? (hv : v.Conforms a) (proper : v.isNull = false) (inRange : v.InRange)
    (range : a.range? = some u) :
    ∃ n, v.number? = some (.integer n) ∧ u.Contains n ∧
      v.castPlain (.int t) = .ok (.int t (Word.wrap t n)) := by
  cases a with
  | int w =>
    cases range
    rcases hv.eq_int with rfl | ⟨m, rfl⟩
    · cases proper
    · exact ⟨m.val, rfl, ⟨m.min_le, m.le_max⟩, rfl⟩
  | enum d =>
    obtain ⟨m, rfl⟩ := hv.eq_enum
    simp only [Ty.range?] at range
    split at range
    next w underlies =>
      cases range
      exact ⟨m.val, rfl, inRange d m u rfl underlies, rfl⟩
    next => cases range
  | _ => cases range

/-- **No implicit conversion to an integral type loses anything.**  A value of the source is cast
to null if it is null, and otherwise to the same integer in the type of the target. -/
theorem cast_of_implicit? (hb : b.nonNullable = .int t) (h : a.implicit? b = some c)
    (hv : v.Conforms a) (inRange : v.InRange) :
    ∃ w, v.cast b = .ok w ∧ (w = .null ↔ v = .null) ∧
      (v ≠ .null → ∃ m : Word t, w = .int t m ∧ v.number? = some (.integer m.val)) := by
  have embeds := Ty.embeds_of_implicit? hb h
  by_cases null : v = .null
  · subst null
    have accepts := embeds.null (conforms_null_iff.1 hv)
    refine ⟨.null, ?_, by simp, fun h => absurd rfl h⟩
    cases b with
    | nullable b => rfl
    | _ => cases accepts
  have proper : v.isNull = false := by
    simpa [← isNull_iff] using null
  rcases embeds.integers with rfl | ⟨u, range, within⟩
  · exact absurd hv.eq_null null
  obtain ⟨n, number, contains, cast⟩ :=
    number?_of_range? (t := t) (hv.nonNullable proper) proper (by simpa using inRange) range
  have same : (Word.wrap t n).val = n :=
    IntType.reduce_of_mem (within.contains contains).1 (within.contains contains).2
  refine ⟨.int t (Word.wrap t n), ?_, by simp [null], fun _ => ⟨_, rfl, by rw [number, same]⟩⟩
  rw [Value.cast, if_neg (by simp [proper]), hb, cast]

/-- An enumeration over the integers of 8 bits. -/
def smallEnum : EnumDef := ⟨0, "E", .int .int8, [("A", Word.wrap .int64 (-128))], true⟩

end

/-- The least constant of 8 bits as an integer of 64 bits that may be null. -/
theorem cast_of_implicit?_least :
    let v : Value := .enum smallEnum (Word.wrap .int64 (-128))
    ((Ty.enum smallEnum).implicit? (.nullable (.int .int64))).isSome = true ∧
      v.Conforms (.enum smallEnum) ∧ v.InRange ∧
      ∃ m : Word .int64, v.cast (.nullable (.int .int64)) = .ok (.int .int64 m) ∧ m.val = -128 := by
  intro v
  have found : (Ty.enum smallEnum).implicit? (.nullable (.int .int64)) =
      some ⟨.nullableWrap, 15⟩ := rfl
  have conforms : v.Conforms (.enum smallEnum) := .enum _ _
  have inRange : v.InRange := by
    intro d n t same underlies
    obtain ⟨rfl, rfl⟩ := enum.inj same
    cases underlies
    decide
  obtain ⟨w, cast, -, integer⟩ := cast_of_implicit? rfl found conforms inRange
  obtain ⟨m, rfl, number⟩ := integer nofun
  have same : (-128 : Int) = m.val := Number.integer.inj (Option.some.inj number)
  exact ⟨by rw [found]; rfl, conforms, inRange, m, cast, same.symm⟩

end Value

end TypedExpr
