import TypedExpr.Binding
import TypedExpr.Proofs.Ensures
import TypedExpr.Proofs.Value.Conformance

/-!
# Casts and the types of their results

Between which types the conversion of a value is meant to work, and what it gives there.

* `EvalError.isStuck` — the errors of an evaluation that met a value of an unforeseen form.
* `Ty.Casts` — the pairs of types between which values are converted.
* **`Value.ConformsIn.cast`** — a conversion between such types gives a value of the target; it is
  refused as a cast only from the object type.
* `Value.coerce?_conformsIn` — the coercion of a constant gives a value of the target.
-/

namespace TypedExpr

variable {format : GuidFormat}

/-! ## Errors of a stuck evaluation -/

/-- Whether the error says that a value had an unforeseen form, other than as the argument of a
method, or that a frame or a field was missing. -/
def EvalError.isStuck : EvalError → Bool
  | .typeMismatch _ _ (.argument _) => false
  | .typeMismatch .. | .invalidCast .. | .noFrame _ | .missingField .. => true
  | _ => false

/-! ## Pairs of types -/

namespace Ty

/-- Values other than null are converted from the first type to the second.  Neither has an
explicit null. -/
inductive Casts : Ty → Ty → Prop
  | refl {t : Ty} (plain : t.isNullable = false) : Casts t t
  | toObject (a : Ty) : Casts a .object
  | toText (a : Ty) : Casts a .string
  | numeric {a t : Ty} (source : Binding.isNumericLike a = true)
      (target : Binding.isNumericLike t = true) : Casts a t
  | read {t : Ty} (target : t = .guid ∨ Binding.isNumericLike t = true) : Casts .string t
  | items (key t : Ty) : Casts (.grouping key t) (.sequence t)
  | fromObject {t : Ty} (single : t.element? = none) : Casts .object t
  | fromNull (t : Ty) : Casts .null t

end Ty

namespace Value

variable {loose lax : Prop} {v w : Value} {a t : Ty}

/-! ## Numbers -/

/-- The values of numeric types and enumerations are numbers. -/
theorem ConformsIn.number? (h : v.ConformsIn loose lax a) (hv : v.isNull = false)
    (ha : Binding.isNumericLike a = true) : ∃ n, v.number? = some n := by
  cases h with
  | int _ _ | single _ | double _ | enum _ _ => exact ⟨_, rfl⟩
  | lost _ _ => cases hv
  | null accepts => cases a <;> cases accepts <;> cases ha
  | _ => cases ha

theorem ofNumber?_of_isNumericLike (n : Number) (ht : Binding.isNumericLike t = true) :
    ∃ w, ofNumber? n t = some w := by
  cases t with
  | int _ | single | double | enum _ => exact ⟨_, rfl⟩
  | _ => cases ht

/-- Numbers and enumerations convert into each other. -/
theorem ConformsIn.castNumeric? (h : v.ConformsIn loose lax a) (hv : v.isNull = false)
    (ha : Binding.isNumericLike a = true) (ht : Binding.isNumericLike t = true) :
    ∃ w, v.castNumeric? t = some w ∧ w.ConformsIn loose lax t := by
  obtain ⟨n, hn⟩ := h.number? hv ha
  obtain ⟨w, hw⟩ := ofNumber?_of_isNumericLike n ht
  have hc : v.castNumeric? t = some w := by rw [Value.castNumeric?, hn, Option.bind_some, hw]
  exact ⟨w, hc, castNumeric?_conformsIn hc⟩

/-! ## Texts -/

theorem readNumeric?_conformsIn {s : String} (h : readNumeric? s t = some w) :
    w.ConformsIn loose lax t := by
  unfold readNumeric? at h
  split at h
  · obtain ⟨n, -, h⟩ := Option.bind_eq_some_iff.1 h
    obtain ⟨m, -, rfl⟩ := Option.map_eq_some_iff.1 h
    exact .int _ m
  · obtain ⟨x, -, h⟩ := Option.bind_eq_some_iff.1 h
    exact fitNumeric?_conformsIn h

/-- What a text is read as, or that it cannot be read. -/
theorem meets_readAs {s : String} {goal : Ty} {r : Option Value}
    (h : ∀ w, r = some w → w.ConformsIn loose lax t) :
    Meets (readAs s goal r) (·.ConformsIn loose lax t) (·.isStuck = false) := by
  cases r with
  | some w => exact meets_ok.2 (h w rfl)
  | none => exact meets_error.2 rfl

theorem meets_readNumeric (s : String) :
    Meets (readAs s t (readNumeric? s t)) (·.ConformsIn loose lax t) (·.isStuck = false) := by
  refine meets_readAs fun w hw => ?_
  exact readNumeric?_conformsIn hw

theorem meets_castNumber (v : Value) (goal : Ty) :
    Meets (v.castNumber goal) (·.ConformsIn loose lax goal) (fun _ => True) := by
  unfold castNumber
  split
  next w h => exact meets_ok.2 (castNumeric?_conformsIn h)
  next => exact meets_error.2 trivial

/-- Numbers and enumerations are cast into each other without fail. -/
theorem ConformsIn.meets_castNumber (h : v.ConformsIn loose lax a) (hv : v.isNull = false)
    (ha : Binding.isNumericLike a = true) (ht : Binding.isNumericLike t = true) :
    Meets (v.castNumber t) (·.ConformsIn loose lax t) (fun _ => False) := by
  obtain ⟨w, hw, hc⟩ := h.castNumeric? hv ha ht
  rw [castNumber_eq_ok.2 hw]
  exact meets_ok.2 hc

/-- A text is read as an identifier, a number or a constant, if it can be. -/
theorem meets_castText (s : String) : Meets (castText s t) (·.ConformsIn loose lax t)
    (fun e => t = .guid ∨ Binding.isNumericLike t = true → e.isStuck = false) := by
  unfold castText
  split
  next =>
    refine (meets_readAs fun w hw => ?_).mono_error (fun _ h _ => h)
    obtain ⟨g, -, rfl⟩ := Option.map_eq_some_iff.1 hw
    exact .guid g
  next d =>
    refine (meets_readAs fun w hw => ?_).mono_error (fun _ h _ => h)
    obtain ⟨n, -, rfl⟩ := Option.map_eq_some_iff.1 hw
    exact .enum d n
  next => exact (meets_readNumeric s).mono_error (fun _ h _ => h)
  next => exact (meets_readNumeric s).mono_error (fun _ h _ => h)
  next => exact (meets_readNumeric s).mono_error (fun _ h _ => h)
  next guid enum int single double =>
    refine (meets_castNumber _ _).mono_error fun _ _ ht => ?_
    rcases ht with ht | ht
    · exact absurd ht guid
    · cases t with
      | int t => exact absurd rfl (int t)
      | enum d => exact absurd rfl (enum d)
      | single => exact absurd rfl single
      | double => exact absurd rfl double
      | _ => cases ht

/-- What has the form of a type without items conforms to it, if it conforms to any type. -/
theorem ConformsIn.of_isOf {u : Ty} (h : v.ConformsIn False lax u) (single : t.element? = none)
    (hv : v.isOf t = true) : v.ConformsIn False lax t := by
  unfold isOf at hv
  split at hv
  · exact .boolean _
  · exact .guid _
  · exact .dateTime _
  · rw [← of_decide_eq_true hv]
    exact .enum _ _
  · rw [← of_decide_eq_true hv]
    exact h.record
  · cases single
  · cases single
  · cases single
  · cases hv

theorem castPlain_of_isOf (hs : ∀ s, v ≠ .string s) (hv : v.isOf t = true) :
    v.castPlain t = .ok v := by
  unfold castPlain
  split
  · rfl
  · cases v <;> cases hv
  · split
    · exact absurd rfl (hs _)
    · rw [if_pos hv]

/-- Whatever is cast to a type without items, a value of the type comes out. -/
theorem ConformsIn.meets_castPlain {u : Ty} (h : v.ConformsIn False lax u)
    (single : t.element? = none) :
    Meets (v.castPlain t) (·.ConformsIn False lax t) (fun _ => True) := by
  unfold castPlain
  split
  · exact meets_ok.2 (.typed h)
  · exact meets_ok.2 (.string _)
  · split
    next s => exact (meets_castText s).mono_error (fun _ _ => trivial)
    next =>
      split
      next hv => exact meets_ok.2 (h.of_isOf single hv)
      next => exact Value.meets_castNumber _ _

theorem castPlain_string {s : String} (ht : t ≠ .object) :
    (Value.string s).castPlain t = if t = .string then .ok (.string s) else castText s t := by
  cases t <;> simp only [castPlain, reduceCtorEq, if_false, if_true, text]
  exact absurd rfl ht

/-- A value of a number type that is not of the target already is converted. -/
theorem ConformsIn.castPlain_eq (h : v.ConformsIn loose lax a) (ha : Binding.isNumericLike a = true)
    (ht : Binding.isNumericLike t = true) :
    v.castPlain t = if v.isOf t then .ok v else v.castNumber t := by
  unfold castPlain
  split
  · cases ht
  · cases ht
  · split
    · cases h with
      | _ => cases ha
    · rfl

theorem ConformsIn.meets_castPlain_numeric (h : v.ConformsIn False lax a)
    (hv : v.isNull = false) (ha : Binding.isNumericLike a = true)
    (ht : Binding.isNumericLike t = true) :
    Meets (v.castPlain t) (·.ConformsIn False lax t) (fun _ => False) := by
  rw [h.castPlain_eq ha ht]
  split
  next form =>
    refine meets_ok.2 (h.of_isOf ?_ form)
    cases t with
    | sequence | grouping => cases ht
    | _ => rfl
  next => exact h.meets_castNumber hv ha ht

theorem ConformsIn.meets_castPlain_refl (h : v.ConformsIn False lax t) (hv : v.isNull = false)
    (plain : t.isNullable = false) :
    Meets (v.castPlain t) (·.ConformsIn False lax t) (fun _ => False) := by
  by_cases ht : Binding.isNumericLike t = true
  · exact h.meets_castPlain_numeric hv ht ht
  · suffices hc : v.castPlain t = .ok v by
      rw [hc]
      exact meets_ok.2 h
    cases h with
    | null _ | lost _ _ => cases hv
    | int t n | single x | double x | enum d n => exact absurd rfl ht
    | string s => exact castPlain_string (by simp)
    | typed _ | untyped _ => rfl
    | nullable _ => cases plain
    | object _ _ => exact castPlain_of_isOf (by simp) (by simp [isOf])
    | _ => exact castPlain_of_isOf (by simp) rfl

/-- **A cast between types that are meant for it gives a value of the target.**  Only a mere object
can be refused. -/
theorem ConformsIn.meets_castPlain_of_casts (h : v.ConformsIn False lax a) (hv : v.isNull = false)
    (hc : a.Casts t) :
    Meets (v.castPlain t) (·.ConformsIn False lax t)
      (fun e => e.isStuck = false ∨ a = .object) := by
  cases hc with
  | toObject a => exact meets_ok.2 (.typed h)
  | toText a => exact meets_ok.2 (.string _)
  | fromObject single =>
    exact (h.meets_castPlain single).mono_error (fun _ _ => Or.inr rfl)
  | fromNull t =>
    rw [h.eq_null] at hv
    cases hv
  | items key t =>
    rcases h.eq_grouping with rfl | ⟨id, k, items, rfl, -, each⟩
    · cases hv
    · rw [castPlain_of_isOf (by simp) rfl]
      exact meets_ok.2 (.groupingItems each)
  | read target =>
    rcases h.eq_string with rfl | ⟨s, rfl⟩
    · cases hv
    · have ht : t ≠ .object ∧ t ≠ .string := by
        constructor <;> rintro rfl <;> rcases target with h | h <;> cases h
      rw [castPlain_string ht.1, if_neg ht.2]
      exact (meets_castText s).mono_error (fun _ he => Or.inl (he target))
  | numeric source target =>
    exact (h.meets_castPlain_numeric hv source target).mono_error (fun _ => False.elim)
  | refl plain => exact (h.meets_castPlain_refl hv plain).mono_error (fun _ => False.elim)

theorem ConformsIn.meets_cast [GuidFormat] (h : v.ConformsIn False lax a)
    (hc : a.nonNullable.Casts t.nonNullable) :
    Meets (v.cast t) (·.ConformsIn False lax t)
      (fun e => e.isStuck = false ∨ a.nonNullable = .object) := by
  unfold cast
  split
  · split
    next accepts => exact meets_ok.2 (.null accepts)
    next => exact meets_error.2 (Or.inl rfl)
  next hv =>
    have hv : v.isNull = false := by simpa using hv
    exact ((h.nonNullable hv).meets_castPlain_of_casts hv hc).mono
      (fun _ => ConformsIn.of_nonNullable) (fun _ => id)

/-! ## Constants -/

/-- A constant that adapts to a type becomes a value of the type. -/
theorem coerce?_conformsIn (h : v.coerce? t = some w) : w.ConformsIn loose lax t := by
  unfold coerce? at h
  split at h
  · split at h
    next accepts =>
      cases h
      exact .null accepts
    next => cases h
  · refine ConformsIn.of_nonNullable ?_
    generalize t.nonNullable = goal at h
    simp only at h
    split at h
    · cases h
      exact .string _
    · obtain ⟨g, -, rfl⟩ := Option.map_eq_some_iff.1 h
      exact .guid g
    · obtain ⟨n, -, rfl⟩ := Option.map_eq_some_iff.1 h
      exact .enum _ n
    · split at h
      next same =>
        cases h
        rw [← same]
        exact .enum _ _
      next => cases h
    · cases h
    · obtain ⟨n, -, rfl⟩ := Option.map_eq_some_iff.1 h
      exact .enum _ n
    · cases h
      exact .boolean _
    · cases h
      exact .guid _
    · cases h
      exact .dateTime _
    · split at h
      · exact fitNumeric?_conformsIn h
      · cases h

end Value

end TypedExpr
