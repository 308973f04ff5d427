import TypedExpr.Proofs.Ensures
import TypedExpr.Proofs.Typing.Judgement

/-!
# Typing of promotions

Bringing typed expressions to a type gives typed expressions of that type, whether it happens
alone or to the two operands of an operator.

* `Expr.HasType` — a typed tree with its type.
* `Expr.Typed.applyConversion` — an implicit conversion gives the wanted type.
* **`Expr.Typed.promote?`** — so does an implicit promotion.
* **`Binding.unify_typed`** — two operands are brought to one type.
-/

namespace TypedExpr

variable {format : GuidFormat}

/-- The tree is typed, with that type. -/
structure Expr.HasType [GuidFormat] (P : Premises) (Γ : List Ty) (e : Expr) (t : Ty) : Prop where
  typed : e.Typed P Γ
  ty : e.ty = t

namespace Expr.Typed

variable {P : Premises} {Γ : List Ty} {e : Expr} {t : Ty} {v : Value}

/-! ## Constants -/

/-- A constant has a value that its type admits. -/
theorem constant_admits (h : e.Typed P Γ) (hc : e.constant? = some v) : P.admits v e.ty := by
  cases h with
  | literal constant _ | constant _ constant _ =>
    cases hc
    exact constant
  | _ => cases hc

theorem withConstant (h : e.Typed P Γ) (hv : P.admits v t) (ht : P.allows t) :
    (e.withConstant v t).HasType P Γ t := by
  refine ⟨?_, e.withConstant_ty v t⟩
  cases h with
  | constant number _ _ => exact .constant number hv ht
  | deferred declared => exact .constant (List.getElem?_eq_some_iff.1 declared).1 hv ht
  | _ => exact .literal hv ht

theorem ofValue (hv : v.Conforms v.ty) (ht : v.ty.WellFormed) : (Expr.ofValue v).Typed P Γ :=
  .literal (fun _ => hv) (fun _ => ht)

/-! ## Conversions -/

/-- A cast that is carried out at once, if the value is known. -/
theorem cast (h : e.Typed P Γ) (ht : P.allows t)
    (casts : e.ty.nonNullable.Casts t.nonNullable) :
    Expr.HasType P Γ (match e.constant?.bind fun v => (v.cast t).toOption with
      | some v => e.withConstant v t
      | none => .convert e none t) t := by
  split
  next w hw =>
    obtain ⟨v, hv, hw⟩ := Option.bind_eq_some_iff.1 hw
    refine h.withConstant (fun sound => ?_) ht
    refine (Value.ConformsIn.meets_cast (h.constant_admits hv sound) casts).ok w ?_
    cases hr : v.cast t with
    | ok w' =>
      rw [hr] at hw
      cases hw
      rfl
    | error err =>
      rw [hr] at hw
      cases hw
  next => exact ⟨.convert h casts ht, rfl⟩

/-- A conversion that is known to exist gives the wanted type. -/
theorem applyConversion {c : ImplicitConversion} (h : e.Typed P Γ) (ht : P.allows t)
    (hc : P.schema.implicit? e.ty t = some c) :
    (e.applyConversion P.schema c t).HasType P Γ t := by
  unfold Expr.applyConversion
  rcases Schema.implicit?_sound hc with built | ⟨d, i, conversion, hk, rfl, declared, source⟩
  · split
    next hk =>
      rw [hk] at built
      exact ⟨h, built.eq⟩
    next hk =>
      rw [hk] at built
      exact absurd built Ty.not_implicit_userDefined
    next hk =>
      rw [hk] at built
      exact h.withConstant (fun _ => .null built.acceptsNull) ht
    next hk _ _ => exact h.cast ht (built.casts hk)
  · rw [hk]
    simp only [Expr.userConversion, declared]
    exact ⟨.convertUser h declared source ht, rfl⟩

/-- **An implicit promotion gives the wanted type.** -/
theorem promote? {p : Promotion} {allowObject : Bool} (h : e.Typed P Γ) (ht : P.allows t)
    (hp : e.promote? P.schema t allowObject = some p) : p.expr.HasType P Γ t := by
  unfold Expr.promote? at hp
  split at hp
  next same =>
    cases hp
    exact ⟨h, same⟩
  next =>
    simp only at hp
    split at hp
    next w hw =>
      cases hp
      obtain ⟨v, hv, hw⟩ := Option.bind_eq_some_iff.1 hw
      exact h.withConstant (fun _ => Value.coerce?_conformsIn hw) ht
    next =>
      obtain ⟨c, hc, rfl⟩ := Option.map_eq_some_iff.1 hp
      exact h.applyConversion ht (Option.filter_eq_some_iff.1 hc).1

/-- An operand is brought to a type that it is promoted or cast to. -/
theorem coerceTo (h : e.Typed P Γ) (ht : P.allows t)
    (casts : e.promote? P.schema t false = none → e.ty.nonNullable.Casts t.nonNullable) :
    (e.coerceTo P.schema t).HasType P Γ t := by
  unfold Expr.coerceTo
  split
  next same => exact ⟨h, same⟩
  next =>
    split
    next p hp => exact h.promote? ht hp
    next hp => exact ⟨.convert h (casts hp) ht, rfl⟩

end Expr.Typed

/-! ## One type for two operands -/

namespace Binding

variable {P : Premises} {Γ : List Ty} {l r : Expr} {t : Ty}

/-- The operands of an operator, brought to one type. -/
structure Unified [GuidFormat] (P : Premises) (Γ : List Ty) (operands : Expr × Expr) : Prop where
  left : operands.1.Typed P Γ
  right : operands.2.Typed P Γ
  same : operands.1.ty = operands.2.ty

theorem adapt?_typed {e e' : Expr} (h : e.Typed P Γ) (ht : P.allows t)
    (ha : adapt? e t = some e') : e'.HasType P Γ t := by
  obtain ⟨w, hw, rfl⟩ := Option.map_eq_some_iff.1 ha
  obtain ⟨v, hv, hw⟩ := Option.bind_eq_some_iff.1 hw
  exact h.withConstant (fun _ => Value.coerce?_conformsIn hw) ht

theorem operandConversion?_promotes {s : Schema} {e : Expr}
    (h : (s.operandConversion? e.ty t).isSome = true) : e.promote? s t false ≠ none := by
  intro hp
  unfold Expr.promote? at hp
  split at hp
  · cases hp
  · simp only at hp
    split at hp
    · cases hp
    · obtain ⟨c, hc⟩ := Option.isSome_iff_exists.1 h
      unfold Schema.operandConversion? at hc
      simp [hc] at hp

theorem meetingTypes_wellFormed {a b : Ty} (ha : a.WellFormed) (hb : b.WellFormed)
    (ht : t ∈ meetingTypes a b) : t.WellFormed := by
  obtain ⟨u, hu, rfl⟩ := List.mem_map.1 ht
  refine Ty.WellFormed.lift ?_ _
  rcases List.mem_append.1 hu with hu | hu
  · obtain ⟨w, hw, rfl⟩ := List.mem_map.1 hu
    have hw := (List.mem_filter.1 hw).1
    rcases List.mem_cons.1 hw with rfl | hw
    · exact ha.nonNullable
    · rw [List.mem_singleton.1 hw]
      exact hb.nonNullable
  · have plain : u.subterms = [u] ∧ u.isNullable = false := by
      simp only [commonNumeric, List.mem_cons, List.not_mem_nil, or_false] at hu
      rcases hu with rfl | rfl | rfl | rfl | rfl | rfl <;> exact ⟨rfl, rfl⟩
    exact Ty.wellFormed_of_subterms plain.1 plain.2

theorem convertBoth_typed (env : P.Environment Γ) (hl : l.Typed P Γ) (hr : r.Typed P Γ)
    (operator : String) (offset : Nat) :
    Meets (convertBoth P.schema operator l r offset) (Unified P Γ) (fun _ => True) := by
  have toLeft {c : ImplicitConversion} (hc : P.schema.operandConversion? r.ty l.ty = some c) :
      Unified P Γ (l, r.applyConversion P.schema c l.ty) := by
    have h := hr.applyConversion (hl.allows env) (Option.filter_eq_some_iff.1 hc).1
    exact ⟨hl, h.typed, h.ty.symm⟩
  have toRight {c : ImplicitConversion} (hc : P.schema.operandConversion? l.ty r.ty = some c) :
      Unified P Γ (l.applyConversion P.schema c r.ty, r) := by
    have h := hl.applyConversion (hr.allows env) (Option.filter_eq_some_iff.1 hc).1
    exact ⟨h.typed, hr, h.ty⟩
  unfold convertBoth
  simp only
  split
  next a b ha hb =>
    refine meets_ok.2 ?_
    split
    · exact toRight hb
    · exact toLeft ha
  next a ha _ => exact meets_ok.2 (toLeft ha)
  next b _ hb => exact meets_ok.2 (toRight hb)
  next =>
    split
    next t ht =>
      have found := List.find?_some ht
      simp only [Bool.and_eq_true] at found
      have allowed : P.allows t := fun strict =>
        meetingTypes_wellFormed (hl.allows env strict) (hr.allows env strict)
          (List.mem_of_find?_eq_some ht)
      have hl' := hl.coerceTo allowed fun hp =>
        absurd hp (operandConversion?_promotes found.1)
      have hr' := hr.coerceTo allowed fun hp =>
        absurd hp (operandConversion?_promotes found.2)
      exact meets_ok.2 ⟨hl'.typed, hr'.typed, hl'.ty.trans hr'.ty.symm⟩
    next => exact meets_error.2 trivial

/-- **Two operands are brought to one type.** -/
theorem unify_typed (env : P.Environment Γ) (hl : l.Typed P Γ) (hr : r.Typed P Γ)
    (operator : String) (offset : Nat) :
    Meets (unify P.schema operator l r offset) (Unified P Γ) (fun _ => True) := by
  unfold unify
  split
  next same => exact meets_ok.2 ⟨hl, hr, same⟩
  next =>
    split
    next r' hr' =>
      have h := adapt?_typed hr (hl.allows env) hr'
      exact meets_ok.2 ⟨hl, h.typed, h.ty.symm⟩
    next =>
      split
      next l' hl' =>
        have h := adapt?_typed hl (hr.allows env) hl'
        exact meets_ok.2 ⟨h.typed, hr, h.ty⟩
      next => exact convertBoth_typed env hl hr operator offset

end Binding

end TypedExpr
