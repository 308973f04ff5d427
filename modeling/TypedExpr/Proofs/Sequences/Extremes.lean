import TypedExpr.Proofs.Evaluation.Items
import TypedExpr.Proofs.Sequences.Selecting
import TypedExpr.Proofs.Sorting.Trichotomy

/-!
# Least and greatest values

The least and the greatest of the selected values are found in one pass, which keeps the best value
so far unless the next one is better.  Values of a comparable type are ordered by keys, so that no
value that was passed over is better than the one that is kept; and since tied values are the same
value, it does not matter which of several comes first.

* `SequenceMethod.wanted?` — the methods, and the side on which they want a value.
* `Items.IsExtreme` — a value that no other one is better than.
* **`Items.IsExtreme.unique`** — there is one such value, in whichever order the values come.
* **`Items.extreme_values`** — what the methods give.
-/

namespace TypedExpr

/-- A method that looks for the least or the greatest value, and how that value compares to the
others. -/
def SequenceMethod.wanted? : SequenceMethod → Option Ordering
  | .min => some .lt
  | .max => some .gt
  | _ => none

variable {t ty : Ty} {u v w : Value} {want : Ordering} {m : SequenceMethod}

/-! ## Order -/

namespace Value

variable {κ : Type} [Ord κ] [Std.TransOrd κ] [Std.LawfulEqOrd κ] {S : Value → Prop}
  {key : Value → Option κ}

/-- Of two values, one at most is better than the other. -/
theorem not_better (strict : want ≠ .eq) (h : v.compare? w = some want) :
    w.compare? v ≠ some want := by
  rw [compare?_swap v w, h]
  cases want with
  | eq => exact absurd rfl strict
  | lt | gt => exact nofun

/-- If one value is better than another, then a third value is worse than the one or better than the
other. -/
theorem KeyedBy.better_or (keyed : KeyedBy S key) (hu : S u) (hv : S v) (hw : S w)
    (strict : want ≠ .eq) (h : u.compare? w = some want) :
    u.compare? v = some want ∨ v.compare? w = some want := by
  obtain ⟨o, first⟩ : ∃ o, u.compare? v = some o := ⟨_, keyed.compared hu hv⟩
  obtain ⟨o', second⟩ : ∃ o', v.compare? w = some o' := ⟨_, keyed.compared hv hw⟩
  have back {a b : Value} {o : Ordering} (h : a.compare? b = some o) :
      b.compare? a = some o.swap := by
    rw [compare?_swap a b, h]
    rfl
  -- two steps that are not better do not lead to a better value, read from either end
  have up := keyed.trans hu hv hw first second
  have down := keyed.trans hw hv hu (back second) (back first)
  rw [h] at up
  rw [back h] at down
  rw [first, second]
  cases want with
  | eq => exact absurd rfl strict
  | lt => cases o <;> cases o' <;> simp at down ⊢
  | gt => cases o <;> cases o' <;> simp at up ⊢

/-- Tied values of a comparable type are one value. -/
theorem eq_of_tied (ht : t.IsLinear) (hv : v.RanksIn t) (hw : w.RanksIn t)
    (tied : v.compare? w = some .eq) : v = w := by
  obtain ⟨κ, _, _, _, key, keyed⟩ := exists_keyed ht
  have equal : v.equals w = true := (keyed.eq_iff hv hw tied).1 rfl
  by_cases null : v = .null
  · subst null
    exact eq_of_equals rfl rfl equal
  · have shown := hv.ty_eq ht null
    have comparable := ht.comparable
    have noSingle := ht.notSingle
    have noDouble := ht.notDouble
    unfold Ty.isComparable at comparable
    rw [← shown] at comparable noSingle noDouble
    cases v with
    | null | object | sequence | grouping => cases comparable
    | single => exact absurd rfl noSingle
    | double => exact absurd rfl noDouble
    | _ => exact eq_of_equals rfl rfl equal

end Value

/-! ## One pass -/

namespace Items

section

variable {format : GuidFormat} {items items' values values' : List Value} {f? : Option Selector}
  {argument : Eval Value} {s s' : Store}

/-- One of the values, other than null, that no other one is better than. -/
structure IsExtreme (want : Ordering) (values : List Value) (v : Value) : Prop where
  mem : v ∈ values
  proper : v ≠ .null
  best : ∀ w ∈ values, w ≠ .null → w.compare? v ≠ some want

/-- No value is better than the one that a pass keeps. -/
theorem not_better_foldl (ht : t.IsLinear) (strict : want ≠ .eq) (hv : v.RanksIn t)
    (each : ∀ w ∈ values, w.RanksIn t) :
    ∀ w ∈ v :: values, w.compare? (values.foldl (better want) v) ≠ some want := by
  obtain ⟨κ, _, _, _, key, keyed⟩ := Value.exists_keyed ht
  induction values generalizing v with
  | nil =>
    intro w hw h
    obtain rfl := List.mem_singleton.1 hw
    exact Value.not_better strict h h
  | cons x values ih =>
    obtain ⟨hx, others⟩ := List.forall_mem_cons.1 each
    have ranks {b : Value} (hb : b.RanksIn t) : (values.foldl (better want) b).RanksIn t :=
      List.forall_mem_cons.2 ⟨hb, others⟩ _ (foldl_better_mem want values b)
    rw [List.foldl_cons, better]
    split
    next passed =>
      have passed : x.compare? v = some want := beq_iff_eq.1 passed
      refine List.forall_mem_cons.2 ⟨fun h => ?_, ih hx others⟩
      rcases keyed.better_or hx (ranks hx) hv strict passed with better | worse
      · exact ih hx others x List.mem_cons_self better
      · exact Value.not_better strict worse h
    next kept =>
      have kept : x.compare? v ≠ some want := fun h => kept (beq_iff_eq.2 h)
      obtain ⟨first, rest⟩ := List.forall_mem_cons.1 (ih hv others)
      refine List.forall_mem_cons.2 ⟨first, List.forall_mem_cons.2 ⟨fun h => ?_, rest⟩⟩
      rcases keyed.better_or hx hv (ranks hv) strict h with better | better
      · exact kept better
      · exact first better

theorem mem_proper : v ∈ values.filter (!·.isNull) ↔ v ∈ values ∧ v ≠ .null := by
  rw [List.mem_filter, ne_eq, ← Value.isNull_iff, Bool.not_eq_true', Bool.not_eq_true]

/-- Nothing is found exactly if there is nothing but null. -/
theorem extreme?_eq_none_iff : extreme? want values = none ↔ ∀ v ∈ values, v = .null := by
  have nulls : values.filter (!·.isNull) = [] ↔ ∀ v ∈ values, v = .null := by
    rw [List.filter_eq_nil_iff]
    simp [Value.isNull_iff]
  rw [← nulls, extreme?]
  split
  next empty => exact iff_of_true rfl empty
  next listed =>
    rw [listed]
    exact iff_of_false (Option.some_ne_none _) (List.cons_ne_nil _ _)

/-- What is found is an extreme value. -/
theorem isExtreme_of_extreme? (ht : t.IsLinear) (strict : want ≠ .eq)
    (each : ∀ w ∈ values, w.RanksIn t) (found : extreme? want values = some v) :
    IsExtreme want values v := by
  unfold extreme? at found
  split at found
  · cases found
  next first rest proper =>
    cases found
    have ranks : ∀ w ∈ first :: rest, w.RanksIn t := by
      intro w hw
      exact each w (mem_proper.1 (proper ▸ hw)).1
    obtain ⟨hv, others⟩ := List.forall_mem_cons.1 ranks
    have mem := mem_proper.1 (proper ▸ foldl_better_mem want rest first)
    refine ⟨mem.1, mem.2, fun w hw notNull => ?_⟩
    exact not_better_foldl ht strict hv others w (proper ▸ mem_proper.2 ⟨hw, notNull⟩)

/-- **There is one extreme value**, in whichever order the values come. -/
theorem IsExtreme.unique (ht : t.IsLinear) (strict : want ≠ .eq)
    (each : ∀ w ∈ values, w.RanksIn t) (perm : values.Perm values')
    (hv : IsExtreme want values v) (hw : IsExtreme want values' w) : v = w := by
  have mem : w ∈ values := perm.mem_iff.2 hw.mem
  obtain ⟨κ, _, _, _, key, keyed⟩ := Value.exists_keyed ht
  have order := keyed.compared (each v hv.mem) (each w mem)
  have front := hw.best v (perm.mem_iff.1 hv.mem) hv.proper
  have back := hv.best w mem hw.proper
  rw [Value.compare?_swap v w] at back
  refine Value.eq_of_tied ht (each v hv.mem) (each w mem) ?_
  rw [order] at front back ⊢
  -- neither side is the wanted one, and one of them would be if the values were not tied
  revert strict front back
  cases want <;> cases compare (key v) (key w) <;> simp

/-- The extreme value does not depend on the order of the values. -/
theorem extreme?_perm (ht : t.IsLinear) (strict : want ≠ .eq) (each : ∀ w ∈ values, w.RanksIn t)
    (perm : values.Perm values') : extreme? want values = extreme? want values' := by
  have each' : ∀ w ∈ values', w.RanksIn t := fun w hw => each w (perm.mem_iff.2 hw)
  cases found : extreme? want values with
  | none =>
    have nulls := extreme?_eq_none_iff.1 found
    exact (extreme?_eq_none_iff.2 fun w hw => nulls w (perm.mem_iff.2 hw)).symm
  | some v =>
    cases found' : extreme? want values' with
    | none =>
      have nulls := extreme?_eq_none_iff.1 found'
      rw [extreme?_eq_none_iff.2 fun w hw => nulls w (perm.mem_iff.1 hw)] at found
      cases found
    | some w =>
      rw [(isExtreme_of_extreme? ht strict each found).unique ht strict each perm
        (isExtreme_of_extreme? ht strict each' found')]

/-! ## Calls -/

/-- A call looks for the extreme value among those that its lambda gives. -/
theorem call_extreme (sought : m.wanted? = some want)
    (run : selectAll (f?.getD pure) items s = (.ok values, s')) :
    call m items f? argument ty s = (orNull ty (extreme? want values), s') := by
  have passes : call m items f? argument ty =
      project f? items >>= fun values => liftM (orNull ty (extreme? want values)) := by
    cases m with
    | min | max =>
      cases sought
      rfl
    | _ => cases sought
  rw [passes, project_eq, bind_of_ok run]
  rfl

theorem wanted_ne_eq (sought : m.wanted? = some want) : want ≠ .eq := by
  cases m with
  | min | max =>
    cases sought
    exact nofun
  | _ => cases sought

/-- **`Min` and `Max` give extreme values.**  If for all items the lambda gives null or values of
one comparable type other than floating-point numbers, the result is one of these values, other than
null, that no other one is below or above.  If there is no such value, the result is null where its
type has null, and an error otherwise.  And if the values are the same in every run, so is the
result for the items in another order. -/
theorem extreme_values (sought : m.wanted? = some want) (ht : t.IsLinear) :
    (∀ {f? items values argument ty s s'},
      selectAll (f?.getD pure) items s = (.ok values, s') → (∀ v ∈ values, v.RanksIn t) →
      ((∃ v ∈ values, v ≠ .null) →
        ∃ v, call m items f? argument ty s = (.ok v, s') ∧ v ∈ values ∧ v ≠ .null ∧
          ∀ w ∈ values, w ≠ .null → w.compare? v ≠ some want) ∧
      ((∀ v ∈ values, v = .null) → call m items f? argument ty s =
        (if ty.acceptsNull then .ok .null else .error .emptySequence, s'))) ∧
    ∀ {f? items items' values argument ty s s'}, items.Perm items' →
      MapsTo (f?.getD pure) items values → (∀ v ∈ values, v.RanksIn t) →
      (call m items f? argument ty s).1 = (call m items' f? argument ty s').1 := by
  have strict := wanted_ne_eq sought
  constructor
  · intro f? items values argument ty s s' run each
    rw [call_extreme sought run]
    constructor
    · rintro ⟨v, hv, proper⟩
      cases found : extreme? want values with
      | none => exact absurd (extreme?_eq_none_iff.1 found v hv) proper
      | some best =>
        have extreme := isExtreme_of_extreme? ht strict each found
        exact ⟨best, rfl, extreme.mem, extreme.proper, extreme.best⟩
    · intro nulls
      rw [extreme?_eq_none_iff.2 nulls, orNull]
  · intro f? items items' values argument ty s s' perm maps each
    obtain ⟨values', reordered, maps'⟩ := maps.perm perm
    obtain ⟨s₁, run⟩ := maps.selectAll s
    obtain ⟨s₁', run'⟩ := maps'.selectAll s'
    rw [call_extreme sought run, call_extreme sought run', extreme?_perm ht strict each reordered]

end

/-- The least of some numbers, from either end. -/
theorem extreme_values_numbers :
    let items := [Value.int32 2, .null, Value.int32 (-1), Value.int32 0]
    SequenceMethod.min.wanted? = some .lt ∧ Ty.IsLinear (.nullable (.int .int32)) ∧
      call .min items none (pure .null) (.nullable (.int .int32)) .empty =
        (.ok (Value.int32 (-1)), .empty) ∧
      (∀ w ∈ items, w ≠ .null → w.compare? (Value.int32 (-1)) ≠ some .lt) ∧
      (call .min items.reverse none (pure .null) (.nullable (.int .int32)) .empty).1 =
        .ok (Value.int32 (-1)) := by
  intro items
  have linear : Ty.IsLinear (.nullable (.int .int32)) := ⟨rfl, by decide, by decide⟩
  have each : ∀ v ∈ items, v.RanksIn (.nullable (.int .int32)) := by
    intro v hv
    simp only [items, List.mem_cons, List.not_mem_nil, or_false] at hv
    obtain rfl | rfl | rfl | rfl := hv
    · exact Or.inr (.nullable (.int .int32 _))
    · exact Or.inl rfl
    · exact Or.inr (.nullable (.int .int32 _))
    · exact Or.inr (.nullable (.int .int32 _))
  have run : selectAll ((none : Option Selector).getD pure) items .empty =
      (.ok items, .empty) := rfl
  have maps : MapsTo ((none : Option Selector).getD pure) items items :=
    List.forall₂_same.2 fun _ _ _ => rfl
  have least : call .min items none (pure .null) (.nullable (.int .int32)) .empty =
      (.ok (Value.int32 (-1)), .empty) := rfl
  obtain ⟨value, order⟩ := extreme_values (m := .min) rfl linear
  have proper : Value.int32 2 ≠ .null := by
    intro same
    cases same
  obtain ⟨v, found, -, -, best⟩ := (value run each).1 ⟨_, List.mem_cons_self, proper⟩
  have same : (call .min items none (pure .null) (.nullable (.int .int32)) .empty).1 =
      (call .min items.reverse none (pure .null) (.nullable (.int .int32)) .empty).1 :=
    order (List.reverse_perm items).symm maps each
  rw [least] at found
  cases found
  exact ⟨rfl, linear, least, best, same.symm.trans (congrArg Prod.fst least)⟩

end Items

end TypedExpr
