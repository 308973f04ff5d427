import TypedExpr.Registry
import TypedExpr.Sequence.Method

/-!
# Well-formed types

Null may be added to a type once, and not to a type that has null already.  A type that was put
together by hand may break this rule; the types that are made from well-formed ones keep it.

* `Ty.WellFormed` — the rule holds in the type and in everything it is made of.
* `Ty.WellFormed.lift`, `Ty.WellFormed.resultTy`, … — the types made from others.
* **`Ty.WellFormed.members`** — what stands behind a dot.
* **`Registry.wellFormed_of_findType?`** — the types that have a name.
-/

namespace TypedExpr

variable {format : GuidFormat}

namespace Ty

variable {t u : Ty}

/-- In the type and in everything it is made of, null is added only where it is no value
already. -/
def WellFormed (t : Ty) : Prop := ∀ u, .nullable u ∈ t.subterms → u.acceptsNull = false

/-! ## Parts -/

theorem WellFormed.of_mem (h : t.WellFormed) (hu : u ∈ t.subterms) : u.WellFormed :=
  fun w hw => h w (subterms_trans t hu hw)

theorem WellFormed.nonNullable (h : t.WellFormed) : t.nonNullable.WellFormed := by
  cases t with
  | nullable t => exact h.of_mem (List.mem_cons_of_mem _ (mem_subterms_self t))
  | _ => exact h

theorem WellFormed.element (h : t.WellFormed) (ht : t.element? = some u) : u.WellFormed := by
  cases t with
  | sequence t =>
    cases ht
    exact h.of_mem (List.mem_cons_of_mem _ (mem_subterms_self u))
  | grouping key t =>
    cases ht
    exact h.of_mem (List.mem_cons_of_mem _ (List.mem_append_right _ (mem_subterms_self u)))
  | _ => cases ht

theorem WellFormed.field {d : RecordDef} {f : String × Ty} (h : (record d).WellFormed)
    (hf : f ∈ d.fields) : f.2.WellFormed :=
  h.of_mem (List.mem_cons_of_mem _ (subterms_subset_fieldSubterms hf (mem_subterms_self f.2)))

/-- A well-formed type that is an object, null aside, is the object type itself. -/
theorem WellFormed.eq_object (h : t.WellFormed) (ht : t.nonNullable = .object) : t = .object := by
  cases t with
  | nullable t =>
    cases ht
    cases h .object (mem_subterms_self _)
  | _ => exact ht

/-! ## Types made from others -/

/-- A type that is made of nothing but itself is well-formed, unless it is nullable. -/
theorem wellFormed_of_subterms (ht : t.subterms = [t]) (plain : t.isNullable = false) :
    t.WellFormed := by
  intro u hu
  rw [ht, List.mem_singleton] at hu
  rw [← hu] at plain
  cases plain

theorem wellFormed_int (u : IntType) : (int u).WellFormed := wellFormed_of_subterms rfl rfl

theorem wellFormed_boolean : boolean.WellFormed := wellFormed_of_subterms rfl rfl

theorem wellFormed_string : string.WellFormed := wellFormed_of_subterms rfl rfl

theorem WellFormed.nullableOf (h : t.WellFormed) : t.nullableOf.WellFormed := by
  unfold Ty.nullableOf
  split
  · exact h
  next hn =>
    intro u hu
    rcases List.mem_cons.1 hu with hu | hu
    · cases hu
      simpa using hn
    · exact h u hu

theorem WellFormed.lift (h : t.WellFormed) (b : Bool) : (t.lift b).WellFormed := by
  cases b with
  | false => exact h
  | true => exact h.nullableOf

theorem WellFormed.promoted (h : t.WellFormed) : t.promoted.WellFormed := by
  cases t with
  | int u => exact wellFormed_int _
  | _ => exact h

theorem WellFormed.sequence (h : t.WellFormed) : (Ty.sequence t).WellFormed := by
  intro u hu
  rcases List.mem_cons.1 hu with hu | hu
  · cases hu
  · exact h u hu

theorem mem_fieldSubterms {fs : List (String × Ty)} (h : u ∈ fieldSubterms fs) :
    ∃ f ∈ fs, u ∈ f.2.subterms := by
  induction fs with
  | nil => cases h
  | cons f fs ih =>
    rcases List.mem_append.1 h with h | h
    · exact ⟨f, List.mem_cons_self, h⟩
    · obtain ⟨g, hg, hu⟩ := ih h
      exact ⟨g, List.mem_cons_of_mem _ hg, hu⟩

theorem wellFormed_record {d : RecordDef} (h : ∀ f ∈ d.fields, f.2.WellFormed) :
    (record d).WellFormed := by
  intro u hu
  rcases List.mem_cons.1 hu with hu | hu
  · cases hu
  · obtain ⟨f, hf, hu⟩ := mem_fieldSubterms hu
    exact h f hf u hu

/-- The results of the methods of sequences. -/
theorem WellFormed.resultTy {item : Ty} {selected : Option Ty} (m : SequenceMethod)
    (hi : item.WellFormed) (hs : ∀ u ∈ selected, u.WellFormed) :
    (m.resultTy item selected).WellFormed := by
  have hs : (selected.getD item).WellFormed := by
    cases selected with
    | none => exact hi
    | some u => exact hs u rfl
  have average : (SequenceMethod.averageTy (selected.getD item)).WellFormed := by
    refine WellFormed.lift ?_ _
    split <;> exact wellFormed_of_subterms rfl rfl
  cases m with
  | any | all | contains => exact wellFormed_boolean
  | count => exact wellFormed_int _
  | sum => exact hs.nonNullable.promoted.lift _
  | average => exact average
  | min | max => exact hs
  | first | firstOrDefault | last | lastOrDefault => exact hi
  | select => exact hs.sequence
  | filter | orderBy | orderByDescending | distinct | take | skip => exact hi.sequence

end Ty

/-! ## Behind a dot -/

/-- The methods that records declare have well-formed parameters and results. -/
def Schema.WellFormed (s : Schema) : Prop :=
  ∀ r ∈ s.records, ∀ m ∈ r.methods, m.result.WellFormed ∧ ∀ u ∈ m.params, u.WellFormed

variable {s : Schema} {t u : Ty}

theorem Ty.WellFormed.member (h : t.WellFormed) {m : Member} (hm : m ∈ MemberTable.membersOf t) :
    m.ty.WellFormed := by
  cases t with
  | record d =>
    obtain ⟨i, hi, rfl⟩ := List.mem_mapIdx.1 hm
    exact h.field (List.getElem_mem hi)
  | enum d =>
    obtain ⟨c, -, rfl⟩ := List.mem_map.1 hm
    exact h
  | string =>
    rw [List.mem_singleton.1 hm]
    exact wellFormed_int _
  | nullable t =>
    rcases List.mem_cons.1 hm with rfl | hm
    · exact wellFormed_boolean
    · rw [List.mem_singleton.1 hm]
      exact h.nonNullable
  | grouping key t =>
    rw [List.mem_singleton.1 hm]
    exact h.of_mem (List.mem_cons_of_mem _ (List.mem_append_left _ (mem_subterms_self key)))
  | _ => cases hm

/-- The methods of a type are declared, or built-in, or `ToString`. -/
theorem MemberTable.mem_methods {m : Method} (h : m ∈ (MemberTable.of s t).methods) :
    m ∈ methodsOf s t ∨ m = toStringMethod := by
  unfold MemberTable.of at h
  simp only at h
  split at h
  · exact Or.inl h
  · simpa using h

theorem stringMethods_wellFormed : ∀ m ∈ stringMethods,
    m.result.WellFormed ∧ ∀ u ∈ m.params, u.WellFormed := by
  have hs := Ty.wellFormed_string
  have hi := Ty.wellFormed_int .int32
  have hb := Ty.wellFormed_boolean
  simp [stringMethods, stringTest, stringMap, Method.pure, hs, hi, hb]

theorem Ty.WellFormed.method (hs : s.WellFormed) (h : t.WellFormed) {m : Method}
    (hm : m ∈ (MemberTable.of s t).methods) :
    m.result.WellFormed ∧ ∀ u ∈ m.params, u.WellFormed := by
  rcases MemberTable.mem_methods hm with hm | rfl
  · cases t with
    | record d =>
      obtain ⟨r, hr, hm⟩ := Schema.mem_methods hm
      exact hs r hr m hm
    | enum d =>
      rw [List.mem_singleton.1 hm]
      refine ⟨wellFormed_boolean, ?_⟩
      intro u hu
      rw [List.mem_singleton.1 hu]
      exact h
    | string => exact stringMethods_wellFormed m hm
    | nullable t =>
      rw [List.mem_singleton.1 hm]
      exact ⟨h.nonNullable, fun _ hu => by cases hu⟩
    | _ => cases hm
  · exact ⟨wellFormed_string, fun _ hu => by cases hu⟩

/-! ## Types with a name -/

theorem Ty.mem_visit {root : Ty} {stack visited : List Ty} (inside : stack ⊆ root.horizon s)
    (h : t ∈ visit s root stack visited inside) : t ∈ visited ∨ t ∈ root.horizon s := by
  induction stack, visited, inside using visit.induct with
  | case1 visited _ _ =>
    rw [visit] at h
    exact Or.inl (List.mem_reverse.1 h)
  | case2 visited u rest inside _ hu _ ih =>
    rw [visit, if_pos hu] at h
    exact ih h
  | case3 visited u rest inside _ hu _ ih =>
    rw [visit, if_neg hu] at h
    rcases ih h with hm | hm
    · rcases List.mem_cons.1 hm with rfl | hm
      · exact Or.inr (inside List.mem_cons_self)
      · exact Or.inl hm
    · exact Or.inr hm

theorem Ty.WellFormed.horizon (hs : s.WellFormed) (h : t.WellFormed) (hu : u ∈ t.horizon s) :
    u.WellFormed := by
  rcases List.mem_append.1 hu with hu | hu
  · exact h.of_mem hu
  · obtain ⟨r, hr, hu⟩ := List.mem_flatMap.1 hu
    obtain ⟨m, hm, hu⟩ := List.mem_flatMap.1 hu
    exact (hs r hr m hm).1.of_mem hu

theorem Ty.WellFormed.reachable (hs : s.WellFormed) (h : t.WellFormed)
    (hu : u ∈ t.reachable s) : u.WellFormed := by
  rcases mem_visit _ hu with hu | hu
  · cases hu
  · exact h.horizon hs hu

theorem predefined?_wellFormed {name : String} (h : Ty.predefined? name = some t) :
    t.WellFormed := by
  have plain : t.subterms = [t] ∧ t.isNullable = false := by
    unfold Ty.predefined? at h
    split at h <;> cases h <;> exact ⟨rfl, rfl⟩
  exact Ty.wellFormed_of_subterms plain.1 plain.2

theorem Registry.isExposed_of_findType? {r : Registry} {name : String} {context : Ty}
    (h : r.findType? name context = some t) : t.isExposed = true := by
  unfold findType? at h
  split at h
  next u hu =>
    cases h
    exact (Option.filter_eq_some_iff.1 hu).2
  next =>
    have found := List.find?_some h
    rw [Bool.and_eq_true] at found
    exact found.1

/-- A type that a name stands for is well-formed, if those that were registered and the context
are. -/
theorem Registry.wellFormed_of_findType? {r : Registry} {name : String} {context : Ty}
    (hs : r.schema.WellFormed) (named : ∀ p ∈ r.named, p.2.WellFormed)
    (hc : context.WellFormed) (h : r.findType? name context = some t) : t.WellFormed := by
  unfold findType? at h
  split at h
  next u hu =>
    cases h
    obtain ⟨before, after, hn, -⟩ := List.lookup_eq_some_iff.1 (Option.filter_eq_some_iff.1 hu).1
    exact named (name, t) (by simp [hn])
  next => exact hc.reachable hs (List.mem_of_find?_eq_some h)

end TypedExpr
