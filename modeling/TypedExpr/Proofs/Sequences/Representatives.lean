import TypedExpr.Proofs.Value.Equivalence
import TypedExpr.Sequence.Apply

/-!
# Distinct items

Items are kept unless an item that was kept before equals them.  Equality is an equivalence where an
identity stands for one content and nothing is a floating-point number, and then it is the same to
say that no item at all before them equals them: of every class of equal items, the first one is
kept.

* `Items.distinct_append` — what is kept of the items in front does not depend on the others.
* `Items.pairwise_distinct`, `Items.distinct_distinct` — no two items that are kept are equal.
* `Items.exists_representative` — every item equals one that is kept.
* **`Items.distinct_representatives`** — which items are kept, and what they have in common with all
  of them.
-/

namespace TypedExpr.Items

variable {front back items seen : List Value} {v w needle : Value}

/-! ## Which items are kept -/

theorem contains_iff : contains items v = true ↔ ∃ w ∈ items, w.equals v = true :=
  List.any_eq_true

/-- The items that are kept of the items behind are those that equal none that is kept before. -/
theorem distinctFrom_append (seen front back : List Value) :
    distinctFrom seen (front ++ back) =
      distinctFrom seen front ++ distinctFrom ((distinctFrom seen front).reverse ++ seen) back := by
  induction front generalizing seen with
  | nil => rfl
  | cons v front ih =>
    rw [List.cons_append, distinctFrom, distinctFrom]
    split
    · exact ih seen
    · rw [ih, List.reverse_cons, List.append_assoc, List.singleton_append, List.cons_append]

/-- What is kept of the items in front does not depend on those behind. -/
theorem distinct_append (front back : List Value) :
    distinct (front ++ back) = distinct front ++ distinctFrom (distinct front).reverse back := by
  rw [distinct, distinctFrom_append, List.append_nil]
  rfl

/-- An item is kept unless it equals one that is kept before. -/
theorem distinct_concat (front : List Value) (v : Value) :
    distinct (front ++ [v]) =
      distinct front ++ if contains (distinct front) v then [] else [v] := by
  rw [distinct_append, distinctFrom, List.any_reverse]
  rfl

theorem distinctFrom_sublist (seen items : List Value) :
    (distinctFrom seen items).Sublist items := by
  induction items generalizing seen with
  | nil => exact .slnil
  | cons v items ih =>
    rw [distinctFrom]
    split
    · exact (ih seen).cons v
    · exact (ih _).cons_cons v

/-! ## No two are equal -/

/-- Nothing that was seen equals an item that is kept, and no two of these are equal. -/
theorem pairwise_distinctFrom (seen items : List Value) :
    (∀ w ∈ seen, ∀ v ∈ distinctFrom seen items, w.equals v = false) ∧
      (distinctFrom seen items).Pairwise fun w v => w.equals v = false := by
  induction items generalizing seen with
  | nil => exact ⟨fun _ _ => nofun, .nil⟩
  | cons item items ih =>
    rw [distinctFrom]
    split
    next => exact ih seen
    next new =>
      obtain ⟨apart, pairwise⟩ := ih (item :: seen)
      have new : ∀ w ∈ seen, w.equals item = false := by simpa using new
      refine ⟨fun w hw => List.forall_mem_cons.2 ⟨new w hw, ?_⟩, .cons ?_ pairwise⟩
      · exact apart w (List.mem_cons_of_mem _ hw)
      · exact apart item List.mem_cons_self

/-- **No two items that are kept are equal.** -/
theorem pairwise_distinct (items : List Value) :
    (distinct items).Pairwise fun w v => w.equals v = false :=
  (pairwise_distinctFrom [] items).2

/-- Where no two items are equal, all of them are kept. -/
theorem distinctFrom_eq_self (apart : ∀ w ∈ seen, ∀ v ∈ items, w.equals v = false)
    (pairwise : items.Pairwise fun w v => w.equals v = false) :
    distinctFrom seen items = items := by
  induction items generalizing seen with
  | nil => rfl
  | cons item items ih =>
    obtain ⟨first, others⟩ := List.pairwise_cons.1 pairwise
    have new : seen.any (·.equals item) = false := by
      simpa using fun w hw => apart w hw item List.mem_cons_self
    rw [distinctFrom, new, if_neg Bool.false_ne_true, ih _ others]
    refine List.forall_mem_cons.2 ⟨first, fun w hw v hv => ?_⟩
    exact apart w hw v (List.mem_cons_of_mem _ hv)

theorem distinct_distinct (items : List Value) : distinct (distinct items) = distinct items :=
  distinctFrom_eq_self nofun (pairwise_distinct items)

/-! ## Representatives -/

/-- An item equals one that is kept and does not stand behind it: either itself, or the one because
of which it is not kept. -/
theorem exists_representative (noFloat : v.isFloat = false) (front back : List Value) :
    ∃ r ∈ distinct (front ++ v :: back), r ∈ front ++ [v] ∧ r.equals v = true := by
  rw [List.append_cons, distinct_append, distinct_concat]
  cases known : contains (distinct front) v with
  | true =>
    obtain ⟨r, kept, equal⟩ := contains_iff.1 known
    refine ⟨r, by simp [kept], ?_, equal⟩
    exact List.mem_append_left _ ((distinctFrom_sublist [] front).subset kept)
  | false => exact ⟨v, by simp, by simp, Value.equals_self noFloat⟩

/-- **The items that are kept stand for all of them**: a value equals one of the former if it equals
one of the latter. -/
theorem contains_distinct (free : ∀ v ∈ items, v.FloatFree)
    (coherent : Value.Coherent (· ∈ items)) (agrees : ∀ v ∈ items, v.Agrees needle) :
    contains (distinct items) needle = contains items needle := by
  have subset := (distinctFrom_sublist [] items).subset
  rw [Bool.eq_iff_iff, contains_iff, contains_iff]
  constructor
  · rintro ⟨r, kept, equal⟩
    exact ⟨r, subset kept, equal⟩
  · rintro ⟨v, hv, equal⟩
    obtain ⟨front, back, split⟩ := List.append_of_mem hv
    obtain ⟨r, kept, -, same⟩ := exists_representative (free v hv).isFloat front back
    rw [← split] at kept
    have hr : r ∈ items := subset kept
    exact ⟨r, kept, Value.equals_trans (free r hr) (coherent r v hr hv) (agrees v hv) same equal⟩

/-- What is kept of the items up to some place, told by all the items in front of it. -/
theorem distinct_split {v : Value} (free : ∀ w ∈ front ++ v :: back, w.FloatFree)
    (coherent : Value.Coherent (· ∈ front ++ v :: back)) :
    ∃ later, distinct (front ++ v :: back) =
      distinct front ++ (if contains front v then [] else [v]) ++ later := by
  have hv : v ∈ front ++ v :: back := List.mem_append_right _ List.mem_cons_self
  have inside : front ⊆ front ++ v :: back := List.subset_append_left _ _
  have same : contains (distinct front) v = contains front v :=
    contains_distinct (fun w hw => free w (inside hw))
      (fun u w hu hw => coherent u w (inside hu) (inside hw))
      fun w hw => coherent w v (inside hw) hv
  refine ⟨distinctFrom (distinct (front ++ [v])).reverse back, ?_⟩
  rw [List.append_cons, distinct_append, distinct_concat, same]

/-- **Of each class of equal items, the first one is kept**, if nothing inside of the items is a
floating-point number.  What is kept stays in order, no two of it are equal, every item equals one
that is kept and occurs no later, and all that is kept is kept again.  Where an identity stands for
one content, equality is an equivalence: then an item is kept exactly if no item before equals it,
and a value is found among the items that are kept exactly if it is found among all of them. -/
theorem distinct_representatives (free : ∀ v ∈ items, v.FloatFree) :
    (distinct items).Sublist items ∧
    (distinct items).Pairwise (fun w v => w.equals v = false) ∧
    (∀ front v back, items = front ++ v :: back →
      ∃ r ∈ distinct items, r ∈ front ++ [v] ∧ r.equals v = true) ∧
    distinct (distinct items) = distinct items ∧
    (Value.Coherent (· ∈ items) →
      (∀ front v back, items = front ++ v :: back → ∃ later,
        distinct items = distinct front ++ (if contains front v then [] else [v]) ++ later) ∧
      ∀ needle : Value, (∀ v ∈ items, v.Agrees needle) →
        contains (distinct items) needle = contains items needle) := by
  refine ⟨distinctFrom_sublist [] items, pairwise_distinct items, ?_, distinct_distinct items,
    fun coherent => ⟨?_, fun needle => contains_distinct free coherent⟩⟩
  · rintro front v back rfl
    have hv : v ∈ front ++ v :: back := List.mem_append_right _ List.mem_cons_self
    exact exists_representative (free v hv).isFloat front back
  · rintro front v back rfl
    exact distinct_split free coherent

/-- A list of one number. -/
def listOfOne (id : Identity) : Value := .sequence id [Value.int32 1]

/-- A list, its number, and another list with the same number. -/
theorem distinct_representatives_lists :
    let items := [listOfOne 0, Value.int32 1, listOfOne 1, listOfOne 0]
    (∀ v ∈ items, v.FloatFree) ∧ Value.Coherent (· ∈ items) ∧
      distinct items = [listOfOne 0, Value.int32 1] ∧
      distinct (distinct items) = distinct items ∧
      contains (distinct items) (listOfOne 1) = true := by
  intro items
  have agree : ∀ p ∈ Value.partsAll items, ∀ q ∈ Value.partsAll items,
      p.sharesIdentity q = true → p = q := by
    intro p hp q hq same
    simp only [items, listOfOne, Value.int32, Value.partsAll, Value.parts, List.cons_append,
      List.nil_append, List.mem_cons, List.not_mem_nil, or_false] at hp hq
    rcases hp with rfl | rfl | rfl | rfl | rfl | rfl | rfl <;>
      rcases hq with rfl | rfl | rfl | rfl | rfl | rfl | rfl <;> first | rfl | cases same
  have coherent : Value.Coherent (· ∈ items) := fun v w hv hw p hp q hq =>
    agree p (Value.parts_subset_partsAll hv hp) q (Value.parts_subset_partsAll hw hq)
  have noFloat : ∀ p ∈ Value.partsAll items, p.isFloat = false := by decide
  have free : ∀ v ∈ items, v.FloatFree := fun v hv p hp =>
    noFloat p (Value.parts_subset_partsAll hv hp)
  obtain ⟨-, -, -, again, known⟩ := distinct_representatives free
  have other : listOfOne 1 ∈ items := by simp [items]
  refine ⟨free, coherent, rfl, again, ?_⟩
  exact ((known coherent).2 (listOfOne 1) fun v hv => coherent v _ hv other).trans rfl

end TypedExpr.Items
