import TypedExpr.Proofs.Value.Conformance
import TypedExpr.Proofs.Value.Mirror
import TypedExpr.Sequence.Apply

/-!
# Values in a line

Null and the values of one comparable type stand in a line, except for floating-point numbers,
where some have no place in the order.

* `LinearOn` — a comparison that is a linear preorder on some elements, and ways to make one of
  others.
* `Ty.IsLinear`, `Value.RanksIn` — the types whose values stand in a line, and these values.
* **`Items.compareKeys_linear`** — the order of keys of such a type, in either direction.
-/

namespace TypedExpr

/-! ## Linear preorders -/

/-- On the elements of a set, the comparison is that of a linear preorder. -/
structure LinearOn {α : Type} (S : α → Prop) (cmp : α → α → Ordering) : Prop where
  swap {a b : α} : S a → S b → cmp b a = (cmp a b).swap
  trans {a b c : α} : S a → S b → S c → (cmp a b).isLE = true → (cmp b c).isLE = true →
    (cmp a c).isLE = true

namespace LinearOn

variable {α β : Type} {S : α → Prop} {T : β → Prop} {cmp : α → α → Ordering}
  {cmp' : β → β → Ordering}

/-- Elements stand in a line if their images do, by which they are compared. -/
theorem comap (h : LinearOn T cmp') (f : α → β) (image : ∀ a, S a → T (f a))
    (compared : ∀ a b, S a → S b → cmp a b = cmp' (f a) (f b)) : LinearOn S cmp where
  swap {a b} ha hb := by
    rw [compared a b ha hb, compared b a hb ha]
    exact h.swap (image a ha) (image b hb)
  trans {a b c} ha hb hc := by
    rw [compared a b ha hb, compared b c hb hc, compared a c ha hc]
    exact h.trans (image a ha) (image b hb) (image c hc)

/-- Elements that are compared by keys from a line stand in a line. -/
theorem of_key {κ : Type} [Ord κ] [Std.TransOrd κ] (key : α → κ)
    (h : ∀ a b, S a → S b → cmp a b = compare (key a) (key b)) : LinearOn S cmp :=
  have line : LinearOn (fun _ : κ => True) compare :=
    ⟨fun _ _ => Std.OrientedCmp.eq_swap, fun _ _ _ => Std.TransCmp.isLE_trans⟩
  line.comap key (fun _ _ => trivial) h

/-- A line may be read from its other end. -/
theorem reverse (h : LinearOn S cmp) : LinearOn S fun a b => (cmp a b).swap where
  swap ha hb := by rw [h.swap ha hb]
  trans {a b c} ha hb hc hab hbc := by
    rw [← h.swap ha hb] at hab
    rw [← h.swap hb hc] at hbc
    rw [← h.swap ha hc]
    exact h.trans hc hb ha hbc hab

theorem isLE_total (h : LinearOn S cmp) {a b : α} (ha : S a) (hb : S b) :
    (cmp a b).isLE = true ∨ (cmp b a).isLE = true := by
  rw [h.swap ha hb]
  cases cmp a b <;> decide

/-- Between elements that are tied, everything is tied with them. -/
theorem eq_of_between (h : LinearOn S cmp) {a b c : α} (ha : S a) (hb : S b) (hc : S c)
    (tied : cmp a c = .eq) (hab : (cmp a b).isLE = true) (hbc : (cmp b c).isLE = true) :
    cmp a b = .eq ∧ cmp b c = .eq := by
  have hca : (cmp c a).isLE = true := by rw [h.swap ha hc, tied]; rfl
  have hba := h.trans hb hc ha hbc hca
  have hcb := h.trans hc ha hb hca hab
  rw [h.swap ha hb] at hba
  rw [h.swap hb hc] at hcb
  revert hab hba hbc hcb
  cases cmp a b <;> cases cmp b c <;> decide

/-- **Pairs stand in a line if both components do**: the first component decides unless it is
tied. -/
theorem lex (h : LinearOn S cmp) (h' : LinearOn T cmp') :
    LinearOn (fun p : α × β => S p.1 ∧ T p.2)
      (fun p q => (cmp p.1 q.1).then (cmp' p.2 q.2)) where
  swap hp hq := by rw [h.swap hp.1 hq.1, h'.swap hp.2 hq.2, Ordering.swap_then]
  trans {p q r} hp hq hr hpq hqr := by
    have first (o o' : Ordering) (le : (o.then o').isLE = true) : o.isLE = true := by
      cases o <;> first | rfl | cases le
    have front := h.trans hp.1 hq.1 hr.1 (first _ _ hpq) (first _ _ hqr)
    cases tied : cmp p.1 r.1 with
    | lt => rfl
    | gt => rw [tied] at front; cases front
    | eq =>
      obtain ⟨left, right⟩ :=
        h.eq_of_between hp.1 hq.1 hr.1 tied (first _ _ hpq) (first _ _ hqr)
      rw [left] at hpq
      rw [right] at hqr
      exact h'.trans hp.2 hq.2 hr.2 hpq hqr

end LinearOn

/-! ## Values -/

/-- The comparable types other than those of floating-point numbers, with or without null. -/
structure Ty.IsLinear (t : Ty) : Prop where
  comparable : t.isComparable = true
  notSingle : t.nonNullable ≠ .single
  notDouble : t.nonNullable ≠ .double

namespace Value

/-- The value is null or one of the type. -/
def RanksIn (t : Ty) (v : Value) : Prop := v = .null ∨ v.Conforms t

/-- The number by which a value is ordered that is neither null nor text. -/
def rank? : Value → Option Int
  | .boolean b => some b.toNat
  | .int _ n => some n.val
  | .guid g => some g.bits.toNat
  | .dateTime ms => some ms.val
  | .enum _ n => some n.val
  | _ => none

variable {t : Ty} {v w : Value}

theorem RanksIn.cases (h : v.RanksIn t) : v = .null ∨ v.Conforms t.nonNullable := by
  obtain rfl | h := h
  · exact Or.inl rfl
  · cases hv : v.isNull with
    | true => exact Or.inl (isNull_iff.1 hv)
    | false => exact Or.inr (h.nonNullable hv)

theorem compare_natCast (m n : Nat) : compare (m : Int) (n : Int) = compare m n := by
  simp only [compare, compareOfLessAndEq, Int.ofNat_lt, Int.ofNat_inj]

/-- Of texts, the characters decide, and below them is null. -/
theorem compare?_texts (hv : v = .null ∨ ∃ s, v = .string s) (hw : w = .null ∨ ∃ s, w = .string s) :
    v.compare? w = some (compare v.string? w.string?) := by
  obtain rfl | ⟨s, rfl⟩ := hv <;> obtain rfl | ⟨s', rfl⟩ := hw <;> rfl

/-- Of other values of one type, the ranks decide, and below them is null. -/
theorem compare?_ranks (ht : t.IsLinear) (noText : t.nonNullable ≠ .string) (hv : v.RanksIn t)
    (hw : w.RanksIn t) : v.compare? w = some (compare v.rank? w.rank?) := by
  have comparable := ht.comparable
  have noSingle := ht.notSingle
  have noDouble := ht.notDouble
  have hv := hv.cases
  have hw := hw.cases
  unfold Ty.isComparable at comparable
  generalize t.nonNullable = u at comparable noSingle noDouble noText hv hw
  cases u with
  | boolean =>
    obtain rfl | ⟨b, rfl⟩ := hv.imp_right (·.eq_boolean) <;>
      obtain rfl | ⟨b', rfl⟩ := hw.imp_right (·.eq_boolean)
    case inr.inr => exact congrArg some (compare_natCast _ _).symm
    all_goals rfl
  | int t =>
    obtain rfl | ⟨n, rfl⟩ := hv.elim Or.inl (·.eq_int) <;>
      obtain rfl | ⟨m, rfl⟩ := hw.elim Or.inl (·.eq_int) <;> rfl
  | enum d =>
    obtain rfl | ⟨n, rfl⟩ := hv.imp_right (·.eq_enum) <;>
      obtain rfl | ⟨m, rfl⟩ := hw.imp_right (·.eq_enum) <;> rfl
  | guid =>
    obtain rfl | ⟨g, rfl⟩ := hv.imp_right (·.eq_guid) <;>
      obtain rfl | ⟨g', rfl⟩ := hw.imp_right (·.eq_guid)
    case inr.inr => exact congrArg some (compare_natCast _ _).symm
    all_goals rfl
  | dateTime =>
    obtain rfl | ⟨n, rfl⟩ := hv.imp_right (·.eq_dateTime) <;>
      obtain rfl | ⟨m, rfl⟩ := hw.imp_right (·.eq_dateTime) <;> rfl
  | single => exact absurd rfl noSingle
  | double => exact absurd rfl noDouble
  | string => exact absurd rfl noText
  | _ => cases comparable

end Value

/-! ## Keys -/

/-- **The values of a comparable type and null stand in a line**, unless they are floating-point
numbers. -/
theorem Value.compare?_linear {t : Ty} (ht : t.IsLinear) :
    LinearOn (RanksIn t) fun v w => (v.compare? w).getD .eq := by
  by_cases text : t.nonNullable = .string
  · refine .of_key Value.string? fun v w hv hw => ?_
    have hv := hv.cases
    have hw := hw.cases
    rw [text] at hv hw
    rw [compare?_texts (hv.elim Or.inl (·.eq_string)) (hw.elim Or.inl (·.eq_string))]
    rfl
  · refine .of_key Value.rank? fun v w hv hw => ?_
    rw [compare?_ranks ht text hv hw]
    rfl

/-- **The keys of a sort stand in a line**, in either direction. -/
theorem Items.compareKeys_linear {t : Ty} (ht : t.IsLinear) (descending : Bool) :
    LinearOn (Value.RanksIn t) (compareKeys descending) := by
  cases descending with
  | false => exact Value.compare?_linear ht
  | true => exact (Value.compare?_linear ht).reverse

end TypedExpr
