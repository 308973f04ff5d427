import TypedExpr.Expr.Evaluate
import TypedExpr.Proofs.Typing.Judgement

/-!
# Operators on values of their types

On operands of the types that an operator takes, it gives a value of its type; at most a division
by zero fails.

* `Value.ConformsIn.meets_arithmetic`, `Value.ConformsIn.meets_bitwise`,
  `Value.ConformsIn.meets_shift`, `Value.ConformsIn.meets_unary` — the operators.
* `Value.ConformsIn.meets_itemAt`, `Value.ConformsIn.meets_field`,
  `Value.ConformsIn.meets_property` — access to the parts of a value.
-/

namespace TypedExpr

/-- The operators that divide. -/
def ArithmeticOp.divides : ArithmeticOp → Bool
  | .div | .rem => true
  | _ => false

namespace Value

variable {loose lax : Prop} {a b v : Value} {t u : Ty}

/-! ## Operators -/

@[simp] theorem combine_null_left (op : BinaryOp) (b : Value) : combine op .null b = .ok .null :=
  rfl

@[simp] theorem combine_null_right (op : BinaryOp) (a : Value) :
    combine op a .null = .ok .null := by
  cases a <;> rfl

/-- The only thing that arithmetic on words refuses is to divide by zero. -/
theorem meets_onWords {w : IntType} (op : ArithmeticOp) (m n : Word w) :
    Meets (op.onWords m n) (fun _ => True) (fun e => op.divides = true ∧ e = .divisionByZero) := by
  cases op with
  | add | sub | mul => exact meets_ok.2 trivial
  | div | rem =>
    simp only [ArithmeticOp.onWords]
    split
    · exact meets_error.2 ⟨rfl, rfl⟩
    · exact meets_ok.2 trivial

/-- An integer type has no values but integers, null aside. -/
theorem ConformsIn.eq_word {w : IntType} (h : v.ConformsIn loose lax t) (hv : v.isNull = false)
    (ht : t.nonNullable = .int w) : ∃ n, v = .int w n := by
  have h := h.nonNullable hv
  rw [ht] at h
  rcases h.eq_int with rfl | hn
  · cases hv
  · exact hn

/-- A null operand makes the result null, which its type has then. -/
theorem ConformsIn.meets_combine {op : BinaryOp} {E : EvalError → Prop}
    (ha : a.ConformsIn loose lax t) (hb : b.ConformsIn loose lax t)
    (plain : a.ConformsIn loose lax t.nonNullable → b.ConformsIn loose lax t.nonNullable →
      a ≠ .null → b ≠ .null → Meets (combine op a b) (·.ConformsIn loose lax t.nonNullable) E) :
    Meets (combine op a b) (·.ConformsIn loose lax t) E := by
  by_cases ha' : a = .null
  · rw [ha', combine_null_left]
    exact meets_ok.2 (ha' ▸ ha)
  · by_cases hb' : b = .null
    · rw [hb', combine_null_right]
      exact meets_ok.2 (hb' ▸ hb)
    · have notNull {v : Value} (hv : v ≠ .null) : v.isNull = false := by
        simpa [← isNull_iff] using hv
      have h := plain (ha.nonNullable (notNull ha')) (hb.nonNullable (notNull hb')) ha' hb'
      exact h.mono (fun _ => ConformsIn.of_nonNullable) fun _ => id

theorem ConformsIn.meets_arithmetic (op : ArithmeticOp) (ha : a.ConformsIn loose lax t)
    (hb : b.ConformsIn loose lax t) (ht : t.nonNullable.isArithmetic = true) :
    Meets (combine (.arithmetic op) a b) (·.ConformsIn loose lax t)
      (fun e => op.divides = true ∧ e = .divisionByZero) := by
  refine ha.meets_combine hb fun ha hb ha' hb' => ?_
  generalize t.nonNullable = u at ha hb ht ⊢
  cases u with
  | int w =>
    rcases ha.eq_int with rfl | ⟨m, rfl⟩
    · exact absurd rfl ha'
    rcases hb.eq_int with rfl | ⟨n, rfl⟩
    · exact absurd rfl hb'
    simp only [combine, ↓reduceDIte]
    exact Meets.map ((meets_onWords op m n).mono (fun r _ => .int w r) fun _ => id)
  | single =>
    obtain ⟨x, rfl⟩ := ha.eq_single
    obtain ⟨y, rfl⟩ := hb.eq_single
    exact meets_ok.2 (.single _)
  | double =>
    obtain ⟨x, rfl⟩ := ha.eq_double
    obtain ⟨y, rfl⟩ := hb.eq_double
    exact meets_ok.2 (.double _)
  | _ => cases ht

theorem ConformsIn.meets_bitwise (op : BitwiseOp) (ha : a.ConformsIn loose lax t)
    (hb : b.ConformsIn loose lax t) (ht : t.nonNullable.isBitwise = true) :
    Meets (combine (.bitwise op) a b) (·.ConformsIn loose lax t) (fun _ => False) := by
  refine ha.meets_combine hb fun ha hb ha' hb' => ?_
  generalize t.nonNullable = u at ha hb ht ⊢
  cases u with
  | int w =>
    rcases ha.eq_int with rfl | ⟨m, rfl⟩
    · exact absurd rfl ha'
    rcases hb.eq_int with rfl | ⟨n, rfl⟩
    · exact absurd rfl hb'
    simp only [combine, ↓reduceDIte]
    exact meets_ok.2 (.int w _)
  | boolean =>
    obtain ⟨x, rfl⟩ := ha.eq_boolean
    obtain ⟨y, rfl⟩ := hb.eq_boolean
    exact meets_ok.2 (.boolean _)
  | enum d =>
    obtain ⟨x, rfl⟩ := ha.eq_enum
    obtain ⟨y, rfl⟩ := hb.eq_enum
    simp only [combine, ↓reduceIte]
    exact meets_ok.2 (.enum d _)
  | _ => cases ht

/-- The values of `int32` are values of `int64`. -/
theorem int64?_int32 (n : Word .int32) : ∃ m, (Value.int .int32 n).int64? = some m := by
  have lo : IntType.int64.min ≤ n.val := by
    have h := n.min_le
    simp only [IntType.min] at h ⊢
    omega
  have hi : n.val ≤ IntType.int64.max := by
    have h := n.le_max
    simp only [IntType.max] at h ⊢
    omega
  exact ⟨⟨n.val, lo, hi⟩, Word.fit?_eq_some_iff.2 rfl⟩

/-- A shift by null is null, which its type may not have. -/
theorem ConformsIn.meets_shift (op : ShiftOp) (ha : a.ConformsIn loose lax t)
    (hb : b.ConformsIn loose lax u) (ht : t.nonNullable.isShiftable = true)
    (hu : u.nonNullable = .int .int32) (hn : b.isNull = true → t.isNullable = true ∨ lax) :
    Meets (a.shift (.shift op) b) (·.ConformsIn loose lax t) (·.isStuck = false) := by
  by_cases ha' : a.isNull = true
  · rw [isNull_iff.1 ha'] at ha ⊢
    exact meets_ok.2 ha
  have shiftable : ∃ w : IntType, t.nonNullable = .int w ∧ w.promoted = w := by
    cases hw : t.nonNullable with
    | int w => exact ⟨w, rfl, by simpa [hw, Ty.isShiftable] using ht⟩
    | _ => rw [hw] at ht; cases ht
  obtain ⟨w, hw, wide⟩ := shiftable
  by_cases hb' : b.isNull = true
  · have lost : Value.null.ConformsIn loose lax t := by
      rcases hn hb' with hn | may
      · cases t with
        | nullable t => exact .null rfl
        | _ => cases hn
      · refine .of_nonNullable ?_
        rw [hw]
        exact .lost wide may
    unfold shift
    rw [hb', Bool.or_true, if_pos rfl]
    exact meets_ok.2 lost
  obtain ⟨m, rfl⟩ := ha.eq_word (by simpa using ha') hw
  obtain ⟨n, rfl⟩ := hb.eq_word (by simpa using hb') hu
  obtain ⟨k, hk⟩ := int64?_int32 n
  have shifted (r : Word w) : (Value.int w r).ConformsIn loose lax t :=
    .of_nonNullable (hw ▸ .int w r)
  unfold shift
  rw [if_neg (by simp [isNull]), hk]
  simp only [wide, ↓reduceIte]
  exact meets_ok.2 (shifted _)

theorem ConformsIn.meets_unary (op : UnaryOp) (h : v.ConformsIn loose lax t)
    (ht : op.takes t.nonNullable = true) :
    Meets (applyUnary op v) (·.ConformsIn loose lax t) (·.isStuck = false) := by
  by_cases hv : v.isNull = true
  · rw [isNull_iff.1 hv] at h ⊢
    cases op <;> exact meets_ok.2 h
  have h := h.nonNullable (by simpa using hv)
  refine Meets.mono (Q := (·.ConformsIn loose lax t.nonNullable)) ?_
    (fun _ => ConformsIn.of_nonNullable) fun _ => id
  generalize t.nonNullable = u at h ht ⊢
  cases u with
  | int w =>
    rcases h.eq_int with rfl | ⟨n, rfl⟩
    · exact absurd rfl hv
    cases op <;> cases w <;> first | exact meets_ok.2 (.int _ _) | cases ht
  | boolean =>
    obtain ⟨b, rfl⟩ := h.eq_boolean
    cases op with
    | not => exact meets_ok.2 (.boolean _)
    | negate => cases ht
  | single =>
    obtain ⟨x, rfl⟩ := h.eq_single
    cases op with
    | not => cases ht
    | negate => exact meets_ok.2 (.single _)
  | double =>
    obtain ⟨x, rfl⟩ := h.eq_double
    cases op with
    | not => cases ht
    | negate => exact meets_ok.2 (.double _)
  | _ => cases op <;> cases ht

/-! ## Parts of a value -/

theorem ConformsIn.meets_truth (h : v.ConformsIn loose lax .boolean) :
    Meets (Items.truth v) (fun _ => True) (·.isStuck = false) := by
  obtain ⟨b, rfl⟩ := h.eq_boolean
  exact meets_ok.2 trivial

theorem ConformsIn.meets_itemsFor (m : SequenceMethod) (h : v.ConformsIn loose lax t)
    (element : t.element? = some u) :
    Meets (v.itemsFor m) (fun items => ∀ w ∈ items, w.ConformsIn loose lax u)
      (·.isStuck = false) := by
  rcases h.items element with rfl | ⟨items, listed, each⟩
  · exact meets_error.2 rfl
  · unfold itemsFor
    rw [listed]
    exact meets_ok.2 each

theorem ConformsIn.meets_itemAt {p : Value} (h : v.ConformsIn loose lax t)
    (indexed : (t = .string ∧ u = .string) ∨ t.element? = some u) :
    Meets (v.itemAt p) (·.ConformsIn loose lax u) (·.isStuck = false) := by
  rcases indexed with ⟨rfl, rfl⟩ | element
  · rcases h.eq_string with rfl | ⟨s, rfl⟩
    · exact meets_error.2 rfl
    · simp only [itemAt]
      split
      · exact meets_ok.2 (.string _)
      · exact meets_error.2 rfl
  · rcases h.items element with rfl | ⟨items, listed, each⟩
    · exact meets_error.2 rfl
    · have item : ∀ i : Nat, ∀ w, items[i]? = some w → w.ConformsIn loose lax u :=
        fun i w hw => each w (List.mem_of_getElem? hw)
      cases v with
      | sequence | grouping =>
        cases listed
        simp only [itemAt, items?, Option.getD_some]
        split
        next w hw =>
          split at hw
          · cases hw
          · exact meets_ok.2 (item _ _ hw)
        next => exact meets_error.2 rfl
      | _ => cases listed

theorem ConformsIn.meets_field {m : Member} {i : Nat} (h : v.ConformsIn loose lax t)
    (hm : m ∈ MemberTable.membersOf t) (hk : m.kind = .field i) :
    Meets (v.fieldAt t m.name i) (·.ConformsIn loose lax m.ty) (·.isStuck = false) := by
  cases t with
  | record d =>
    obtain ⟨j, hj, rfl⟩ := List.mem_mapIdx.1 hm
    cases hk
    rcases h.eq_object with rfl | ⟨id, fields, rfl, size, each⟩
    · exact meets_error.2 rfl
    · have hf : fields[i]? = some fields[i] := List.getElem?_eq_getElem (size ▸ hj)
      simp only [fieldAt, hf]
      exact meets_ok.2 (each i _ _ hf (List.getElem?_eq_getElem hj))
  | enum d =>
    obtain ⟨c, -, rfl⟩ := List.mem_map.1 hm
    cases hk
  | string | grouping =>
    rw [List.mem_singleton.1 hm] at hk
    cases hk
  | nullable t =>
    rcases List.mem_cons.1 hm with rfl | hm
    · cases hk
    · rw [List.mem_singleton.1 hm] at hk
      cases hk
  | _ => cases hm

theorem ConformsIn.meets_property {m : Member} {p : Property} (h : v.ConformsIn loose lax t)
    (hn : v.isNull = true → t.isNullable = true) (hm : m ∈ MemberTable.membersOf t)
    (hk : m.kind = .property p) :
    Meets (p.read v) (·.ConformsIn loose lax m.ty) (·.isStuck = false) := by
  cases t with
  | record d =>
    obtain ⟨j, hj, rfl⟩ := List.mem_mapIdx.1 hm
    cases hk
  | enum d =>
    obtain ⟨c, -, rfl⟩ := List.mem_map.1 hm
    cases hk
  | string =>
    obtain rfl := List.mem_singleton.1 hm
    cases hk
    rcases h.eq_string with rfl | ⟨s, rfl⟩
    · exact meets_error.2 rfl
    · exact meets_ok.2 (.int _ _)
  | nullable t =>
    rcases List.mem_cons.1 hm with rfl | hm
    · cases hk
      exact meets_ok.2 (.boolean _)
    · obtain rfl := List.mem_singleton.1 hm
      cases hk
      simp only [Property.read]
      split
      · exact meets_error.2 rfl
      next hv => exact meets_ok.2 (h.nonNullable (by simpa using hv))
  | grouping key t =>
    obtain rfl := List.mem_singleton.1 hm
    cases hk
    rcases h.eq_grouping with rfl | ⟨id, k, items, rfl, ofKey, -⟩
    · cases hn rfl
    · exact meets_ok.2 ofKey
  | _ => cases hm

end Value

end TypedExpr
