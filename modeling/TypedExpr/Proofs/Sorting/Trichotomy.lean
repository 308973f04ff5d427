import TypedExpr.Proofs.Operands.Inequality
import TypedExpr.Proofs.Sorting.Ranking
import TypedExpr.Proofs.Value.Equivalence

/-!
# Order and equality

The order of values and their equality are defined apart, and the operators are made from both.
On the values of a comparable type both are those of one key, a text or a number, so that they
agree: values are equal exactly if neither is below the other one.

* `Value.KeyedBy` — values that are ordered and equal as their keys are.
* `Value.keyed_texts`, `Value.keyed_ranks` — the key of each comparable type.
* **`Value.order_agrees`** — the laws of the order, of equality, and of the six operators.
-/

namespace TypedExpr

variable {format : GuidFormat}

namespace Value

variable {t : Ty} {a b c v w : Value} {κ : Type} [Ord κ]

/-! ## Keys -/

/-- On the values of a set, order and equality are those of keys, and null alone has no key. -/
structure KeyedBy (S : Value → Prop) (key : Value → Option κ) : Prop where
  compared {v w : Value} : S v → S w → v.compare? w = some (compare (key v) (key w))
  equal {v w : Value} : S v → S w → (v.equals w = true ↔ key v = key w)
  null {v : Value} : S v → (key v = none ↔ v = .null)

/-- Texts are their own keys. -/
theorem keyed_texts (text : t.nonNullable = .string) : KeyedBy (RanksIn t) string? := by
  have cases {v : Value} (hv : v.RanksIn t) : v = .null ∨ ∃ s, v = .string s := by
    have hv := hv.cases
    rw [text] at hv
    exact hv.elim Or.inl (·.eq_string)
  constructor
  · intro v w hv hw
    exact compare?_texts (cases hv) (cases hw)
  · intro v w hv hw
    obtain rfl | ⟨s, rfl⟩ := cases hv <;> obtain rfl | ⟨s', rfl⟩ := cases hw <;>
      simp [equals, string?]
  · intro v hv
    obtain rfl | ⟨s, rfl⟩ := cases hv <;> simp [string?]

/-- A value of a comparable type shows this type. -/
theorem RanksIn.ty_eq (ht : t.IsLinear) (hv : v.RanksIn t) (proper : v ≠ .null) :
    v.ty = t.nonNullable := by
  have comparable := ht.comparable
  unfold Ty.isComparable at comparable
  have conforms := hv.cases.resolve_left proper
  generalize t.nonNullable = u at comparable conforms
  cases conforms with
  | null | lost => exact absurd rfl proper
  | object | sequence | groupingItems | grouping | nullable | typed | untyped => cases comparable
  | _ => rfl

/-- A value has a rank if it is of a comparable type other than texts and floating-point
numbers. -/
theorem rank?_isSome (ht : t.IsLinear) (noText : t.nonNullable ≠ .string)
    (shown : v.ty = t.nonNullable) : v.rank?.isSome = true := by
  have comparable := ht.comparable
  have noSingle := ht.notSingle
  have noDouble := ht.notDouble
  unfold Ty.isComparable at comparable
  rw [← shown] at comparable noSingle noDouble noText
  cases v with
  | null | object | sequence | grouping => cases comparable
  | single => exact absurd rfl noSingle
  | double => exact absurd rfl noDouble
  | string => exact absurd rfl noText
  | _ => rfl

/-- What has a rank has no identity and is no floating-point number. -/
theorem plain_of_rank?_isSome (h : v.rank?.isSome = true) :
    v.isPlain = true ∧ v.isFloat = false := by
  cases v with
  | null | single | double | string | object | sequence | grouping => cases h
  | _ => exact ⟨rfl, rfl⟩

/-- Values of one type that have one rank are the same. -/
theorem eq_of_rank?_eq (shown : v.ty = w.ty) (ranked : v.rank?.isSome = true)
    (h : v.rank? = w.rank?) : v = w := by
  cases v with
  | null | single | double | string | object | sequence | grouping => cases ranked
  | boolean p =>
    cases w with
    | boolean q => cases p <;> cases q <;> first | rfl | cases h
    | _ => cases shown
  | int t m =>
    cases w with
    | int u n =>
      cases shown
      rw [Word.ext (Option.some.inj h)]
    | _ => cases shown
  | enum d m =>
    cases w with
    | enum e n =>
      cases shown
      rw [Word.ext (Option.some.inj h)]
    | _ => cases shown
  | dateTime m =>
    cases w with
    | dateTime n => rw [Word.ext (Option.some.inj h)]
    | _ => cases shown
  | guid g =>
    cases w with
    | guid g' =>
      have bits := BitVec.eq_of_toNat_eq (Int.ofNat_inj.1 (Option.some.inj h))
      cases g
      cases g'
      exact congrArg (fun b => Value.guid ⟨b⟩) bits
    | _ => cases shown

/-- Other values of a comparable type have their rank as a key. -/
theorem keyed_ranks (ht : t.IsLinear) (noText : t.nonNullable ≠ .string) :
    KeyedBy (RanksIn t) rank? := by
  have ranked {v : Value} (hv : v.RanksIn t) (proper : v ≠ .null) : v.rank?.isSome = true :=
    rank?_isSome ht noText (hv.ty_eq ht proper)
  have null {v : Value} (hv : v.RanksIn t) : v.rank? = none ↔ v = .null := by
    constructor
    · intro h
      by_contra proper
      have some := ranked hv proper
      rw [h] at some
      cases some
    · rintro rfl
      rfl
  constructor
  · exact compare?_ranks ht noText
  · intro v w hv hw
    by_cases proper : v = .null
    · subst proper
      constructor
      · intro equal
        rw [← eq_of_equals rfl rfl equal]
      · intro same
        rw [(null hw).1 same.symm]
        rfl
    · obtain ⟨plain, noFloat⟩ := plain_of_rank?_isSome (ranked hv proper)
      constructor
      · intro equal
        rw [eq_of_equals plain noFloat equal]
      · intro same
        have proper' : w ≠ .null := fun h => proper ((null hv).1 (same.trans ((null hw).2 h)))
        have shown := (hv.ty_eq ht proper).trans (hw.ty_eq ht proper').symm
        rw [← eq_of_rank?_eq shown (ranked hv proper) same]
        exact equals_self noFloat
  · exact null

/-- **The values of each comparable type have keys**, unless they are floating-point numbers. -/
theorem exists_keyed (ht : t.IsLinear) :
    ∃ (κ : Type) (_ : Ord κ) (_ : Std.TransOrd κ) (_ : Std.LawfulEqOrd κ) (key : Value → Option κ),
      KeyedBy (RanksIn t) key := by
  by_cases text : t.nonNullable = .string
  · exact ⟨String, inferInstance, inferInstance, inferInstance, _, keyed_texts text⟩
  · exact ⟨Int, inferInstance, inferInstance, inferInstance, _, keyed_ranks ht text⟩

/-! ## The laws of keys -/

section Keyed

variable [Std.LawfulEqOrd κ] {S : Value → Prop} {key : Value → Option κ}
  {o o' : Ordering}

/-- Values are tied in the order exactly if they are equal. -/
theorem KeyedBy.eq_iff (keyed : KeyedBy S key) (ha : S a) (hb : S b) (h : a.compare? b = some o) :
    o = .eq ↔ a.equals b = true := by
  cases h.symm.trans (keyed.compared ha hb)
  rw [keyed.equal ha hb, Std.LawfulEqCmp.compare_eq_iff_eq]

/-- Of two steps upwards, the first one that is not a tie decides. -/
theorem KeyedBy.trans [Std.TransOrd κ] (keyed : KeyedBy S key) (ha : S a) (hb : S b) (hc : S c)
    (h : a.compare? b = some o) (h' : b.compare? c = some o') (le : o.isLE = true)
    (le' : o'.isLE = true) : a.compare? c = some (o.then o') := by
  cases h.symm.trans (keyed.compared ha hb)
  cases h'.symm.trans (keyed.compared hb hc)
  rw [keyed.compared ha hc]
  cases first : compare (key a) (key b) with
  | lt => exact congrArg some (Std.TransCmp.lt_of_lt_of_isLE first le')
  | eq => rw [Std.LawfulEqCmp.eq_of_compare first]; rfl
  | gt =>
    rw [first] at le
    cases le

end Keyed

/-- Of values other than null, the operators hold that accept their order. -/
theorem compareBy_eq_accepts {o : Ordering} (h : a.compare? b = some o)
    (tied : o = .eq ↔ a.equals b = true) (ha : a.isNull = false) (hb : b.isNull = false)
    (op : CompareOp) : a.compareBy (.compare op) b = op.accepts o := by
  have equal : a.equals b = (o == .eq) := by
    rw [Bool.eq_iff_iff, ← tied, beq_iff_eq]
  cases op with
  | eq => exact equal
  | ne => exact congrArg not equal
  | lt | le | gt | ge =>
    show (!a.isNull && !b.isNull && ((a.compare? b).map _).getD false) = _
    rw [ha, hb, h]
    rfl

/-- An ordering is accepted by exactly one of three operators. -/
theorem accepts_unique (o : Ordering) :
    ∃! op, op ∈ [CompareOp.lt, .eq, .gt] ∧ op.accepts o = true := by
  cases o with
  | lt => exact ⟨.lt, by decide, fun op h => by cases op <;> revert h <;> decide⟩
  | eq => exact ⟨.eq, by decide, fun op h => by cases op <;> revert h <;> decide⟩
  | gt => exact ⟨.gt, by decide, fun op h => by cases op <;> revert h <;> decide⟩

end Value

/-! ## Trees -/

namespace Binding

variable {s : Schema} {t : Ty} {x y : Expr}

/-- Operands of one comparable type are compared as they are. -/
theorem comparison_of_comparable (ht : t.isComparable = true) (hx : x.ty = t) (hy : y.ty = t)
    (op : CompareOp) (offset : Nat) :
    comparison s op x y offset = .ok (.binary (.compare op) x y .boolean) := by
  have undeclared : s.findComparison? x.ty y.ty = none := by
    rw [hx, hy]
    cases t with
    | record => cases ht
    | _ => rfl
  rw [comparison_eq_ok_iff undeclared]
  exact ⟨x, y, if_pos (hx.trans hy.symm), by rw [hx, ht, Bool.or_true], rfl⟩

/-- A comparison of two operands that have values in a run has the truth value for these. -/
theorem evaluate_compare_values {op : CompareOp} {frames : List Value} {st st' : Store}
    {a b : Value} (run : x.evaluateBoth y frames st = (.ok (a, b), st')) :
    (Expr.binary (.compare op) x y .boolean).evaluate frames st =
      (.ok (.boolean (a.compareBy (.compare op) b)), st') := by
  rw [evaluate_compare]
  exact bind_lift_eq_ok.2 ⟨(a, b), run, rfl⟩

end Binding

/-! ## Order and equality -/

namespace Value

variable {t : Ty} {a b c : Value}

/-- **Order and equality of values agree.**  Any two values of a comparable type are ordered, unless
they are floating-point numbers; the order turns around with the values, it is transitive, where
the first step that is no tie decides, null lies below every other value, and values are tied
exactly if they are equal.  Of two values other than null exactly one of `<`, `=` and `>` holds, and
`<=` and `>=` hold if one of two does.  Operands of the type are compared as they are, so that this
is what the operators between them evaluate to. -/
theorem order_agrees [GuidFormat] (ht : t.IsLinear) (ha : a.Conforms t) (hb : b.Conforms t)
    (hc : c.Conforms t) :
    (∃ o, a.compare? b = some o ∧ b.compare? a = some o.swap ∧
      (o = .eq ↔ a.equals b = true)) ∧
    (∀ o o', a.compare? b = some o → b.compare? c = some o' → o.isLE = true → o'.isLE = true →
      a.compare? c = some (o.then o')) ∧
    (a ≠ .null → Value.null.compare? a = some .lt) ∧
    (a ≠ .null → b ≠ .null →
      (∃! op, op ∈ [CompareOp.lt, .eq, .gt] ∧ a.compareBy (.compare op) b = true) ∧
      a.compareBy (.compare .le) b =
        (a.compareBy (.compare .lt) b || a.compareBy (.compare .eq) b) ∧
      a.compareBy (.compare .ge) b =
        (a.compareBy (.compare .gt) b || a.compareBy (.compare .eq) b)) ∧
    ∀ (s : Schema) (x y : Expr) (frames : List Value) (st st' : Store), x.ty = t → y.ty = t →
      x.evaluateBoth y frames st = (.ok (a, b), st') → ∀ op offset,
      ∃ e, Binding.comparison s op x y offset = .ok e ∧
        e.evaluate frames st = (.ok (.boolean (a.compareBy (.compare op) b)), st') := by
  obtain ⟨κ, _, _, _, key, keyed⟩ := exists_keyed ht
  have ha : a.RanksIn t := Or.inr ha
  have hb : b.RanksIn t := Or.inr hb
  have hc : c.RanksIn t := Or.inr hc
  have ordered := keyed.compared ha hb
  have tied := keyed.eq_iff ha hb ordered
  refine ⟨⟨_, ordered, ?_, tied⟩, ?_, ?_, ?_, ?_⟩
  · rw [compare?_swap a b, ordered]
    rfl
  · intro o o' h h' le le'
    exact keyed.trans ha hb hc h h' le le'
  · intro proper
    cases a with
    | null => exact absurd rfl proper
    | _ => rfl
  · intro properA properB
    have operators := compareBy_eq_accepts ordered tied (by simpa [← isNull_iff] using properA)
      (by simpa [← isNull_iff] using properB)
    simp only [operators]
    refine ⟨accepts_unique _, ?_⟩
    cases compare (key a) (key b) <;> decide
  · intro s x y frames st st' hx hy run op offset
    exact ⟨_, Binding.comparison_of_comparable ht.comparable hx hy op offset,
      Binding.evaluate_compare_values run⟩

/-- Null, and two numbers of 64 bits that no double tells apart. -/
theorem order_agrees_large :
    let t : Ty := .nullable (.int .int64)
    let a : Value := .int .int64 (Word.wrap .int64 9007199254740992)
    let b : Value := .int .int64 (Word.wrap .int64 9007199254740993)
    t.IsLinear ∧ Value.null.Conforms t ∧ a.Conforms t ∧ b.Conforms t ∧
      Value.null.compare? b = some .lt ∧ a.equals b = false ∧
      ∃! op, op ∈ [CompareOp.lt, .eq, .gt] ∧ a.compareBy (.compare op) b = true := by
  intro t a b
  have linear : t.IsLinear := ⟨rfl, by decide, by decide⟩
  have null : Value.null.Conforms t := .null rfl
  have first : a.Conforms t := .nullable (.int .int64 _)
  have second : b.Conforms t := .nullable (.int .int64 _)
  refine ⟨linear, null, first, second, ?_, by decide, ?_⟩
  · exact (order_agrees linear null first second).2.1 .lt .lt rfl (by decide) rfl rfl
  · exact ((order_agrees linear first second null).2.2.2.1 nofun nofun).1

end Value

end TypedExpr
