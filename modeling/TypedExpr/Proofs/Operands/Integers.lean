import Mathlib.Data.List.Find
import TypedExpr.Proofs.Operands.Mirrored

/-!
# Comparisons of integers

Two integers of any types can be compared.  Where one of the operands adapts to the other one, or
some integral type has the integers of both types, they are compared as integers.  There is no such
type for `uint64` and a signed type: operands of these are rounded to singles first.

* `IntType.Compatible` — some type has the integers of two types.
* `Binding.commonTy?_integers` — the type that integers of two types meet in.
* **`Binding.comparison_integers`** — what a comparison of two integers gives.
* `Binding.different_are_equal` — two different integers that are equal as singles.
-/

namespace TypedExpr

/-! ## Ranges -/

namespace IntType

variable {t u w : IntType}

/-- The integers of the first type are integers of the second one. -/
def Within (t w : IntType) : Prop := w.min ≤ t.min ∧ t.max ≤ w.max

instance (t w : IntType) : Decidable (t.Within w) :=
  inferInstanceAs (Decidable (w.min ≤ t.min ∧ t.max ≤ w.max))

theorem Within.refl (t : IntType) : t.Within t := ⟨Int.le_refl _, Int.le_refl _⟩

theorem Within.trans (h : t.Within u) (h' : u.Within w) : t.Within w :=
  ⟨Int.le_trans h'.1 h.1, Int.le_trans h.2 h'.2⟩

theorem Within.mem (h : t.Within w) (m : Word t) : w.min ≤ m.val ∧ m.val ≤ w.max :=
  ⟨Int.le_trans h.1 m.min_le, Int.le_trans m.le_max h.2⟩

theorem within_promoted (t : IntType) : t.Within t.promoted := by
  cases t <;> decide

/-- Some type has the integers of both types. -/
def Compatible (t u : IntType) : Prop := ∃ w : IntType, t.Within w ∧ u.Within w

theorem Within.compatible (h : t.Within u) : t.Compatible u := ⟨u, h, .refl u⟩

theorem Within.compatible' (h : u.Within t) : t.Compatible u := ⟨t, .refl t, h⟩

end IntType

/-- Comparisons of integers. -/
def CompareOp.Holds : CompareOp → Int → Int → Prop
  | eq, m, n => m = n
  | ne, m, n => m ≠ n
  | lt, m, n => m < n
  | le, m, n => m ≤ n
  | gt, m, n => m > n
  | ge, m, n => m ≥ n

instance : ∀ (op : CompareOp) (m n : Int), Decidable (op.Holds m n)
  | .eq, m, n => inferInstanceAs (Decidable (m = n))
  | .ne, m, n => inferInstanceAs (Decidable (m ≠ n))
  | .lt, m, n => inferInstanceAs (Decidable (m < n))
  | .le, m, n => inferInstanceAs (Decidable (m ≤ n))
  | .gt, m, n => inferInstanceAs (Decidable (m > n))
  | .ge, m, n => inferInstanceAs (Decidable (m ≥ n))

theorem CompareOp.accepts_compare (op : CompareOp) (m n : Int) :
    op.accepts (compare m n) = decide (op.Holds m n) := by
  rw [Bool.eq_iff_iff, decide_eq_true_iff]
  cases order : compare m n with
  | lt =>
    have lt := Int.compare_eq_lt.1 order
    cases op <;> simp [accepts, Holds] <;> omega
  | eq =>
    have eq := Int.compare_eq_eq.1 order
    cases op <;> simp [accepts, Holds] <;> omega
  | gt =>
    have gt := Int.compare_eq_gt.1 order
    cases op <;> simp [accepts, Holds] <;> omega

namespace Value

variable {format : GuidFormat} {t w : IntType} {a : Ty}

/-- Integers of one type are compared as integers. -/
theorem compareBy_int (op : CompareOp) (m n : Word t) :
    compareBy (.compare op) (.int t m) (.int t n) = decide (op.Holds m.val n.val) := by
  have same : (m.val == n.val) = (compare m.val n.val == .eq) := by
    rw [Bool.eq_iff_iff, beq_iff_eq, beq_iff_eq, Int.compare_eq_eq]
  rw [← CompareOp.accepts_compare]
  cases op with
  | eq => simp [compareBy, equals, CompareOp.accepts, same]
  | ne => simp [compareBy, equals, CompareOp.accepts, same, bne]
  | _ => rfl

/-- An integer in another integral type. -/
theorem viewAs_int {a b : Ty} (ha : a.nonNullable = .int t) (hb : b.nonNullable = .int w)
    (m : Word t) : (Value.int t m).viewAs a b = .ok (.int w (Word.wrap w m.val)) := by
  unfold viewAs
  split
  next same =>
    rw [same, hb] at ha
    cases ha
    rw [Word.wrap_val]
  next =>
    show (Value.int t m).castPlain b.nonNullable = _
    rw [hb]
    rfl

/-- The single next to the double next to an integer. -/
def rounded (n : Int) : Value := .single (Binary.toSingle (Binary.doubleOfInt n))

/-- An integer as a real number. -/
theorem viewAs_single {a b : Ty} (ha : a.nonNullable = .int t) (hb : b.nonNullable = .single)
    (m : Word t) : (Value.int t m).viewAs a b = .ok (rounded m.val) := by
  have differ : a ≠ b := by
    intro same
    rw [same, hb] at ha
    cases ha
  unfold viewAs
  rw [if_neg differ]
  show (Value.int t m).castPlain b.nonNullable = _
  rw [hb]
  rfl

/-- An integer adapts to a type only if the type has it. -/
theorem mem_of_coerce?_int {b : Ty} {v : Value} {m : Word t} (hb : b.nonNullable = .int w)
    (h : (Value.int t m).coerce? b = some v) : w.min ≤ m.val ∧ m.val ≤ w.max := by
  have number : (Value.int t m).coerce? b = (Value.int t m).fitNumeric? (.int w) := by
    unfold coerce?
    rw [hb]
    rfl
  obtain ⟨a, same, -⟩ := fitNumeric?_int_eq_some_iff.1 (number.symm.trans h)
  have same : m.val = a.val := Number.integer.inj (Option.some.inj same)
  rw [same]
  exact ⟨a.min_le, a.le_max⟩

end Value

/-! ## Conversions -/

namespace Ty

variable {a k : Ty} {t u w : IntType} {nullable : Bool}

theorem wideningCost?_int : ((Ty.int t).wideningCost? (.int w)).isSome = true ↔ t.Within w := by
  cases t <;> cases w <;> decide

theorem wideningCost?_single (t : IntType) : ((Ty.int t).wideningCost? .single).isSome = true := by
  cases t <;> rfl

/-- An integral type is one itself, or adds null to one. -/
theorem eq_lift_of_int (ha : a.nonNullable = .int t) : a = (Ty.int t).lift a.isNullable := by
  cases a with
  | nullable b =>
    cases ha
    rfl
  | _ => exact ha

theorem ne_null_of_int (ha : a.nonNullable = .int t) : a ≠ .null := by
  rintro rfl
  cases ha

@[simp] theorem nonNullable_lift_int (t : IntType) (nullable : Bool) :
    ((Ty.int t).lift nullable).nonNullable = .int t := by
  cases nullable <;> rfl

/-- The conversion of an integer to a numeric type is the widening, if there is one. -/
theorem implicit?_integer (hk : k.isNumeric = true) :
    (Ty.int t).implicit? k = ((Ty.int t).wideningCost? k).map fun cost =>
      ⟨if Ty.int t = k then .identity else .numericWidening, cost⟩ := by
  have plain : k.isNullable = false := by
    cases k with
    | nullable b => cases hk
    | _ => rfl
  rw [implicit?_plain plain]
  by_cases same : Ty.int t = k
  · simp only [wideningCost?, same, hk, and_self, if_true, Option.map_some]
  · simp only [if_neg same, if_neg (show Ty.int t ≠ .null from nofun)]
    have widened : (Ty.int t).implicitPlain? k = (Ty.int t).widened? k := by
      cases k <;> rfl
    rw [widened, widened?]
    cases (Ty.int t).wideningCost? k with
    | some cost => rfl
    | none =>
      refine if_neg ?_
      rintro rfl
      cases hk

/-- Where null is added to the target, the conversion is still the widening. -/
theorem implicit?_integer_nullable (ha : a.nonNullable = .int t) (hk : k.isNumeric = true) :
    a.implicit? (.nullable k) = ((Ty.int t).wideningCost? k).map fun cost =>
      if a = .nullable k then ⟨.identity, 0⟩ else ⟨.nullableWrap, cost + 1⟩ := by
  unfold implicit?
  by_cases same : a = .nullable k
  · subst same
    cases ha
    simp only [if_true, wideningCost?, hk, and_self, Option.map_some]
  · simp only [if_neg same]
    cases a with
    | nullable b =>
      cases ha
      simp only [implicit?_integer hk, if_neg (fun h => same (congrArg Ty.nullable h))]
      cases (Ty.int t).wideningCost? k <;> rfl
    | int t' =>
      cases ha
      simp only [implicit?_integer hk]
      cases (Ty.int t).wideningCost? k with
      | none => rfl
      | some cost =>
        show wrapNull true _ = _
        split <;> rfl
    | _ => cases ha

end Ty

namespace Schema

variable {s : Schema} {a k : Ty} {t w : IntType} {nullable : Bool}

/-- To a type that is no record, there are only built-in conversions. -/
theorem operandConversion?_of_implicit? {o : Option Nat} {convert : Nat → ImplicitConversion}
    (record : ∀ d, k ≠ .record d) (h : a.implicit? k = o.map convert)
    (value : ∀ cost, (convert cost).kind ≠ .toObject) :
    (s.operandConversion? a k).isSome = o.isSome := by
  have built : s.implicit? a k = o.map convert := by
    cases k with
    | record d => exact absurd rfl (record d)
    | _ => exact (congrArg (Option.or · none) h).trans Option.or_none
  rw [operandConversion?, built]
  cases o with
  | none => rfl
  | some cost =>
    show Option.isSome (if _ then _ else _) = _
    rw [if_pos (bne_iff_ne.2 (value cost))]
    rfl

/-- An integer converts to the numeric types that it widens to.  If it may be null, null is added to
these. -/
theorem operandConversion?_integer (ha : a.nonNullable = .int t) (hk : k.isNumeric = true) :
    (s.operandConversion? a (k.lift nullable)).isSome = true ↔
      (a.isNullable = true → nullable = true) ∧ ((Ty.int t).wideningCost? k).isSome = true := by
  cases nullable with
  | true =>
    have lifted : k.lift true = .nullable k := by
      cases k with
      | int w | single | double => rfl
      | _ => cases hk
    have record (d : RecordDef) : Ty.nullable k ≠ .record d := nofun
    rw [lifted, operandConversion?_of_implicit? record (Ty.implicit?_integer_nullable ha hk)]
    · simp
    · intro cost
      split <;> exact nofun
  | false =>
    have record (d : RecordDef) : k ≠ .record d := by
      rintro rfl
      cases hk
    show (s.operandConversion? a k).isSome = true ↔ _
    cases a with
    | nullable b =>
      have refused : (Ty.nullable b).implicit? k = none.map fun _ : Nat => ⟨.identity, 0⟩ := by
        cases k with
        | int w | single | double => rfl
        | _ => cases hk
      rw [operandConversion?_of_implicit? record refused fun _ => nofun]
      simp [Ty.isNullable]
    | int t' =>
      cases ha
      rw [operandConversion?_of_implicit? record (Ty.implicit?_integer hk)]
      · simp [Ty.isNullable]
      · intro cost
        show (if _ then _ else _) ≠ _
        split <;> exact nofun
    | _ => cases ha

/-- An integer converts to integral types only that have it. -/
theorem within_of_operandConversion? {b : Ty} {c : ImplicitConversion} (ha : a.nonNullable = .int t)
    (hb : b.nonNullable = .int w) (h : s.operandConversion? a b = some c) : t.Within w := by
  rw [Ty.eq_lift_of_int hb] at h
  exact Ty.wideningCost?_int.1 ((operandConversion?_integer ha rfl).1 (Option.isSome_of_mem h)).2

end Schema

/-! ## Two integers -/

namespace Binding

section

variable {format : GuidFormat} {s : Schema} {op : CompareOp} {a b e x y : Expr} {t u w : IntType}
  {k : Ty}

variable {operator : String} {offset : Nat}

/-- Two integers meet in the numeric types that both widen to. -/
def widenBoth (t u : IntType) (k : Ty) : Bool :=
  ((Ty.int t).wideningCost? k).isSome && ((Ty.int u).wideningCost? k).isSome

theorem meetIn_integers {a b : Ty} (ha : a.nonNullable = .int t) (hb : b.nonNullable = .int u)
    (hk : k.isNumeric = true) :
    meetIn s a b (k.lift (a.isNullable || b.isNullable)) = widenBoth t u k := by
  rw [Bool.eq_iff_iff, meetIn, widenBoth, Bool.and_eq_true, Bool.and_eq_true,
    Schema.operandConversion?_integer ha hk, Schema.operandConversion?_integer hb hk]
  simp +contextual

/-- Of the types that integers may meet in, the first one that both widen to is integral if some
type has the integers of both, and the type of singles otherwise. -/
theorem find?_widenBoth (t u : IntType) :
    ∃ k, (.int t :: .int u :: commonNumeric).find? (widenBoth t u) = some k ∧
      (t.Compatible u ∧ (∃ w, k = .int w) ∨ ¬ t.Compatible u ∧ k = .single) := by
  have split : Ty.int t :: .int u :: commonNumeric =
    [t, u, .int32, .uint32, .int64, .uint64].map Ty.int ++ [.single, .double] := rfl
  have both (w : IntType) : widenBoth t u (.int w) = true ↔ t.Within w ∧ u.Within w := by
    rw [widenBoth, Bool.and_eq_true, Ty.wideningCost?_int, Ty.wideningCost?_int]
  rw [split, List.find?_append, List.find?_map]
  by_cases compatible : t.Compatible u
  · obtain ⟨w, ht, hu⟩ := compatible
    have found :
        ([t, u, .int32, .uint32, .int64, .uint64].find? (widenBoth t u ∘ .int)).isSome := by
      refine List.find?_isSome.2 ⟨w.promoted, ?_, (both _).2
        ⟨ht.trans w.within_promoted, hu.trans w.within_promoted⟩⟩
      cases w <;> simp [IntType.promoted]
    obtain ⟨w', hw⟩ := Option.isSome_iff_exists.1 found
    refine ⟨.int w', ?_, Or.inl ⟨⟨w, ht, hu⟩, w', rfl⟩⟩
    rw [hw]
    rfl
  · have none : [t, u, .int32, .uint32, .int64, .uint64].find? (widenBoth t u ∘ .int) = none :=
      List.find?_eq_none.2 fun w _ h => compatible ⟨w, (both w).1 h⟩
    refine ⟨.single, ?_, Or.inr ⟨compatible, rfl⟩⟩
    rw [none]
    refine List.find?_cons_of_pos ?_
    rw [widenBoth, Ty.wideningCost?_single, Ty.wideningCost?_single]
    rfl

/-- Null aside, a type is integral if something holds, and the type of singles otherwise. -/
def IntegralIf (exact : Prop) (k : Ty) : Prop :=
  exact ∧ (∃ w, k.nonNullable = .int w) ∨ ¬ exact ∧ k.nonNullable = .single

/-- **The type that integers of two types meet in.** -/
theorem commonTy?_integers (s : Schema) {a b : Ty} (ha : a.nonNullable = .int t)
    (hb : b.nonNullable = .int u) :
    ∃ k, commonTy? s a b = some k ∧ IntegralIf (t.Compatible u) k := by
  obtain ⟨k, found, which⟩ := find?_widenBoth t u
  refine ⟨k.lift (a.isNullable || b.isNullable), ?_, ?_⟩
  · have candidates : meetingTypes a b =
        (.int t :: .int u :: commonNumeric).map (·.lift (a.isNullable || b.isNullable)) := by
      rw [meetingTypes_eq (Ty.ne_null_of_int ha) (Ty.ne_null_of_int hb), own, own, ha, hb]
      rfl
    rw [commonTy?_eq, candidates, List.find?_map, List.find?_congr, found]
    · rfl
    · intro k mem
      refine meetIn_integers ha hb ?_
      simp only [commonNumeric, List.mem_cons, List.not_mem_nil, or_false] at mem
      rcases mem with rfl | rfl | rfl | rfl | rfl | rfl | rfl | rfl <;> rfl
  · refine which.imp (And.imp_right ?_) (And.imp_right ?_)
    · rintro ⟨w, rfl⟩
      exact ⟨w, Ty.nonNullable_lift_int w _⟩
    · rintro rfl
      cases a.isNullable || b.isNullable <;> rfl

/-- Two integers after the implicit conversions. -/
theorem convertBoth_integers (s : Schema) (operator : String) (offset : Nat)
    (ha : a.ty.nonNullable = .int t) (hb : b.ty.nonNullable = .int u) :
    ∃ x y, convertBoth s operator a b offset = .ok (x, y) ∧
      IntegralIf (t.Compatible u) x.ty := by
  obtain ⟨k, meet, integral⟩ := commonTy?_integers s ha hb
  have bound : ∃ p, convertBoth s operator a b offset = .ok p := by
    unfold convertBoth
    simp only [meet]
    split <;> exact ⟨_, rfl⟩
  obtain ⟨⟨x, y⟩, bound⟩ := bound
  refine ⟨x, y, bound, ?_⟩
  cases convertBoth_eq_ok_iff.1 bound with
  | toLeft found _ =>
    exact Or.inl ⟨(Schema.within_of_operandConversion? hb ha found).compatible', t, ha⟩
  | toRight found _ =>
    refine Or.inl ⟨(Schema.within_of_operandConversion? ha hb found).compatible, u, ?_⟩
    rw [(Expr.Represents.applyConversion (implicit?_of_operandConversion? found)).ty, hb]
  | common _ _ meet' =>
    obtain rfl := Option.some.inj (meet.symm.trans meet')
    rwa [(Expr.Represents.coerceTo s a k).ty]

/-- Two integer operands meet exactly: some type has the integers of both types, or one operand is a
constant that adapts to the type of the other one. -/
def MeetExactly [GuidFormat] (t u : IntType) (a b : Expr) : Prop :=
  t.Compatible u ∨ (adapt? a b.ty).isSome = true ∨ (adapt? b a.ty).isSome = true

/-- Two integer operands are brought to one type: an integral one if they meet exactly, and the type
of singles otherwise. -/
theorem unify_integers (s : Schema) (operator : String) (offset : Nat)
    (ha : a.ty.nonNullable = .int t) (hb : b.ty.nonNullable = .int u) :
    ∃ x y, unify s operator a b offset = .ok (x, y) ∧
      IntegralIf (MeetExactly t u a b) x.ty := by
  unfold unify MeetExactly
  by_cases same : a.ty = b.ty
  · obtain rfl : t = u := by
      rw [same, hb] at ha
      exact (Ty.int.inj ha).symm
    rw [if_pos same]
    exact ⟨a, b, rfl, Or.inl ⟨Or.inl (IntType.Within.refl t).compatible, t, ha⟩⟩
  rw [if_neg same]
  cases right : adapt? b a.ty with
  | some y => exact ⟨a, y, rfl, Or.inl ⟨Or.inr (Or.inr rfl), t, ha⟩⟩
  | none =>
    cases left : adapt? a b.ty with
    | some x =>
      refine ⟨x, b, rfl, Or.inl ⟨Or.inr (Or.inl rfl), u, ?_⟩⟩
      rw [(adapt?_represents (s := s) same left).ty, hb]
    | none =>
      obtain ⟨x, y, bound, which⟩ := convertBoth_integers s operator offset ha hb
      exact ⟨x, y, bound, by simpa using which⟩

/-! ## Comparisons -/

/-- An operand that is brought to an integral type keeps its value. -/
theorem Admits.mem_of_int {k : Ty} {m : Word t} (h : Admits s e k) (he : e.ty.nonNullable = .int t)
    (hk : k.nonNullable = .int w) (hc : ∀ v, e.constant? = some v → Value.int t m = v) :
    w.min ≤ m.val ∧ m.val ≤ w.max := by
  cases h with
  | same same =>
    rw [same, hk] at he
    cases he
    exact ⟨m.min_le, m.le_max⟩
  | converts h => exact (Schema.within_of_operandConversion? he hk h).mem m
  | adapts constant fits =>
    obtain rfl := hc _ constant
    exact Value.mem_of_coerce?_int hk fits

/-- What stands for an integer runs as the integer does, whose value it views in its own type. -/
theorem run_represents {k : Ty} {m : Word t} {frames : List Value} {st st' : Store}
    (hx : x.Represents s a k) (ha : a.ty.nonNullable = .int t) (plain : ∀ d, k ≠ .record d)
    (run : a.evaluate frames st = (.ok (.int t m), st')) :
    x.evaluate frames st = ((Value.int t m).viewAs a.ty k, st') := by
  refine Expr.run_after ?_ run
  rw [← Schema.represent_eq_viewAs (Schema.declared?_eq_none s a.ty plain)]
  exact hx.evaluate (fun null => absurd null (Ty.ne_null_of_int ha)) frames

/-- What the comparison of two operands gives that stand for integers. -/
theorem evaluate_compare_represents {k : Ty} {m : Word t} {n : Word u} {v w : Value}
    {frames : List Value} {st : Store} (hx : x.Represents s a k) (hy : y.Represents s b k)
    (ha : a.ty.nonNullable = .int t) (hb : b.ty.nonNullable = .int u) (plain : ∀ d, k ≠ .record d)
    (run : (a.evaluateBoth b frames st).1 = .ok (.int t m, .int u n))
    (hv : (Value.int t m).viewAs a.ty k = .ok v) (hw : (Value.int u n).viewAs b.ty k = .ok w) :
    ((Expr.binary (.compare op) x y .boolean).evaluate frames st).1 =
      .ok (.boolean (Value.compareBy (.compare op) v w)) := by
  obtain ⟨st₁, st₂, runA, runB⟩ := Expr.runs_of_evaluateBoth run
  have runX := run_represents hx ha plain runA
  have runY := run_represents hy hb plain runB
  rw [evaluate_compare, bind_lift_fst, Expr.evaluateBoth_fst runX, runY, hv, hw]
  rfl

theorem findComparison?_integer {a b : Ty} (ha : a.nonNullable = .int t)
    (hb : b.nonNullable = .int u) : s.findComparison? a b = none := by
  rw [Ty.eq_lift_of_int ha, Ty.eq_lift_of_int hb]
  cases a.isNullable <;> cases b.isNullable <;> rfl

/-- **Comparisons of integers.**  Any two integers can be compared.  Where both operands give
integers of their types, the result is that of comparing the integers if the operands meet exactly,
and otherwise that of comparing them as singles. -/
theorem comparison_integers (s : Schema) (op : CompareOp) (offset : Nat)
    (ha : a.ty.nonNullable = .int t) (hb : b.ty.nonNullable = .int u) :
    ∃ e, comparison s op a b offset = .ok e ∧
      ∀ (frames : List Value) (st : Store) (m : Word t) (n : Word u),
        (a.evaluateBoth b frames st).1 = .ok (.int t m, .int u n) →
          (MeetExactly t u a b →
            (e.evaluate frames st).1 = .ok (.boolean (decide (op.Holds m.val n.val)))) ∧
          (¬ MeetExactly t u a b →
            (e.evaluate frames st).1 = .ok (.boolean
              (Value.compareBy (.compare op) (Value.rounded m.val) (Value.rounded n.val)))) := by
  obtain ⟨x, y, unified, which⟩ := unify_integers s op.symbol offset ha hb
  obtain ⟨k, hx, hy, admitsA, admitsB⟩ := unify_represents unified
  rw [hx.ty] at which
  have comparable : (op.isEquality || x.ty.isComparable) = true := by
    rw [hx.ty, Ty.isComparable]
    rcases which with ⟨-, w, hk⟩ | ⟨-, hk⟩ <;> rw [hk] <;> exact Bool.or_true _
  refine ⟨_, (comparison_eq_ok_iff (findComparison?_integer ha hb)).2
    ⟨x, y, unified, comparable, rfl⟩, fun frames st m n run => ?_⟩
  have plain (d : RecordDef) : k ≠ .record d := by
    rintro rfl
    rcases which with ⟨-, w, ⟨⟩⟩ | ⟨-, ⟨⟩⟩
  rcases which with ⟨exact, w, hk⟩ | ⟨inexact, hk⟩
  · refine ⟨fun _ => ?_, absurd exact⟩
    obtain ⟨st₁, st₂, runA, runB⟩ := Expr.runs_of_evaluateBoth run
    have memA := admitsA.mem_of_int ha hk fun v hv => Expr.eq_of_constant? hv runA
    have memB := admitsB.mem_of_int hb hk fun v hv => Expr.eq_of_constant? hv runB
    have sameA : (Word.wrap w m.val).val = m.val := IntType.reduce_of_mem memA.1 memA.2
    have sameB : (Word.wrap w n.val).val = n.val := IntType.reduce_of_mem memB.1 memB.2
    rw [evaluate_compare_represents hx hy ha hb plain run (Value.viewAs_int ha hk m)
      (Value.viewAs_int hb hk n), Value.compareBy_int, sameA, sameB]
  · refine ⟨fun exact => absurd exact inexact, fun _ => ?_⟩
    exact evaluate_compare_represents hx hy ha hb plain run (Value.viewAs_single ha hk m)
      (Value.viewAs_single hb hk n)

/-- A second item, of 32 bits without a sign. -/
def unsigned32 : Expr := .parameter 1 (.int .uint32)

end

theorem comparison_integers_negative :
    ∃ e, comparison Schema.empty .lt element32 unsigned32 0 = .ok e ∧
      (e.evaluate [Value.int32 (-5), .int .uint32 (Word.wrap .uint32 0xFFFFFFFF)] .empty).1 =
        .ok (.boolean true) := by
  obtain ⟨e, bound, value⟩ := comparison_integers Schema.empty .lt 0
    (show element32.ty.nonNullable = .int .int32 from rfl)
    (show unsigned32.ty.nonNullable = .int .uint32 from rfl)
  exact ⟨e, bound, (value _ .empty (Word.wrap .int32 (-5)) (Word.wrap .uint32 0xFFFFFFFF) rfl).1
    (Or.inl ⟨.int64, by decide, by decide⟩)⟩

/-- A record with two integers of 64 bits, with a sign and without. -/
def wideRecord : RecordDef :=
  ⟨.declared 0, "P", [("A", .int .int64), ("B", .int .uint64)], .reference, true⟩

/-- The first integer. -/
def wideA : Expr := .member (.parameter 0 (.record wideRecord)) ⟨"A", .int .int64, .field 0⟩

/-- The second integer. -/
def wideB : Expr := .member (.parameter 0 (.record wideRecord)) ⟨"B", .int .uint64, .field 1⟩

/-- An instance of the record with two neighbouring integers. -/
def neighbours : Value :=
  .object 0 wideRecord
    [.int .int64 (Word.wrap .int64 16777217), .int .uint64 (Word.wrap .uint64 16777216)]

/-- Integers of 64 bits with and without a sign are compared as singles, of which there are not
enough to tell large integers apart. -/
theorem different_are_equal :
    (wideA.evaluateBoth wideB [neighbours] .empty).1 =
        .ok (.int .int64 (Word.wrap .int64 16777217), .int .uint64 (Word.wrap .uint64 16777216)) ∧
      comparison Schema.empty .eq wideA wideB 0 =
        .ok (.binary (.compare .eq) (.convert wideA none .single) (.convert wideB none .single)
          .boolean) ∧
      ¬ CompareOp.eq.Holds 16777217 16777216 ∧
      Source.truth? ⟨"A = B", .record wideRecord, [], true⟩ Workspace.empty neighbours =
        some true :=
  ⟨rfl, rfl, by decide, by decide +kernel⟩

end Binding
end TypedExpr
