import Mathlib.Algebra.BigOperators.Group.List.Basic
import TypedExpr.Proofs.Evaluation.Occurrence
import TypedExpr.Proofs.Operands.Commutative
import TypedExpr.Proofs.Operands.Integers
import TypedExpr.Proofs.Sequences.Selecting
import TypedExpr.Proofs.Typing.Compile
import TypedExpr.Proofs.Value.Arithmetic

/-!
# Sums of integers

A sum is computed in a type that is not narrow: every selected value is converted to that type, and
the values are added one by one, each time wrapping.  What is lost by wrapping is a multiple of
`2 ^ bits`, so that it does not matter how often it happened: in the end, the sum is the one word
that is congruent to the sum of the integers.

* `Items.integerSum` — the sum of the integers among some values.
* **`Items.sum_eq_wrap`** — adding up words wraps their sum.
* `Expr.Sums` — the calls of the method.
* **`Expr.sum_integers`** — what such a call computes.
-/

namespace TypedExpr

variable {t u : IntType} {v : Value} {values values' : List Value} {ty : Ty}

/-- Whether the first summand wrapped before does not matter. -/
theorem Word.wrap_add_wrap (u : IntType) (m n : Int) :
    wrap u ((wrap u m).val + n) = wrap u (m + n) :=
  modEq_iff_eq_wrap.1 ((val_wrap_modEq u _).trans ((val_wrap_modEq u m).add_right n))

/-! ## Integers among values -/

namespace Value

/-- The integer that a value of an integral type is. -/
def integer? : Value → Option Int
  | .int _ n => some n.val
  | _ => none

/-- An integer as one of another type; any other value as it is. -/
def asInteger (u : IntType) : Value → Value
  | .int _ n => .int u (Word.wrap u n.val)
  | v => v

/-- Null aside, the values of an integral type are its integers. -/
theorem Conforms.null_or_word (h : v.Conforms ty) (integral : ty.nonNullable = .int t) :
    v = .null ∨ ∃ n, v = .int t n := by
  cases hv : v.isNull with
  | true => exact Or.inl (isNull_iff.1 hv)
  | false => exact Or.inr (h.eq_word hv integral)

end Value

namespace Items

/-- The sum of the integers among the values. -/
def integerSum (values : List Value) : Int :=
  (values.filterMap Value.integer?).sum

@[simp] theorem integerSum_nil : integerSum [] = 0 := rfl

@[simp] theorem integerSum_null (values : List Value) :
    integerSum (.null :: values) = integerSum values := rfl

@[simp] theorem integerSum_int (n : Word t) (values : List Value) :
    integerSum (.int t n :: values) = n.val + integerSum values := rfl

/-- The order of the values does not matter. -/
theorem integerSum_perm (perm : values.Perm values') : integerSum values = integerSum values' :=
  (perm.filterMap _).sum_eq

theorem integerSum_of_null (nulls : ∀ v ∈ values, v = .null) : integerSum values = 0 := by
  induction values with
  | nil => rfl
  | cons v values ih =>
    obtain ⟨rfl, others⟩ := List.forall_mem_cons.1 nulls
    rw [integerSum_null, ih others]

/-- In a wider type, the integers are the same. -/
theorem integerSum_map_asInteger (wide : t.Within u)
    (integers : ∀ v ∈ values, v = .null ∨ ∃ n, v = .int t n) :
    integerSum (values.map (Value.asInteger u)) = integerSum values := by
  induction values with
  | nil => rfl
  | cons v values ih =>
    obtain ⟨first, others⟩ := List.forall_mem_cons.1 integers
    obtain rfl | ⟨n, rfl⟩ := first
    · exact ih others
    · have same : (Word.wrap u n.val).val = n.val := Word.val_wrap_of_contains (wide.mem n)
      rw [List.map_cons, Value.asInteger, integerSum_int, same, ih others, integerSum_int]

/-! ## Adding up -/

/-- Adding words to a word wraps the sum of all of them, however often it wraps on the way. -/
theorem foldlM_add (acc : Word u) (words : ∀ v ∈ values, v = .null ∨ ∃ n, v = .int u n) :
    (values.filter (!·.isNull)).foldlM (Value.combine (.arithmetic .add)) (.int u acc) =
      .ok (.int u (Word.wrap u (acc.val + integerSum values))) := by
  induction values generalizing acc with
  | nil =>
    rw [integerSum_nil, Int.add_zero, Word.wrap_val]
    rfl
  | cons v values ih =>
    obtain ⟨first, others⟩ := List.forall_mem_cons.1 words
    obtain rfl | ⟨n, rfl⟩ := first
    · exact ih acc others
    · have step : Value.combine (.arithmetic .add) (.int u acc) (.int u n) =
          .ok (.int u (Word.wrap u (acc.val + n.val))) := Value.combine_arithmetic nofun
      show (Value.combine (.arithmetic .add) (.int u acc) (.int u n) >>= fun acc =>
        (values.filter (!·.isNull)).foldlM (Value.combine (.arithmetic .add)) acc) = _
      rw [step]
      refine (ih _ others).trans ?_
      rw [Word.wrap_add_wrap, integerSum_int, Int.add_assoc]

/-- **The sum of words is the word of their sum.** -/
theorem sum_eq_wrap (integral : ty.nonNullable = .int u)
    (words : ∀ v ∈ values, v = .null ∨ ∃ n, v = .int u n) :
    sum values ty = .ok (.int u (Word.wrap u (integerSum values))) := by
  have zero : (Word.zero u).val = 0 := Word.val_wrap_of_contains u.contains_zero
  rw [sum, integral]
  refine (foldlM_add (Word.zero u) words).trans ?_
  rw [zero, Int.zero_add]

end Items

/-! ## Calls -/

namespace Expr

section

variable {format : GuidFormat} {target target' f e e' : Expr}
  {frames frames' items items' : List Value} {s s' s₁ s₁' s₂ : Store}

/-- The tree is that of a sum of what the first lambda gives for the items of the target: either the
binder makes it for a call whose lambda is given or implied, or it is a part of a text. -/
inductive Sums [GuidFormat] (target f : Expr) : Expr → Prop
  | call {c : BindContext} {w : BindState} {lambda : Option Expr} {item : Ty} {e : Expr}
      (element : target.ty.element? = some item)
      (given : f = lambda.getD (.parameter c.scope.depth item))
      (calls : Calls c w target .sum lambda e) : Sums target f e
  | text {source : Source} {w : Workspace} {tree : Expr} {receivers : List Expr}
      {argument : Option Expr} {ty : Ty} (parsed : (source.parse w).1 = .ok tree)
      (occurs : tree.Occurs receivers (.sequenceCall target .sum (some f) argument ty)) :
      Sums target f (.sequenceCall target .sum (some f) argument ty)

/-- A sum has no argument besides its lambda. -/
theorem evaluate_sum (target f : Expr) (argument : Option Expr) (ty : Ty) (frames : List Value) :
    (sequenceCall target .sum (some f) argument ty).evaluate frames =
      (sequenceCall target .sum (some f) none ty).evaluate frames := by
  cases argument <;> rfl

/-- Every sum converts what its lambda gives to the type of the sum. -/
theorem Sums.aggregates (sums : Sums target f e) :
    f.ty.nonNullable.isNumeric = true ∧ e.ty = SequenceMethod.sumTy f.ty ∧
      ∃ schema, ∀ frames,
        e.evaluate frames = (aggregateCall schema target .sum f).evaluate frames := by
  cases sums with
  | call element given calls =>
    obtain ⟨item, element', accepted, rfl⟩ := (calls_aggregate_iff List.mem_cons_self).1 calls
    rw [element, Option.some.injEq] at element'
    subst element'
    rw [← given] at accepted ⊢
    exact ⟨accepted, rfl, _, fun _ => rfl⟩
  | @text source w tree receivers argument ty parsed occurs =>
    have typed : tree.Typed (source.premises w False False) [source.element] :=
      Source.parse_typed parsed nofun nofun
    obtain ⟨_, -, typed⟩ := typed.occurs occurs
    cases typed with
    | sequenceCall _ _ _ _ fits =>
      have summed : f.ty = ty := Option.some.inj (fits.summed rfl)
      have result : ty = SequenceMethod.sumTy f.ty := fits.result
      refine ⟨fits.accepted f.ty rfl, result, Schema.empty, fun frames => ?_⟩
      have same : aggregateBody Schema.empty .sum f = f :=
        Binding.coerceTo_self Schema.empty (summed.trans result)
      rw [evaluate_sum, aggregateCall, same, result]
      rfl

/-- The type of a sum of integers. -/
theorem nonNullable_sumTy (integral : ty.nonNullable = .int t) :
    (SequenceMethod.sumTy ty).nonNullable = .int t.promoted := by
  rw [SequenceMethod.sumTy, integral]
  exact Ty.nonNullable_lift_int _ _

/-- What is summed up is converted to the type of the sum, without fail. -/
theorem represent_sumTy (schema : Schema) (conforms : v.Conforms ty)
    (integral : ty.nonNullable = .int t) :
    schema.represent ty (SequenceMethod.sumTy ty) v = pure (v.asInteger t.promoted) := by
  have number : ty.nonNullable.isNumeric = true := by
    rw [integral]
    rfl
  obtain ⟨⟨_, implicit⟩, plain⟩ := exists_implicit_sumTy schema number
  obtain rfl | ⟨n, rfl⟩ := conforms.null_or_word integral
  · exact Schema.represent_null (implicit.acceptsNull_of (Value.conforms_null_iff.1 conforms))
  · rw [Schema.represent_eq_viewAs plain]
    show liftM ((Value.int t n).viewAs ty (SequenceMethod.sumTy ty)) = _
    rw [Value.viewAs_int integral (nonNullable_sumTy integral)]
    rfl

/-- **A sum wraps the sum of the selected integers.** -/
theorem Sums.evaluate_eq (sums : Sums target f e) (integral : f.ty.nonNullable = .int t)
    (receiver : target.GivesItems frames s items s₁)
    (run : Items.selectAll (f.selector frames) items s₁ = (.ok values, s₂))
    (conforms : ∀ v ∈ values, v.Conforms f.ty) :
    e.evaluate frames s =
      (.ok (.int t.promoted (Word.wrap t.promoted (Items.integerSum values))), s₂) := by
  obtain ⟨number, -, schema, evaluates⟩ := sums.aggregates
  obtain ⟨v, found, sequence⟩ := receiver
  have integers (v : Value) (hv : v ∈ values) := (conforms v hv).null_or_word integral
  have converted : Items.selectAll ((aggregateBody schema .sum f).selector frames) items s₁ =
      (.ok (values.map (Value.asInteger t.promoted)), s₂) := by
    rw [selector_aggregateBody (m := .sum) schema number List.mem_cons_self]
    exact Items.selectAll_bind_run run fun v hv => represent_sumTy schema (conforms v hv) integral
  have words : ∀ v ∈ values.map (Value.asInteger t.promoted),
      v = .null ∨ ∃ n, v = .int t.promoted n := by
    intro v hv
    obtain ⟨selected, mem, rfl⟩ := List.mem_map.1 hv
    obtain rfl | ⟨n, rfl⟩ := integers selected mem
    · exact Or.inl rfl
    · exact Or.inr ⟨_, rfl⟩
  rw [evaluates, aggregateCall, evaluate_sequenceCall found sequence]
  show (Items.selectAll _ items >>= fun values =>
    liftM (Items.sum values (SequenceMethod.sumTy f.ty))) s₁ = _
  rw [bind_of_ok converted]
  simp only [Items.sum_eq_wrap (nonNullable_sumTy integral) words,
    Items.integerSum_map_asInteger t.within_promoted integers]
  rfl

/-- **The sum of integers is their sum modulo `2 ^ bits`.**  Of narrow integers it is one of 32
bits, and where null may be selected, null may be in its place.  If the lambda gives values of its
type for all items, the result is the one word that is congruent to the sum of the integers among
them, zero if there is none; and if these values are the same in every run, so is the result for the
items in another order. -/
theorem sum_integers (sums : Sums target f e) (integral : f.ty.nonNullable = .int t) :
    e.ty = (Ty.int t.promoted).lift f.ty.isNullable ∧
    (∀ {frames s s₁ s₂ items values}, target.GivesItems frames s items s₁ →
      Items.selectAll (f.selector frames) items s₁ = (.ok values, s₂) →
      (∀ v ∈ values, v.Conforms f.ty) →
      ∃ r : Word t.promoted, e.evaluate frames s = (.ok (.int t.promoted r), s₂) ∧
        (∀ c : Word t.promoted,
          c.val ≡ Items.integerSum values [ZMOD 2 ^ t.promoted.bits] ↔ c = r) ∧
        ((∀ v ∈ values, v = .null) → r.val = 0)) ∧
    ∀ {target' e' frames frames' s s₁ s' s₁' items items' values}, Sums target' f e' →
      target.GivesItems frames s items s₁ → target'.GivesItems frames' s' items' s₁' →
      items.Perm items' → Items.MapsTo (f.selector frames) items values →
      Items.MapsTo (f.selector frames') items values → (∀ v ∈ values, v.Conforms f.ty) →
      ∃ r, (e.evaluate frames s).1 = .ok r ∧ (e'.evaluate frames' s').1 = .ok r := by
  refine ⟨?_, ?_, ?_⟩
  · rw [sums.aggregates.2.1, SequenceMethod.sumTy, integral]
    rfl
  · intro frames s s₁ s₂ items values receiver run conforms
    refine ⟨_, sums.evaluate_eq integral receiver run conforms, ?_, ?_⟩
    · intro c
      exact Word.modEq_iff_eq_wrap
    · intro nulls
      rw [Items.integerSum_of_null nulls]
      exact Word.val_wrap_of_contains t.promoted.contains_zero
  · intro target' e' frames frames' s s₁ s' s₁' items items' values sums' receiver receiver' perm
      maps maps' conforms
    obtain ⟨values', reordered, others⟩ := maps'.perm perm
    obtain ⟨s₂, run⟩ := maps.selectAll s₁
    obtain ⟨s₂', run'⟩ := others.selectAll s₁'
    have conforms' : ∀ v ∈ values', v.Conforms f.ty := fun v hv =>
      conforms v (reordered.mem_iff.2 hv)
    refine ⟨_, congrArg Prod.fst (sums.evaluate_eq integral receiver run conforms), ?_⟩
    rw [sums'.evaluate_eq integral receiver' run' conforms', Items.integerSum_perm reordered]

/-- The sum of numbers some of which may be missing. -/
def total : Source := ⟨"$.Sum()", .sequence (.nullable (.int .int32)), [], true⟩

/-- The tree of `total`. -/
def totalTree : Expr :=
  .sequenceCall (.parameter 0 (.sequence (.nullable (.int .int32)))) .sum
    (some (.parameter 1 (.nullable (.int .int32)))) none (.nullable (.int .int32))

end

set_option maxRecDepth 4000 in
/-- The greatest number and one more, with nothing between them. -/
theorem sum_integers_wraps :
    let target : Expr := .parameter 0 (.sequence (.nullable (.int .int32)))
    let item : Expr := .parameter 1 (.nullable (.int .int32))
    let items := [Value.int32 2147483647, .null, Value.int32 1]
    Sums target item totalTree ∧ ∃ r : Word .int32,
      totalTree.evaluate [.sequence 0 items] .empty = (.ok (.int .int32 r), .empty) ∧
      r.val = -2147483648 ∧
      (totalTree.evaluate [.sequence 0 items.reverse] .empty).1 = .ok (.int .int32 r) := by
  intro target item items
  have parsed : (total.parse Workspace.empty).1 = .ok totalTree := rfl
  have sums : Sums target item totalTree := .text parsed (.refl _)
  have conforms : ∀ v ∈ items, v.Conforms item.ty := by
    intro v hv
    simp only [items, List.mem_cons, List.not_mem_nil, or_false] at hv
    obtain rfl | rfl | rfl := hv
    · exact .nullable (.int .int32 _)
    · exact .null rfl
    · exact .nullable (.int .int32 _)
  have receiver (others : List Value) :
      target.GivesItems [.sequence 0 others] .empty others .empty := ⟨_, rfl, rfl⟩
  have maps (others : List Value) :
      Items.MapsTo (item.selector [.sequence 0 others]) items items :=
    List.forall₂_same.2 fun _ _ _ => rfl
  have selected : Items.selectAll (item.selector [.sequence 0 items]) items .empty =
      (.ok items, .empty) := rfl
  obtain ⟨-, value, order⟩ := sum_integers sums rfl
  obtain ⟨r, run, congruent, -⟩ := value (receiver items) selected conforms
  obtain ⟨v, first, second⟩ := order sums (receiver items) (receiver items.reverse)
    (List.reverse_perm items).symm (maps items) (maps items.reverse) conforms
  obtain rfl : Word.wrap .int32 (-2147483648) = r := (congruent _).1 (by decide)
  rw [run] at first
  cases first
  exact ⟨sums, _, run, rfl, second⟩

end Expr

end TypedExpr
