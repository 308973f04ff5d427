import TypedExpr.Proofs.Operands.Exchange
import TypedExpr.Proofs.Operands.Unify
import TypedExpr.Proofs.Value.Mirror

/-!
# Mirrored comparisons

A comparison and its mirror on exchanged operands: `a < b` and `b > a`.

* `Schema.findComparison?_swap` — the same declared comparison is found, to be asked the other way.
* **`Binding.comparison_mirrors`** — both are bound, and give the same result, whenever one does.
* `Binding.mirrors_differ` — the operands of the mirror are evaluated and cast in the other order.
-/

namespace TypedExpr

/-! ## Declared comparisons -/

namespace Schema

variable {s : Schema} {a b : Ty} {d e : RecordDef} {m : ComparisonMatch}

/-- The same comparison, asked the other way round. -/
def ComparisonMatch.flip (m : ComparisonMatch) : ComparisonMatch := ⟨m.order, !m.reversed⟩

theorem declaredComparison?_swap (differ : a ≠ b) (d : RecordDef) :
    s.declaredComparison? d b a = (s.declaredComparison? d a b).map ComparisonMatch.flip := by
  rw [declaredComparison?, declaredComparison?, List.map_findSome?]
  congr 1
  funext c
  by_cases forth : c.left.resolve d = a ∧ c.right.resolve d = b
  · simp [forth, differ, ComparisonMatch.flip]
  · by_cases back : c.left.resolve d = b ∧ c.right.resolve d = a
    · simp [back, Ne.symm differ, ComparisonMatch.flip]
    · simp [if_neg forth, if_neg back]

/-- What a declaration lists is the declaring record, or a type that the record speaks of. -/
theorem mentions_of_resolve {c : Comparison} (mem : c ∈ s.comparisons d) (differ : d ≠ e)
    (h : c.left.resolve d = .record e ∨ c.right.resolve d = .record e) : s.Mentions d e := by
  have mentioned {o : Operand} (h : o.resolve d = .record e) : .record e ∈ o.mentioned := by
    cases o with
    | this => exact absurd (Ty.record.inj h) differ
    | other t => exact h ▸ Ty.mem_subterms_self t
  exact Or.inl ⟨c, mem, List.mem_append.2 (h.imp mentioned mentioned)⟩

/-- A record that declares a comparison with another record speaks of it. -/
theorem mentions_of_declaredComparison? (differ : d ≠ e)
    (h : s.declaredComparison? d a b = some m) (he : a = .record e ∨ b = .record e) :
    s.Mentions d e := by
  obtain ⟨c, mem, hc⟩ := List.exists_of_findSome?_eq_some h
  refine mentions_of_resolve mem differ ?_
  simp only at hc
  split at hc
  next sides =>
    simp only [Bool.and_eq_true, decide_eq_true_eq] at sides
    rw [sides.1, sides.2]
    exact he
  next =>
    split at hc
    next sides =>
      simp only [Bool.and_eq_true, decide_eq_true_eq] at sides
      rw [sides.1, sides.2]
      exact he.symm
    next => cases hc

/-- The comparison that the type of an operand declares, if it is a record. -/
def asked (s : Schema) (t a b : Ty) : Option ComparisonMatch :=
  match t with
  | .record d => s.declaredComparison? d a b
  | _ => none

theorem findComparison?_eq (s : Schema) (a b : Ty) :
    s.findComparison? a b = (s.asked a a b).or (s.asked b a b) := by
  show [a, b].findSome? (fun t => s.asked t a b) = _
  cases ha : s.asked a a b <;> cases hb : s.asked b a b <;> simp [ha, hb]

theorem asked_swap (differ : a ≠ b) (t : Ty) :
    s.asked t b a = (s.asked t a b).map ComparisonMatch.flip := by
  cases t with
  | record d => exact declaredComparison?_swap differ d
  | _ => rfl

/-- **The comparison found for exchanged operands is the same one, asked the other way**, if of two
records at most one speaks of the other. -/
theorem findComparison?_swap (oneSided : s.OneSided) (differ : a ≠ b) :
    s.findComparison? b a = (s.findComparison? a b).map ComparisonMatch.flip := by
  rw [findComparison?_eq, findComparison?_eq, asked_swap differ, asked_swap differ]
  cases ha : s.asked a a b with
  | none => cases s.asked b a b <;> rfl
  | some m =>
    cases hb : s.asked b a b with
    | none => rfl
    | some n =>
      cases a with
      | record d =>
        cases b with
        | record e =>
          have apart : d ≠ e := fun same => differ (congrArg Ty.record same)
          have mentions := mentions_of_declaredComparison? apart ha (Or.inr rfl)
          have mentions' := mentions_of_declaredComparison? (Ne.symm apart) hb (Or.inl rfl)
          exact absurd mentions' (oneSided d e apart mentions)
        | _ => cases hb
      | _ => cases ha

end Schema

/-! ## Binding -/

namespace Binding

section

variable {format : GuidFormat} {s : Schema} {op : CompareOp} {a b e e' x y : Expr} {v w : Value}

variable {frames : List Value} {st : Store} {offset offset' : Nat}

theorem comparison_of_declared {m : Schema.ComparisonMatch}
    (h : s.findComparison? a.ty b.ty = some m) :
    comparison s op a b offset = .ok (.customCompare op a b m) := by
  rw [comparison, h]

/-- Without a declared order, what is compared are the operands after they were brought to one
type. -/
theorem comparison_eq_ok_iff (h : s.findComparison? a.ty b.ty = none) :
    comparison s op a b offset = .ok e ↔
      ∃ x y, unify s op.symbol a b offset = .ok (x, y) ∧
        (op.isEquality || x.ty.isComparable) = true ∧ e = .binary (.compare op) x y .boolean := by
  rw [comparison, h]
  constructor
  · intro hc
    obtain ⟨⟨x, y⟩, hu, hc⟩ := exists_of_bind_eq_ok hc
    simp only at hc
    split at hc
    next comparable =>
      cases hc
      exact ⟨x, y, hu, comparable, rfl⟩
    next => cases hc
  · rintro ⟨x, y, hu, comparable, rfl⟩
    simp only [hu]
    exact if_pos comparable

/-- The declared comparison that is found for exchanged operands. -/
def mirrored (a b : Expr) (m : Schema.ComparisonMatch) : Schema.ComparisonMatch :=
  if a.ty = b.ty then m else m.flip

theorem findComparison?_mirrored (oneSided : s.OneSided) :
    s.findComparison? b.ty a.ty = (s.findComparison? a.ty b.ty).map (mirrored a b) := by
  unfold mirrored
  by_cases same : a.ty = b.ty
  · rw [same]
    simp
  · rw [Schema.findComparison?_swap oneSided same]
    simp [same]

/-- How a comparison and its mirror are bound: by one declared order, or with the same two
operands. -/
inductive Mirrors [GuidFormat] (s : Schema) (op : CompareOp) (a b : Expr) (offset : Nat) :
    Expr → Expr → Prop
  | declared {m : Schema.ComparisonMatch} (found : s.findComparison? a.ty b.ty = some m) :
      Mirrors s op a b offset (.customCompare op a b m)
        (.customCompare op.swap b a (mirrored a b m))
  | builtIn {x y : Expr} (unified : unify s op.symbol a b offset = .ok (x, y)) :
      Mirrors s op a b offset (.binary (.compare op) x y .boolean)
        (.binary (.compare op.swap) y x .boolean)

/-- Where a comparison is bound, so is its mirror. -/
theorem comparison_swap (offset' : Nat) (oneSided : s.OneSided) (apart : ¬ MutuallyAdapt a b)
    (h : comparison s op a b offset = .ok e) :
    ∃ e', comparison s op.swap b a offset' = .ok e' ∧ Mirrors s op a b offset e e' := by
  have back := findComparison?_mirrored (a := a) (b := b) oneSided
  cases hm : s.findComparison? a.ty b.ty with
  | some m =>
    rw [comparison_of_declared hm] at h
    cases h
    rw [hm] at back
    exact ⟨_, comparison_of_declared back, .declared hm⟩
  | none =>
    rw [hm] at back
    obtain ⟨x, y, hu, comparable, rfl⟩ := (comparison_eq_ok_iff hm).1 h
    obtain ⟨t, hx, hy, -⟩ := unify_represents hu
    refine ⟨_, (comparison_eq_ok_iff back).2 ⟨y, x, unify_swap apart hu (Or.inl oneSided), ?_, rfl⟩,
      .builtIn hu⟩
    rwa [op.isEquality_swap, hy.ty, ← hx.ty]

/-! ## Evaluation -/

theorem evaluate_compare (op : CompareOp) (x y : Expr) (t : Ty) (frames : List Value) :
    (Expr.binary (.compare op) x y t).evaluate frames = x.evaluateBoth y frames >>= fun z =>
      liftM (.ok (.boolean (Value.compareBy (.compare op) z.1 z.2)) : Except EvalError Value) := by
  simp only [Expr.evaluateBoth, bind_assoc, pure_bind]
  rfl

theorem evaluate_customCompare (op : CompareOp) (a b : Expr) (m : Schema.ComparisonMatch)
    (frames : List Value) :
    (Expr.customCompare op a b m).evaluate frames = a.evaluateBoth b frames >>= fun z =>
      liftM ((Value.compareWith (.compare op) m.order m.reversed z.1 z.2).map Value.boolean) := by
  simp only [Expr.evaluateBoth, bind_assoc, pure_bind]
  show (do
    let v ← a.evaluate frames
    let w ← b.evaluate frames
    let result ← liftM (Value.compareWith (.compare op) m.order m.reversed v w)
    return Value.boolean result) = _
  congr 1
  funext v
  congr 1
  funext w
  cases Value.compareWith (.compare op) m.order m.reversed v w <;> rfl

/-- A declared order that does not look at which identities values have, only at which are the
same. -/
def IgnoresIdentity (order : Value → Value → Except EvalError (Option Ordering)) : Prop :=
  ∀ π : Identity → Identity, π.Injective →
    ∀ v w : Value, order (v.rename π) (w.rename π) = order v w

theorem compareWith_mirrored {m : Schema.ComparisonMatch}
    (anti : a.ty = b.ty → Value.IsAntisymmetric m.order) (op : CompareOp) (v w : Value) :
    Value.compareWith (.compare op.swap) (mirrored a b m).order (mirrored a b m).reversed w v =
      Value.compareWith (.compare op) m.order m.reversed v w := by
  unfold mirrored
  split
  next same => rw [← Value.compareWith_reversed (anti same), Value.compareWith_swap]
  next => exact Value.compareWith_swap op m.order m.reversed v w

theorem compareWith_rename {order : Value → Value → Except EvalError (Option Ordering)}
    (blind : IgnoresIdentity order) {π : Identity → Identity} (inj : π.Injective) (op : BinaryOp)
    (reversed : Bool) (v w : Value) :
    Value.compareWith op order reversed (v.rename π) (w.rename π) =
      Value.compareWith op order reversed v w := by
  simp only [Value.compareWith, Value.isNull_rename, blind π inj]

/-- The operands of a comparison can be had in either order.  If a record declares the conversion of
one, that has the same outcome before and after the other one; and if both have to be cast, one of
them can be. -/
structure Settled [GuidFormat] (s : Schema) (a b x y : Expr) (frames : List Value) (st : Store)
    (v w : Value) : Prop where
  declared : s.declared? a.ty x.ty ≠ none ∨ s.declared? b.ty x.ty ≠ none →
    x.Exchanges y frames st
  cast : s.declared? a.ty x.ty = none → s.declared? b.ty x.ty = none →
    (∃ r, v.viewAs a.ty x.ty = .ok r) ∨ ∃ r, w.viewAs b.ty x.ty = .ok r

/-- The operands that are compared can be exchanged, as the given ones can. -/
theorem Settled.exchanges (h : Settled s a b x y frames st v w)
    (unified : unify s op.symbol a b offset = .ok (x, y))
    (run : (a.evaluateBoth b frames st).1 = .ok (v, w)) (swap : a.Exchanges b frames st) :
    x.Exchanges y frames st := by
  obtain ⟨t, hx, hy, -⟩ := unify_represents unified
  by_cases ha : s.declared? a.ty x.ty = none
  · by_cases hb : s.declared? b.ty x.ty = none
    · have cast := h.cast ha hb
      rw [hx.ty] at ha hb cast
      exact hx.exchanges hy ha hb run swap cast
    · exact h.declared (Or.inr hb)
  · exact h.declared (Or.inl ha)

/-- **Comparisons can be mirrored.**  If of two records at most one speaks of the other, and the
operands are not two constants that adapt to each other, a comparison is bound if its mirror is; and
where the operands can be evaluated in either order, both give the same result.  Of a declared
comparison, the order does not look at identities, and is antisymmetric on operands of one type. -/
theorem comparison_mirrors (oneSided : s.OneSided) (apart : ¬ MutuallyAdapt a b) :
    ((∃ e, comparison s op a b offset = .ok e) ↔ ∃ e, comparison s op.swap b a offset' = .ok e) ∧
    ∀ e e', comparison s op a b offset = .ok e → comparison s op.swap b a offset' = .ok e' →
      ∀ frames st v w, (a.evaluateBoth b frames st).1 = .ok (v, w) → a.Exchanges b frames st →
        (∀ m, e = .customCompare op a b m →
          IgnoresIdentity m.order ∧ (a.ty = b.ty → Value.IsAntisymmetric m.order)) →
        (∀ x y, e = .binary (.compare op) x y .boolean → Settled s a b x y frames st v w) →
        (e.evaluate frames st).1 = (e'.evaluate frames st).1 := by
  refine ⟨⟨?_, ?_⟩, ?_⟩
  · rintro ⟨e, h⟩
    obtain ⟨e', h', -⟩ := comparison_swap offset' oneSided apart h
    exact ⟨e', h'⟩
  · rintro ⟨e, h⟩
    obtain ⟨e', h', -⟩ := comparison_swap offset oneSided (fun both => apart both.symm) h
    exact ⟨e', op.swap_swap ▸ h'⟩
  intro e e' h h' frames st v w run swap order settled
  obtain ⟨e'', h'', mirrors⟩ := comparison_swap offset' oneSided apart h
  obtain rfl := Except.ok.inj (h''.symm.trans h')
  cases mirrors with
  | @declared m found =>
    obtain ⟨blind, anti⟩ := order m rfl
    rw [evaluate_customCompare, evaluate_customCompare]
    refine swap.bind_fst fun π inj z => congrArg _ ?_
    simp only [exchange]
    rw [compareWith_mirrored anti, compareWith_rename blind inj]
  | @builtIn x y unified =>
    rw [evaluate_compare, evaluate_compare]
    refine ((settled x y rfl).exchanges unified run swap).bind_fst fun π inj z => ?_
    simp only [exchange]
    rw [Value.compareBy_swap, Value.compareBy_rename inj]

/-- A second item, of 64 bits. -/
def item64 : Expr := .parameter 1 (.int .int64)

/-- A record that declares to be less than every number of 64 bits. -/
def leastRecord : RecordDef := ⟨.declared 0, "Least", [], .reference, true⟩

/-- The comparison that the record declares. -/
def leastComparison : Comparison :=
  ⟨.this, .other (.int .int64), fun _ _ => .ok (some .lt)⟩

/-- The record with its comparison. -/
def leastSchema : Schema := ⟨[⟨leastRecord, [], [leastComparison], []⟩]⟩

/-- An item that is such a record. -/
def leastItem : Expr := .parameter 0 (.record leastRecord)

/-- The record speaks of a number only. -/
theorem leastSchema_oneSided : leastSchema.OneSided := by
  have silent (d e : RecordDef) : ¬ leastSchema.Mentions d e := by
    unfold Schema.Mentions Schema.comparisons Schema.conversions
    cases hr : leastSchema.find? d with
    | none => rintro (⟨c, ⟨⟩, -⟩ | ⟨c, ⟨⟩, -⟩)
    | some r =>
      obtain rfl := List.mem_singleton.1 (List.mem_of_find?_eq_some hr)
      rintro (⟨c, hc, mem⟩ | ⟨c, ⟨⟩, -⟩)
      obtain rfl := List.mem_singleton.1 hc
      cases List.mem_singleton.1 mem
  exact fun d e _ mentions => absurd mentions (silent d e)

/-- The tree of a comparison of an item of 32 bits and the second item. -/
def lessThan64 : Expr := .binary (.compare .lt) widened32 item64 .boolean

/-- The mirror of `lessThan64`. -/
def greaterThan32 : Expr := .binary (.compare .gt) item64 widened32 .boolean

/-- The tree of a comparison that the record declares. -/
def lessThanNumber : Expr :=
  .customCompare .lt leastItem item64 ⟨leastComparison.order, false⟩

/-- The mirror of `lessThanNumber`. -/
def greaterThanLeast : Expr :=
  .customCompare .gt item64 leastItem ⟨leastComparison.order, true⟩

/-- The second item that the comparisons are about. -/
def nine : Value := .int .int64 (Word.wrap .int64 9)

end

theorem comparison_mirrors_nine :
    (comparison leastSchema .lt element32 item64 0 = .ok lessThan64 ∧
      comparison leastSchema .gt item64 element32 0 = .ok greaterThan32 ∧
      (lessThan64.evaluate [Value.int32 5, nine] .empty).1 = .ok (.boolean true) ∧
      (greaterThan32.evaluate [Value.int32 5, nine] .empty).1 = .ok (.boolean true)) ∧
    comparison leastSchema .lt leastItem item64 0 = .ok lessThanNumber ∧
      comparison leastSchema .gt item64 leastItem 0 = .ok greaterThanLeast ∧
      (lessThanNumber.evaluate [.object 0 leastRecord [], nine] .empty).1 = .ok (.boolean true) ∧
      (greaterThanLeast.evaluate [.object 0 leastRecord [], nine] .empty).1 =
        .ok (.boolean true) := by
  have swap (v : Value) {a : Expr} (h : (item64.evaluateBoth a [v, nine] .empty).1 =
      (a.evaluateBoth item64 [v, nine] .empty).1.map (exchange id)) :
      a.Exchanges item64 [v, nine] .empty := ⟨id, fun _ _ => id, h⟩
  constructor
  · have bound : comparison leastSchema .lt element32 item64 0 = .ok lessThan64 := rfl
    have mirror : comparison leastSchema .gt item64 element32 0 = .ok greaterThan32 := rfl
    have value : (lessThan64.evaluate [Value.int32 5, nine] .empty).1 = .ok (.boolean true) := rfl
    have same := (comparison_mirrors leastSchema_oneSided (not_mutuallyAdapt (Or.inl rfl))).2
      _ _ bound mirror _ _ (Value.int32 5) nine rfl (swap (Value.int32 5) rfl) nofun
    refine ⟨bound, mirror, value, (same ?_).symm.trans value⟩
    rintro x y h
    cases h
    exact ⟨nofun, fun _ _ => Or.inr ⟨_, rfl⟩⟩
  · have bound : comparison leastSchema .lt leastItem item64 0 = .ok lessThanNumber := rfl
    have mirror : comparison leastSchema .gt item64 leastItem 0 = .ok greaterThanLeast := rfl
    have value : (lessThanNumber.evaluate [.object 0 leastRecord [], nine] .empty).1 =
        .ok (.boolean true) := rfl
    have same := (comparison_mirrors leastSchema_oneSided (not_mutuallyAdapt (Or.inl rfl))).2
      _ _ bound mirror _ _ (.object 0 leastRecord []) nine rfl (swap _ rfl)
    refine ⟨bound, mirror, value, (same ?_ nofun).symm.trans value⟩
    rintro m h
    cases h
    exact ⟨fun _ _ _ _ => rfl, nofun⟩

/-- A record with two narrow integers. -/
def pairRecord : RecordDef :=
  ⟨.declared 0, "P", [("A", .int .int8), ("B", .int .uint8)], .reference, true⟩

/-- A field of the record, as an operand. -/
def pairField (m : Member) : Expr := .member (.parameter 0 (.record pairRecord)) m

/-- The first integer. -/
def pairA : Expr := pairField ⟨"A", .int .int8, .field 0⟩

/-- The second integer. -/
def pairB : Expr := pairField ⟨"B", .int .uint8, .field 1⟩

/-- The tree of a comparison of the two integers, which are brought to 32 bits. -/
def pairLess : Expr :=
  .binary (.compare .lt) (.convert pairA none (.int .int32)) (.convert pairB none (.int .int32))
    .boolean

/-- The mirror of `pairLess`. -/
def pairGreater : Expr :=
  .binary (.compare .gt) (.convert pairB none (.int .int32)) (.convert pairA none (.int .int32))
    .boolean

/-- An instance of the record that holds no integers. -/
def malformedPair : Value :=
  .object 0 pairRecord [.boolean true, .dateTime (Word.wrap .int64 5)]

/-- A source that gives 1 and 2 in turns. -/
def alternating : Expr :=
  .placeholder 0 (.deferred (Eval.readCycle 0 [Value.int32 1, Value.int32 2])) (.int .int32)

set_option maxRecDepth 4000 in
/-- The operands of a comparison and of its mirror are evaluated and cast in different orders.
Where both operands have to be cast and neither can be, the errors are different, although the
operands have values in either order; and of two values of one source, each operand gets the first
one once. -/
theorem mirrors_differ :
    ((Source.parse ⟨"A < B", .record pairRecord, [], true⟩ Workspace.empty).1 = .ok pairLess ∧
      (Source.parse ⟨"B > A", .record pairRecord, [], true⟩ Workspace.empty).1 = .ok pairGreater ∧
      comparison Schema.empty .lt pairA pairB 0 = .ok pairLess ∧
      comparison Schema.empty .gt pairB pairA 0 = .ok pairGreater ∧
      Schema.empty.OneSided ∧ pairA.constant? = none ∧
      (pairA.evaluate [malformedPair] .empty).1 = .ok (.boolean true) ∧
      (pairB.evaluate [malformedPair] .empty).1 = .ok (.dateTime (Word.wrap .int64 5)) ∧
      (pairLess.invoke malformedPair .empty).1 = .error (.invalidCast "Boolean" "Int32") ∧
      (pairGreater.invoke malformedPair .empty).1 = .error (.invalidCast "DateTime" "Int32")) ∧
    ∃ less greater, comparison Schema.empty .lt alternating alternating 0 = .ok less ∧
      comparison Schema.empty .gt alternating alternating 0 = .ok greater ∧
      alternating.constant? = none ∧
      (less.evaluate [] (Store.empty.addSource).2).1 = .ok (.boolean true) ∧
      (greater.evaluate [] (Store.empty.addSource).2).1 = .ok (.boolean false) := by
  have oneSided : Schema.empty.OneSided := by
    rintro d e - (⟨c, ⟨⟩, -⟩ | ⟨c, ⟨⟩, -⟩)
  exact ⟨⟨rfl, rfl, rfl, rfl, oneSided, rfl, rfl, rfl, rfl, rfl⟩, _, _, rfl, rfl, rfl, rfl, rfl⟩

end Binding

end TypedExpr
