import TypedExpr.Proofs.Operands.Mirrored

/-!
# Equality and inequality

Of the operators `=` and `!=` on the same operands, exactly one holds.  There is one exception: a
declared order may leave two operands unordered, and unordered operands satisfy no comparison.

* `Schema.ComparisonMatch.Unordered` — the operands that a declared order leaves unordered.
* `Value.compareWith_ne` — one declared comparison of two values.
* **`Binding.inequality_negates`** — the operators on values, and the trees that they are bound to.
* `Binding.unordered_neither` — two operands that are neither equal nor different.
-/

namespace TypedExpr

/-! ## Values -/

namespace Schema.ComparisonMatch

/-- What the declared order says of two operands, in the order in which they stand. -/
def verdict (m : ComparisonMatch) (v w : Value) : Except EvalError (Option Ordering) :=
  if m.reversed then (m.order w v).map (·.map Ordering.swap) else m.order v w

/-- Neither operand is null, and the declared order leaves the two unordered. -/
structure Unordered (m : ComparisonMatch) (v w : Value) : Prop where
  left : v.isNull = false
  right : w.isNull = false
  silent : m.verdict v w = .ok none

end Schema.ComparisonMatch

namespace Value

variable {m : Schema.ComparisonMatch} {v w : Value} {p : Bool}

/-- Operands other than null are compared by the verdict; without one, nothing holds of them. -/
theorem compareWith_verdict (op : CompareOp) (m : Schema.ComparisonMatch)
    (notNull : (v.isNull || w.isNull) = false) :
    compareWith (.compare op) m.order m.reversed v w =
      (m.verdict v w).map fun o => (o.map op.accepts).getD false := by
  unfold compareWith Schema.ComparisonMatch.verdict
  rw [if_neg (by rw [notNull]; exact Bool.false_ne_true)]
  cases m.reversed with
  | true => rw [if_pos rfl, if_pos rfl]; cases m.order w v <;> rfl
  | false => cases m.order v w <;> rfl

/-- An ordering is accepted by exactly one of the two operators. -/
theorem accepts_ne (o : Ordering) : CompareOp.ne.accepts o = !CompareOp.eq.accepts o := by
  cases o <;> rfl

/-- **A declared inequality negates the equality**, unless the operands are unordered: then neither
holds. -/
theorem compareWith_ne (h : compareWith (.compare .eq) m.order m.reversed v w = .ok p) :
    (m.Unordered v w → p = false ∧
      compareWith (.compare .ne) m.order m.reversed v w = .ok false) ∧
    (¬ m.Unordered v w → compareWith (.compare .ne) m.order m.reversed v w = .ok !p) := by
  cases null : v.isNull || w.isNull with
  | true =>
    unfold compareWith at h ⊢
    rw [if_pos null] at h ⊢
    cases h
    refine ⟨fun un => ?_, fun _ => rfl⟩
    rw [un.left, un.right] at null
    cases null
  | false =>
    rw [compareWith_verdict _ m null] at h ⊢
    rw [Bool.or_eq_false_iff] at null
    cases hv : m.verdict v w with
    | error e =>
      rw [hv] at h
      cases h
    | ok o =>
      rw [hv] at h
      cases o with
      | none =>
        cases h
        exact ⟨fun _ => ⟨rfl, rfl⟩, fun ordered => absurd ⟨null.1, null.2, hv⟩ ordered⟩
      | some o =>
        cases h
        refine ⟨fun un => ?_, fun _ => congrArg Except.ok (accepts_ne o)⟩
        cases hv.symm.trans un.silent

end Value

/-! ## Trees -/

namespace Binding

section

variable {format : GuidFormat} {s : Schema} {a b e e' x y : Expr} {offset offset' : Nat}
  {operator operator' : String}

/-- Which operator wants the operands in one type matters for the error alone. -/
theorem unify_operator (h : unify s operator a b offset = .ok (x, y)) :
    unify s operator' a b offset' = .ok (x, y) := by
  unfold unify at h ⊢
  split at h
  next same => rwa [if_pos same]
  next differ =>
    rw [if_neg differ]
    cases hb : adapt? b a.ty with
    | some y' => rwa [hb] at h
    | none =>
      cases ha : adapt? a b.ty with
      | some x' => rwa [hb, ha] at h
      | none =>
        rw [hb, ha] at h
        exact convertBoth_eq_ok_iff.2 (convertBoth_eq_ok_iff.1 h)

/-- How an equality and the inequality of the same operands are bound: by one declared order, or
with the same two operands. -/
inductive Opposed (s : Schema) (a b : Expr) : Expr → Expr → Prop
  | declared {m : Schema.ComparisonMatch} (found : s.findComparison? a.ty b.ty = some m) :
      Opposed s a b (.customCompare .eq a b m) (.customCompare .ne a b m)
  | builtIn {x y : Expr} (none : s.findComparison? a.ty b.ty = none) :
      Opposed s a b (.binary (.compare .eq) x y .boolean) (.binary (.compare .ne) x y .boolean)

/-- Where an equality is bound, so is the inequality. -/
theorem comparison_ne (offset' : Nat) (h : comparison s .eq a b offset = .ok e) :
    ∃ e', comparison s .ne a b offset' = .ok e' ∧ Opposed s a b e e' := by
  cases hm : s.findComparison? a.ty b.ty with
  | some m =>
    rw [comparison_of_declared hm] at h
    cases h
    exact ⟨_, comparison_of_declared hm, .declared hm⟩
  | none =>
    obtain ⟨x, y, unified, -, rfl⟩ := (comparison_eq_ok_iff hm).1 h
    have bound : comparison s .ne a b offset' = .ok (.binary (.compare .ne) x y .boolean) :=
      (comparison_eq_ok_iff hm).2 ⟨x, y, unify_operator unified, rfl, rfl⟩
    exact ⟨_, bound, .builtIn hm⟩

/-- What is made of a value without the store succeeds where the value does and is accepted. -/
theorem bind_lift_eq_ok {α β : Type} {c : Eval α} {k : α → Except EvalError β} {st st' : Store}
    {r : β} : (c >>= fun z => liftM (k z)) st = (.ok r, st') ↔
      ∃ z, c st = (.ok z, st') ∧ k z = .ok r := by
  rw [bind_eq_ok]
  constructor
  · rintro ⟨z, t, run, lift⟩
    cases hk : k z with
    | error error =>
      rw [hk] at lift
      cases lift
    | ok r' =>
      rw [hk] at lift
      cases lift
      exact ⟨z, run, hk⟩
  · rintro ⟨z, run, hk⟩
    refine ⟨z, st', run, ?_⟩
    rw [hk]
    rfl

/-- The values of two operands are compared by a declared order, which leaves them unordered. -/
def MeetUnordered [GuidFormat] (s : Schema) (a b : Expr) (frames : List Value) (st : Store) :
    Prop :=
  ∃ m v w, s.findComparison? a.ty b.ty = some m ∧
    (a.evaluateBoth b frames st).1 = .ok (v, w) ∧ m.Unordered v w

/-- Where an equality has a truth value in a run, so has the inequality of the same operands: the
opposite one, unless the operands are unordered. -/
theorem Opposed.evaluate (h : Opposed s a b e e') {frames : List Value} {st st' : Store} {v : Value}
    (run : e.evaluate frames st = (.ok v, st')) :
    ∃ p, v = .boolean p ∧
      (MeetUnordered s a b frames st → p = false ∧
        e'.evaluate frames st = (.ok (.boolean false), st')) ∧
      (¬ MeetUnordered s a b frames st → e'.evaluate frames st = (.ok (.boolean !p), st')) := by
  cases h with
  | @declared m found =>
    rw [evaluate_customCompare] at run ⊢
    obtain ⟨⟨l, r⟩, both, compared⟩ := bind_lift_eq_ok.1 run
    have met : MeetUnordered s a b frames st ↔ m.Unordered l r := by
      constructor
      · rintro ⟨m', l', r', found', both', unordered⟩
        cases found.symm.trans found'
        cases (congrArg Prod.fst both).symm.trans both'
        exact unordered
      · intro unordered
        exact ⟨m, l, r, found, congrArg Prod.fst both, unordered⟩
    rw [met]
    simp only at compared
    cases hp : Value.compareWith (.compare .eq) m.order m.reversed l r with
    | error error =>
      rw [hp] at compared
      cases compared
    | ok p =>
      rw [hp] at compared
      cases compared
      obtain ⟨neither, negated⟩ := Value.compareWith_ne hp
      refine ⟨p, rfl, fun unordered => ⟨(neither unordered).1, ?_⟩, fun ordered => ?_⟩
      · exact bind_lift_eq_ok.2 ⟨_, both, congrArg (Except.map _) (neither unordered).2⟩
      · exact bind_lift_eq_ok.2 ⟨_, both, congrArg (Except.map _) (negated ordered)⟩
  | @builtIn x y none =>
    rw [evaluate_compare] at run ⊢
    obtain ⟨z, both, compared⟩ := bind_lift_eq_ok.1 run
    cases compared
    refine ⟨_, rfl, ?_, fun _ => bind_lift_eq_ok.2 ⟨z, both, rfl⟩⟩
    rintro ⟨m, -, -, found, -⟩
    cases none.symm.trans found

/-- **`!=` negates `=`**, on values and in trees, for every built-in and every declared comparison,
which may be declared in either order.  Where an equality is bound, so is the inequality; and where
it has a truth value, the inequality has the opposite one.  Only operands that a declared order
leaves unordered are neither equal nor different. -/
theorem inequality_negates (s : Schema) (a b : Expr) (m : Schema.ComparisonMatch) (v w : Value) :
    Value.compareBy (.compare .ne) v w = (!Value.compareBy (.compare .eq) v w) ∧
    (∀ p, Value.compareWith (.compare .eq) m.order m.reversed v w = .ok p →
      (m.Unordered v w → p = false ∧
        Value.compareWith (.compare .ne) m.order m.reversed v w = .ok false) ∧
      (¬ m.Unordered v w →
        Value.compareWith (.compare .ne) m.order m.reversed v w = .ok !p)) ∧
    ∀ e offset offset', comparison s .eq a b offset = .ok e →
      ∃ e', comparison s .ne a b offset' = .ok e' ∧
        ∀ frames st r st', e.evaluate frames st = (.ok r, st') →
          ∃ p, r = .boolean p ∧
            (MeetUnordered s a b frames st → p = false ∧
              e'.evaluate frames st = (.ok (.boolean false), st')) ∧
            (¬ MeetUnordered s a b frames st →
              e'.evaluate frames st = (.ok (.boolean !p), st')) := by
  refine ⟨rfl, fun p h => Value.compareWith_ne h, ?_⟩
  intro e offset offset' h
  obtain ⟨e', bound, opposed⟩ := comparison_ne offset' h
  exact ⟨e', bound, fun frames st r st' run => opposed.evaluate run⟩

end

theorem inequality_negates_least :
    ∃ e e', comparison leastSchema .eq leastItem item64 0 = .ok e ∧
      comparison leastSchema .ne leastItem item64 0 = .ok e' ∧
      (e.evaluate [.object 0 leastRecord [], nine] .empty).1 = .ok (.boolean false) ∧
      (e'.evaluate [.object 0 leastRecord [], nine] .empty).1 = .ok (.boolean true) := by
  obtain ⟨-, -, opposed⟩ :=
    inequality_negates leastSchema leastItem item64 ⟨fun _ _ => .ok none, false⟩ .null .null
  obtain ⟨e', bound, negates⟩ := opposed _ 0 0 rfl
  obtain ⟨p, hp, -, negated⟩ := negates [.object 0 leastRecord [], nine] .empty _ _ rfl
  have ordered : ¬ MeetUnordered leastSchema leastItem item64
      [.object 0 leastRecord [], nine] .empty := by
    rintro ⟨m, v, w, found, both, unordered⟩
    cases found
    cases both
    cases unordered.silent
  cases hp
  exact ⟨_, e', rfl, bound, rfl, congrArg Prod.fst (negated ordered)⟩

/-- A record whose instances are never ordered. -/
def aloofRecord : RecordDef := ⟨.declared 0, "P", [("X", .int .int32)], .reference, true⟩

/-- The record with its comparison. -/
def aloofSchema : Schema :=
  ⟨[⟨aloofRecord, [], [⟨.this, .this, fun _ _ => .ok none⟩], []⟩]⟩

/-- An instance of the record. -/
def aloof : Value := .object 0 aloofRecord [Value.int32 1]

/-- Where a record leaves its instances unordered, these are neither equal to themselves nor
different. -/
theorem unordered_neither :
    Value.compareWith (.compare .eq) (fun _ _ => .ok none) false aloof aloof = .ok false ∧
      Value.compareWith (.compare .ne) (fun _ _ => .ok none) false aloof aloof = .ok false ∧
      Source.truth? ⟨"($ = $) = ($ != $)", .record aloofRecord, [], true⟩
        ⟨Registry.new aloofSchema, 0⟩ aloof = some true :=
  ⟨rfl, rfl, by decide +kernel⟩

end Binding

end TypedExpr
