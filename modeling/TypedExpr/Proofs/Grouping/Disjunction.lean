import Mathlib.Data.List.Forall2
import TypedExpr.Expr.Evaluate
import TypedExpr.Proofs.Operands.Mirrored

/-!
# Disjunctions of tests

A membership in a list is a disjunction of tests, one for each candidate.  A disjunction runs its
tests from left to right, up to the first that holds.

* `Expr.anyOf` — tests joined by `or`.
* `Binding.oneOf_eq_ok` — a membership is the disjunction of its tests.
* `Eval.firstHolds` — tests one after the other, up to the first that holds.
* **`Expr.evaluate_anyOf`** — the evaluation of a disjunction.
-/

namespace TypedExpr

variable {format : GuidFormat}

/-! ## Binding -/

/-- One test or another one. -/
def Expr.either (test other : Expr) : Expr := .binary (.logical .or) test other .boolean

/-- Tests joined by `or`, grouped to the left. -/
def Expr.anyOf : List Expr → Option Expr
  | [] => none
  | test :: tests => some (tests.foldl Expr.either test)

namespace Binding

variable {s : Schema} {item : Expr} {offset : Nat}

/-- The tests of an item against candidates. -/
def Tests [GuidFormat] (s : Schema) (item : Expr) (offset : Nat) : List Expr → List Expr → Prop :=
  List.Forall₂ fun candidate test => comparison s .eq item candidate offset = .ok test

/-- One more candidate in a membership. -/
def joined (any? : Option Expr) (test : Expr) : Option Expr :=
  some (any?.elim test fun any => any.either test)

theorem foldl_joined_some (any : Expr) (tests : List Expr) :
    tests.foldl joined (some any) = some (tests.foldl Expr.either any) := by
  induction tests generalizing any with
  | nil => rfl
  | cons test tests ih => exact ih (any.either test)

theorem foldl_joined (tests : List Expr) : tests.foldl joined none = Expr.anyOf tests := by
  cases tests with
  | nil => rfl
  | cons test tests => exact foldl_joined_some test tests

/-- Binding and joining the tests one after the other is binding them first, and joining them
then. -/
theorem foldlM_joined_eq_ok {candidates : List Expr} {any? e? : Option Expr} :
    candidates.foldlM (fun any? candidate => do
        let test ← comparison s .eq item candidate offset
        return joined any? test) any? = .ok e? ↔
      ∃ tests, Tests s item offset candidates tests ∧ tests.foldl joined any? = e? := by
  induction candidates generalizing any? with
  | nil =>
    constructor
    · rintro ⟨⟩
      exact ⟨[], .nil, rfl⟩
    · rintro ⟨tests, h, rfl⟩
      obtain rfl := List.forall₂_nil_left_iff.1 h
      rfl
  | cons candidate candidates ih =>
    rw [List.foldlM_cons]
    constructor
    · intro h
      obtain ⟨any?, first, others⟩ := exists_of_bind_eq_ok h
      obtain ⟨test, bound, ⟨⟩⟩ := exists_of_bind_eq_ok first
      obtain ⟨tests, more, rfl⟩ := ih.1 others
      exact ⟨test :: tests, .cons bound more, rfl⟩
    · rintro ⟨tests, h, rfl⟩
      obtain ⟨test, tests, bound, more, rfl⟩ := List.forall₂_cons_left_iff.1 h
      rw [bound]
      exact ih.2 ⟨tests, more, rfl⟩

/-- **A membership in a list is the disjunction of its tests.** -/
theorem oneOf_eq_ok {candidates : List Expr} {e? : Option Expr} :
    oneOf s item candidates offset = .ok e? ↔
      ∃ tests, Tests s item offset candidates tests ∧ Expr.anyOf tests = e? := by
  have shape : oneOf s item candidates offset = candidates.foldlM (fun any? candidate => do
      let test ← comparison s .eq item candidate offset
      return joined any? test) none := by
    unfold oneOf
    congr 1
    funext any? candidate
    cases any? <;> rfl
  rw [shape, foldlM_joined_eq_ok]
  simp only [foldl_joined]

end Binding

/-! ## Evaluation -/

/-- Tests one after the other, up to the first that holds. -/
def Eval.firstHolds : List (Eval Value) → Eval Value
  | [] => return .boolean false
  | test :: tests => do
    match ← test with
    | .boolean true => return .boolean true
    | _ => firstHolds tests

/-- **Only a test that is run fails the tests**: no test in front of it holds. -/
theorem Eval.firstHolds_error {tests : List (Eval Value)} {s s' : Store} {error : EvalError}
    (h : Eval.firstHolds tests s = (.error error, s')) :
    ∃ before test after u, tests = before ++ test :: after ∧
      Eval.firstHolds before s = (.ok (.boolean false), u) ∧ test u = (.error error, s') := by
  induction tests generalizing s with
  | nil => cases h
  | cons test tests ih =>
    rw [firstHolds, bind_apply] at h
    rcases run : test s with ⟨error' | v, u⟩ <;> rw [run] at h
    · cases h
      exact ⟨[], test, tests, s, rfl, rfl, run⟩
    · simp only at h
      split at h
      next => cases h
      next other =>
        obtain ⟨before, failed, after, u', rfl, none, error⟩ := ih h
        refine ⟨test :: before, failed, after, u', rfl, ?_, error⟩
        rw [firstHolds, bind_of_ok run]
        simpa only using none

namespace Expr

variable {test other e : Expr} {tests : List Expr}

/-- The expression is a truth value, in any evaluation. -/
structure IsTest [GuidFormat] (e : Expr) : Prop where
  ty : e.ty = .boolean
  value {frames : List Value} {v : Value} {s s' : Store} :
    e.evaluate frames s = (.ok v, s') → ∃ b, v = .boolean b

theorem evaluate_either (frames : List Value) :
    (test.either other).evaluate frames = (do
      match ← test.evaluate frames with
      | .boolean true => return .boolean true
      | _ => other.evaluate frames) := rfl

theorem isTest_either (test : Expr) (h : other.IsTest) : (test.either other).IsTest where
  ty := rfl
  value := by
    intro frames v s s' run
    rw [evaluate_either, bind_eq_ok] at run
    obtain ⟨u, t, -, run⟩ := run
    split at run
    · cases run
      exact ⟨true, rfl⟩
    · exact h.value run

/-- The last test decides, if no other one holds. -/
theorem IsTest.firstHolds_singleton (h : test.IsTest) (frames : List Value) :
    Eval.firstHolds [test.evaluate frames] = test.evaluate frames := by
  funext s
  rw [Eval.firstHolds, bind_apply]
  rcases run : test.evaluate frames s with ⟨error | v, s'⟩
  · rfl
  · obtain ⟨b, rfl⟩ := h.value run
    cases b <;> rfl

/-- A disjunction in front of other tests is two of them. -/
theorem firstHolds_either (frames : List Value) (others : List (Eval Value)) :
    Eval.firstHolds ((test.either other).evaluate frames :: others) =
      Eval.firstHolds (test.evaluate frames :: other.evaluate frames :: others) := by
  rw [evaluate_either, Eval.firstHolds, bind_assoc]
  conv_rhs => rw [Eval.firstHolds]
  congr 1
  funext v
  split
  · rfl
  · rfl

/-- **A disjunction runs its tests** from left to right, up to the first that holds. -/
theorem evaluate_anyOf (tests_are : ∀ test ∈ tests, IsTest test) (h : anyOf tests = some e)
    (frames : List Value) :
    e.evaluate frames = Eval.firstHolds (tests.map (·.evaluate frames)) := by
  cases tests with
  | nil => cases h
  | cons test tests =>
    obtain rfl := Option.some.inj h
    clear h
    induction tests generalizing test with
    | nil => exact ((tests_are test List.mem_cons_self).firstHolds_singleton frames).symm
    | cons other tests ih =>
      obtain ⟨-, second, others⟩ : IsTest test ∧ IsTest other ∧ ∀ t ∈ tests, IsTest t := by
        simpa using tests_are
      rw [List.foldl_cons, ih (test.either other)
        (List.forall_mem_cons.2 ⟨isTest_either test second, others⟩)]
      exact firstHolds_either frames _

/-- The expression runs tests from left to right, up to the first that holds, and fails only with
the error of a test that is run. -/
structure Tries [GuidFormat] (e : Expr) (tests : List Expr) : Prop where
  runs (frames : List Value) :
    e.evaluate frames = Eval.firstHolds (tests.map (·.evaluate frames))
  fails {frames : List Value} {error : EvalError} {s s' : Store} :
    e.evaluate frames s = (.error error, s') → ∃ before test after u,
      tests = before ++ test :: after ∧
        Eval.firstHolds (before.map (·.evaluate frames)) s = (.ok (.boolean false), u) ∧
        test.evaluate frames u = (.error error, s')

theorem tries_of_anyOf (tests_are : ∀ test ∈ tests, IsTest test) (h : anyOf tests = some e) :
    e.Tries tests where
  runs := evaluate_anyOf tests_are h
  fails := by
    intro frames error s s' failed
    rw [evaluate_anyOf tests_are h] at failed
    obtain ⟨first, run, others, u, split, none, failed⟩ := Eval.firstHolds_error failed
    obtain ⟨before, more, rfl, rfl, rest⟩ := List.map_eq_append_iff.1 split
    obtain ⟨test, after, rfl, rfl, rfl⟩ := List.map_eq_cons_iff.1 rest
    exact ⟨before, test, after, u, rfl, none, failed⟩

end Expr

/-- A comparison is a test. -/
theorem Binding.comparison_isTest {s : Schema} {op : CompareOp} {a b e : Expr} {offset : Nat}
    (h : comparison s op a b offset = .ok e) : e.IsTest := by
  cases found : s.findComparison? a.ty b.ty with
  | some m =>
    rw [comparison_of_declared found] at h
    cases h
    refine ⟨rfl, fun run => ?_⟩
    rw [evaluate_customCompare, bind_eq_ok] at run
    obtain ⟨z, t, -, run⟩ := run
    cases result : Value.compareWith (.compare op) m.order m.reversed z.1 z.2 with
    | error e =>
      rw [result] at run
      cases run
    | ok b =>
      rw [result] at run
      cases run
      exact ⟨b, rfl⟩
  | none =>
    obtain ⟨x, y, -, -, rfl⟩ := (comparison_eq_ok_iff found).1 h
    refine ⟨rfl, fun run => ?_⟩
    rw [evaluate_compare, bind_eq_ok] at run
    obtain ⟨z, t, -, ⟨⟩⟩ := run
    exact ⟨_, rfl⟩

theorem Binding.Tests.isTest {s : Schema} {item : Expr} {offset : Nat} {cs ts : List Expr}
    (h : Tests s item offset cs ts) : ∀ t ∈ ts, t.IsTest := by
  induction h with
  | nil => exact nofun
  | cons bound _ ih => exact List.forall_mem_cons.2 ⟨comparison_isTest bound, ih⟩

end TypedExpr
