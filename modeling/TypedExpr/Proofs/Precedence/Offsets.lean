import TypedExpr.Binding
import TypedExpr.Parameter

/-!
# Binding and positions

The position that a rule of binding is given appears in its errors only, and in all of them: what
is bound at one position is bound at every other, and what is refused is refused at its position.

* `Binding.Moves` — the results of a rule at two positions.
* `Binding.binary_moves`, `Binding.conditional_moves`, … — the rules of binding.
* `Binding.parameter_moves` — the parameters.
-/

namespace TypedExpr.Binding

variable {format : GuidFormat} {α β : Type} {s : Schema} {l r e a b : Expr} {o p : Nat}

/-- Results at two positions: one value, or errors of one cause, each at its own position. -/
inductive Moves (o p : Nat) : Except CompileError α → Except CompileError α → Prop
  | value (a : α) : Moves o p (.ok a) (.ok a)
  | error (cause : ParseCause) :
    Moves o p (.error (.ofCause cause o)) (.error (.ofCause cause p))

namespace Moves

variable {x y : Except CompileError α}

theorem bind {f g : α → Except CompileError β} (hx : Moves o p x y)
    (hf : ∀ v, Moves o p (f v) (g v)) : Moves o p (x >>= f) (y >>= g) := by
  cases hx with
  | value a => exact hf a
  | error cause => exact .error cause

/-- Where the first result is a value, the second is the same value. -/
theorem ok (h : Moves o p x y) (v : α) : x = .ok v → y = .ok v := by
  cases h with
  | value a => exact id
  | error cause => rintro ⟨⟩

/-- An error is at the position of the rule. -/
theorem cause (h : Moves o p x y) : ∀ e, x = .error e → ∃ cause, e = .ofCause cause o := by
  cases h with
  | value a => rintro _ ⟨⟩
  | error cause =>
    rintro _ ⟨⟩
    exact ⟨cause, rfl⟩

end Moves

/-! ## Operators -/

theorem convertBoth_moves (operator : String) :
    Moves o p (convertBoth s operator l r o) (convertBoth s operator l r p) := by
  unfold convertBoth
  simp only
  split
  · exact .value _
  · exact .value _
  · exact .value _
  · split
    · exact .value _
    · exact .error _

theorem unify_moves (operator : String) :
    Moves o p (unify s operator l r o) (unify s operator l r p) := by
  unfold unify
  split
  · exact .value _
  · split
    · exact .value _
    · split
      · exact .value _
      · exact convertBoth_moves _

theorem arithmetic_moves (op : ArithmeticOp) :
    Moves o p (arithmetic s op l r o) (arithmetic s op l r p) := by
  refine (unify_moves _).bind fun ⟨x, y⟩ => ?_
  simp only
  split
  · exact .value _
  · exact .error _

theorem bitwise_moves (op : BitwiseOp) : Moves o p (bitwise s op l r o) (bitwise s op l r p) := by
  refine (unify_moves _).bind fun ⟨x, y⟩ => ?_
  simp only
  split
  · exact .value _
  · exact .value _
  · exact .value _
  · exact .error _

theorem shift_moves (op : ShiftOp) : Moves o p (shift s op l r o) (shift s op l r p) := by
  unfold shift
  simp only
  split
  · exact .value _
  · exact .error _

theorem sum_moves : Moves o p (sum s l r o) (sum s l r p) := by
  unfold sum
  split
  · exact .value _
  · exact arithmetic_moves _

theorem logical_moves (op : LogicalOp) : Moves o p (logical op l r o) (logical op l r p) := by
  unfold logical
  split
  · exact .value _
  · exact .error _

theorem comparison_moves (op : CompareOp) :
    Moves o p (comparison s op l r o) (comparison s op l r p) := by
  unfold comparison
  split
  · exact .value _
  · refine (unify_moves _).bind fun ⟨x, y⟩ => ?_
    simp only
    split
    · exact .value _
    · exact .error _

/-- Binary operators are bound alike at all positions. -/
theorem binary_moves (op : BinaryOp) : Moves o p (binary s op l r o) (binary s op l r p) := by
  unfold binary
  split
  · exact sum_moves
  · exact sum_moves
  · exact arithmetic_moves _
  · exact bitwise_moves _
  · exact shift_moves _
  · exact comparison_moves _
  · exact logical_moves _

/-! ## Other forms -/

theorem conditional_moves : Moves o p (conditional s e a b o) (conditional s e a b p) := by
  unfold conditional
  split
  · exact (unify_moves _).bind fun ⟨x, y⟩ => .value _
  · exact .error _

theorem contains_moves : Moves o p (contains s e a o) (contains s e a p) := by
  unfold contains
  split
  · exact .error _
  · split
    · exact .error _
    · exact .value _

theorem oneOf_moves (candidates : List Expr) :
    Moves o p (oneOf s e candidates o) (oneOf s e candidates p) := by
  unfold oneOf
  generalize (none : Option Expr) = found
  induction candidates generalizing found with
  | nil => exact .value _
  | cons candidate candidates ih =>
    rw [List.foldlM_cons, List.foldlM_cons]
    exact ((comparison_moves .eq).bind fun test => .value _).bind ih

theorem explicitConversion_moves (target : Ty) :
    Moves o p (explicitConversion s e target o) (explicitConversion s e target p) := by
  unfold explicitConversion
  split
  · exact .value _
  · simp only
    split
    · split
      · exact .value _
      · split
        · exact .value _
        · exact .error _
    · exact .error _

theorem negate_moves : Moves o p (negate s e o) (negate s e p) := by
  unfold negate
  simp only
  split
  · exact .value _
  · split
    · exact .value _
    · exact .error _
    · split
      · exact .value _
      · exact .error _

theorem complement_moves : Moves o p (complement s e o) (complement s e p) := by
  unfold complement
  split
  · exact .value _
  · exact .value _
  · exact .error _

theorem parameter_moves (params : List Parameter) (index : Nat) :
    Moves o p (Parameter.bind params index o) (Parameter.bind params index p) := by
  unfold Parameter.bind
  split
  · exact .value _
  · exact .error _

end TypedExpr.Binding
