import TypedExpr.Proofs.Evaluation.Soundness

/-!
# The indifferent reading

Nothing is known of values, and every error is expected but that of a missing frame.  Operations on
values know of no frames, so they respect this reading on values of any form.

* `Value.cast_fails`, `Value.combine_fails`, … — the errors of operations on any values.
* **`indifferent`** — every operation respects this reading, whatever the code from outside does.
-/

namespace TypedExpr

variable {format : GuidFormat}

namespace EvalError

/-- Whether the error says that a frame was missing. -/
def isUnbound : EvalError → Bool
  | .noFrame _ => true
  | _ => false

/-- Whether a cast can fail with the error. -/
def isOfCast : EvalError → Bool
  | .nullReference _ | .invalidFormat .. | .invalidCast .. => true
  | _ => false

theorem isUnbound_of_not_isStuck {e : EvalError} (h : e.isStuck = false) : e.isUnbound = false := by
  cases e with
  | noFrame _ => cases h
  | _ => rfl

theorem isUnbound_of_isOfCast {e : EvalError} (h : e.isOfCast = true) : e.isUnbound = false := by
  cases e with
  | noFrame _ => cases h
  | _ => rfl

end EvalError

namespace Value

/-! ## Casts -/

theorem castNumber_fails (v : Value) (goal : Ty) :
    Meets (v.castNumber goal) (fun _ => True) (·.isOfCast = true) := by
  unfold castNumber
  split
  · exact meets_ok.2 trivial
  · exact meets_error.2 rfl

theorem readAs_fails (s : String) (goal : Ty) (r : Option Value) :
    Meets (readAs s goal r) (fun _ => True) (·.isOfCast = true) := by
  unfold readAs
  split
  · exact meets_ok.2 trivial
  · exact meets_error.2 rfl

theorem castText_fails (s : String) (goal : Ty) :
    Meets (castText s goal) (fun _ => True) (·.isOfCast = true) := by
  unfold castText
  split
  · exact readAs_fails ..
  · exact readAs_fails ..
  · exact readAs_fails ..
  · exact readAs_fails ..
  · exact readAs_fails ..
  · exact castNumber_fails ..

/-- A cast fails on null, on a text that cannot be read, or because it is refused. -/
theorem cast_fails (v : Value) (t : Ty) :
    Meets (v.cast t) (fun _ => True) (·.isOfCast = true) := by
  unfold cast
  split
  · split
    · exact meets_ok.2 trivial
    · exact meets_error.2 rfl
  · unfold castPlain
    split
    · exact meets_ok.2 trivial
    · exact meets_ok.2 trivial
    · split
      · exact castText_fails ..
      · split
        · exact meets_ok.2 trivial
        · exact castNumber_fails ..

/-! ## Operators -/

theorem combine_fails (op : BinaryOp) (a b : Value) :
    Meets (combine op a b) (fun _ => True) (·.isUnbound = false) := by
  unfold combine
  split
  · exact meets_ok.2 trivial
  · exact meets_ok.2 trivial
  · split
    · split
      · exact Meets.map ((meets_onWords _ _ _).mono_error fun _ he => he.2 ▸ rfl)
      · exact meets_ok.2 trivial
      · exact meets_error.2 rfl
    · exact meets_error.2 rfl
  · split
    · exact meets_ok.2 trivial
    · exact meets_error.2 rfl
  · split
    · exact meets_ok.2 trivial
    · exact meets_error.2 rfl
  · split
    · exact meets_ok.2 trivial
    · exact meets_error.2 rfl
  · split
    · split
      · exact meets_ok.2 trivial
      · exact meets_error.2 rfl
    · exact meets_error.2 rfl
  · exact meets_error.2 rfl

theorem shift_fails (op : BinaryOp) (a b : Value) :
    Meets (a.shift op b) (fun _ => True) (·.isUnbound = false) := by
  unfold shift
  split
  · exact meets_ok.2 trivial
  · split
    · split
      · exact meets_ok.2 trivial
      · exact meets_error.2 rfl
    · exact meets_error.2 rfl

theorem applyUnary_fails (op : UnaryOp) (v : Value) :
    Meets (applyUnary op v) (fun _ => True) (·.isUnbound = false) := by
  unfold applyUnary
  split
  case h_11 => exact meets_error.2 rfl
  all_goals exact meets_ok.2 trivial

/-! ## Parts -/

theorem itemsFor_fails (m : SequenceMethod) (v : Value) :
    Meets (v.itemsFor m) (fun _ => True) (·.isUnbound = false) := by
  unfold itemsFor
  split
  · exact meets_ok.2 trivial
  · split
    · exact meets_error.2 rfl
    · exact meets_error.2 rfl

theorem itemAt_fails (v p : Value) :
    Meets (v.itemAt p) (fun _ => True) (·.isUnbound = false) := by
  unfold itemAt
  simp only
  split
  · exact meets_error.2 rfl
  · split
    · exact meets_ok.2 trivial
    · exact meets_error.2 rfl
  · split
    · exact meets_ok.2 trivial
    · exact meets_error.2 rfl

theorem fieldAt_fails (t : Ty) (name : String) (i : Nat) (v : Value) :
    Meets (v.fieldAt t name i) (fun _ => True) (·.isUnbound = false) := by
  unfold fieldAt
  split
  · split
    · exact meets_ok.2 trivial
    · exact meets_error.2 rfl
  · exact meets_error.2 rfl
  · exact meets_error.2 rfl

end Value

theorem Property.read_fails (p : Property) (v : Value) :
    Meets (p.read v) (fun _ => True) (·.isUnbound = false) := by
  unfold Property.read
  split
  · exact Meets.map ((meets_receiverString v).mono_error fun _ =>
      EvalError.isUnbound_of_not_isStuck)
  · exact meets_ok.2 trivial
  · split
    · exact meets_error.2 rfl
    · exact meets_ok.2 trivial
  · split
    · exact meets_ok.2 trivial
    · exact meets_error.2 rfl

theorem Items.truth_fails (v : Value) :
    Meets (Items.truth v) (fun _ => True) (·.isUnbound = false) := by
  unfold Items.truth
  split
  · exact meets_ok.2 trivial
  · exact meets_error.2 rfl

/-! ## Methods -/

/-- A method that is not declared fails as expected on a receiver of any form. -/
theorem Method.fails_builtin {s : Schema} {t : Ty} {m : Method} (v : Value) (args : List Value)
    (known : m ∈ (MemberTable.of s t).methods) (builtin : ∀ d, t = .record d → m ∉ s.methods d) :
    Ensures (fun _ => True) (m.run v args) (fun _ => True) (·.isUnbound = false) := by
  rcases MemberTable.mem_methods known with known | rfl
  · cases t with
    | record d => exact absurd known (builtin d rfl)
    | enum d =>
      obtain rfl := List.mem_singleton.1 known
      exact .lift (meets_ok.2 trivial)
    | string =>
      exact (stringMethods_total False m known v args).mono (fun _ _ => trivial)
        fun _ => EvalError.isUnbound_of_not_isStuck
    | nullable t =>
      obtain rfl := List.mem_singleton.1 known
      exact .lift (meets_ok.2 trivial)
    | _ => cases known
  · exact .lift (meets_ok.2 trivial)

/-! ## The reading -/

/-- **Operations on values do not fail for want of a frame**, whatever the values are. -/
theorem indifferent (P : Premises) :
    Reading P True (fun _ _ => True) (·.isUnbound = false) where
  admits _ := trivial
  unstuck := EvalError.isUnbound_of_not_isStuck
  nonNullable _ _ := trivial
  of_nonNullable _ := trivial
  sequence _ := trivial
  object _ := trivial
  items {v _ _} m _ _ := (v.itemsFor_fails m).mono (fun _ _ _ _ => trivial) fun _ => id
  itemAt _ _ _ := Value.itemAt_fails ..
  field _ _ _ := Value.fieldAt_fails ..
  property _ _ _ _ := Property.read_fails ..
  truth _ := Items.truth_fails _
  arithmetic _ _ _ _ := Value.combine_fails ..
  bitwise _ _ _ _ := Value.combine_fails ..
  shift _ _ _ _ _ _ := Value.shift_fails ..
  unary _ _ _ := Value.applyUnary_fails ..
  cast {v _ t} _ _ := (v.cast_fails t).mono_error fun _ he =>
    Or.inl (EvalError.isUnbound_of_isOfCast he)
  deferred _ _ := trivial
  method _ _ _ _ _ := trivial
  convert _ _ _ _ := trivial
  builtin known builtin _ := Method.fails_builtin _ _ known builtin

end TypedExpr
