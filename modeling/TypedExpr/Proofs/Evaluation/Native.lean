import TypedExpr.Proofs.Evaluation.Visits
import TypedExpr.Proofs.Value.Operators

/-!
# Code from outside and built-in methods

The methods, conversions and comparisons that records declare and the sources of deferred
parameters are code from outside.  Given values of the types it is declared for, it is trusted to
give values of the types it is declared with; its errors are its own.

* `Schema.Trusted`, `Parameter.Trusted` — what code from outside is trusted with.
* `Expr.FailsOutside` — the node runs code from outside, which returns the error.
* **`Expr.FailsNatively.evaluate`** — a run in which code from outside returned an error ends with
  that error.
* `Method.ensures_builtin` — the methods of strings, enumerations and nullable types.
-/

namespace TypedExpr

variable {format : GuidFormat}

/-! ## Trust -/

/-- Called on values that conform to the types they are declared for, the methods and conversions of
records fail or give values of their declared types.  If `lax` holds, null may stand for an integer
in what they are given, and in what they give. -/
structure Schema.Trusted (lax : Prop) (schema : Schema) : Prop where
  method : ∀ {d m this args s v s'}, m ∈ schema.methods d →
    this.ConformsIn False lax (.record d) → this.isNull = false →
    List.Forall₂ (Value.ConformsIn False lax) args m.params →
    m.run this args s = (.ok v, s') → v.ConformsIn False lax m.result
  conversion : ∀ {d c v s w s'}, c ∈ schema.conversions d → v.ConformsIn False lax c.source →
    v.isNull = false → c.convert v s = (.ok w, s') → w.ConformsIn False lax (.record d)

/-- Where nothing is declared, nothing is to be trusted. -/
theorem Schema.trusted_empty (lax : Prop) : Schema.empty.Trusted lax where
  method among := absurd among List.not_mem_nil
  conversion among := absurd among List.not_mem_nil

/-- A constant has its declared type; a deferred source fails or gives values of it. -/
structure Parameter.Trusted (p : Parameter) : Prop where
  constant : ∀ {v}, p.value = .constant v → v.Conforms p.ty
  deferred : ∀ {source}, p.value = .deferred source → ∀ {s v s'},
    source s = (.ok v, s') → v.Conforms p.ty

/-! ## Errors -/

/-- A comparison by a declared order fails exactly where both operands are there and the order
fails on them. -/
theorem Value.compareWith_eq_error {op : CompareOp} {reversed : Bool}
    {order : Value → Value → Except EvalError (Option Ordering)} {a b : Value} {e : EvalError} :
    compareWith (.compare op) order reversed a b = .error e ↔
      a.isNull = false ∧ b.isNull = false ∧
        (if reversed then order b a else order a b) = .error e := by
  unfold compareWith
  split
  next none =>
    constructor
    · intro h
      cases op <;> cases h
    · rintro ⟨ha, hb, -⟩
      simp [ha, hb] at none
  next both =>
    simp only [Bool.or_eq_true, not_or, Bool.not_eq_true] at both
    rw [and_iff_right both.1, and_iff_right both.2]
    cases reversed with
    | true =>
      simp only [if_true]
      cases order b a with
      | ok o => exact ⟨nofun, nofun⟩
      | error e' =>
        constructor
        · rintro ⟨⟩
          rfl
        · rintro ⟨⟩
          rfl
    | false =>
      simp only [Bool.false_eq_true, if_false]
      cases order a b with
      | ok o => exact ⟨nofun, nofun⟩
      | error e' =>
        constructor
        · rintro ⟨⟩
          rfl
        · rintro ⟨⟩
          rfl

namespace Expr

/-- With these frames and from this store, the node comes to run code from outside on the values of
its parts, which returns the error and leaves the last store. -/
inductive FailsOutside [GuidFormat] (schema : Schema) (frames : List Value) (s : Store)
    (err : EvalError) (s' : Store) : Expr → Prop
  | deferred {i : Nat} {source : Eval Value} {t : Ty} (run : source s = (.error err, s')) :
      FailsOutside schema frames s err s' (.placeholder i (.deferred source) t)
  | method {x : Expr} {d : RecordDef} {m : Method} {args : List Expr} {v this : Value}
      {vs : List Value} {t u : Store} (record : x.ty = .record d) (declared : m ∈ schema.methods d)
      (target : x.evaluate frames s = (.ok v, t))
      (received : v.receiver x.ty (.call m.name) = .ok this)
      (arguments : evaluateAll args frames t = (.ok vs, u))
      (run : m.run this vs u = (.error err, s')) :
      FailsOutside schema frames s err s' (.call x m args)
  | conversion {x : Expr} {d : RecordDef} {i : Nat} {c : Conversion} {ty : Ty} {v : Value}
      {t : Store} (operand : x.evaluate frames s = (.ok v, t)) (given : v.isNull = false)
      (run : c.convert v t = (.error err, s')) :
      FailsOutside schema frames s err s' (.convert x (some ⟨d, i, some c⟩) ty)
  | comparison {op : CompareOp} {x y : Expr} {order : Schema.ComparisonMatch} {a b : Value}
      {t : Store} (left : x.evaluate frames s = (.ok a, t))
      (right : y.evaluate frames t = (.ok b, s')) (given : a.isNull = false ∧ b.isNull = false)
      (run : (if order.reversed then order.order b a else order.order a b) = .error err) :
      FailsOutside schema frames s err s' (.customCompare op x y order)

/-- On the way of the evaluation, code from outside returned the error. -/
def FailsNatively [GuidFormat] (schema : Schema) (e : Expr) (frames : List Value) (s : Store)
    (err : EvalError) (s' : Store) : Prop :=
  ∃ p inner t, e.Visits frames s p inner t ∧ p.FailsOutside schema inner t err s'

variable {schema : Schema} {e : Expr} {frames : List Value} {s s' : Store} {err : EvalError}

theorem FailsOutside.evaluate (h : e.FailsOutside schema frames s err s') :
    e.evaluate frames s = (.error err, s') := by
  cases h with
  | deferred run => exact run
  | method _ _ target received arguments run =>
    refine (bind_of_ok target _).trans ?_
    simp only [received]
    exact (bind_of_ok arguments _).trans run
  | conversion operand given run =>
    refine (bind_of_ok operand _).trans ?_
    simp only [given]
    exact run
  | comparison left right given run =>
    refine (bind_of_ok left _).trans ((bind_of_ok right _).trans ?_)
    rw [Value.compareWith_eq_error.2 ⟨given.1, given.2, run⟩]
    rfl

/-- **A run in which code from outside returned an error ends with that error.** -/
theorem FailsNatively.evaluate (h : e.FailsNatively schema frames s err s') :
    e.evaluate frames s = (.error err, s') := by
  obtain ⟨p, inner, t, visits, fails⟩ := h
  exact visits.fails fails.evaluate

end Expr

/-! ## Built-in methods -/

section Builtin

variable {lax : Prop} {this : Value} {args : List Value}

theorem meets_receiverString (this : Value) :
    Meets (receiverString this) (fun _ => True) (·.isStuck = false) := by
  unfold receiverString
  split
  · exact meets_ok.2 trivial
  · exact meets_error.2 rfl

theorem meets_stringArgument (args : List Value) (i : Nat) :
    Meets (stringArgument args i) (fun _ => True) (·.isStuck = false) := by
  unfold stringArgument
  split
  · exact meets_ok.2 trivial
  · exact meets_error.2 rfl
  · exact meets_error.2 rfl

theorem meets_indexArgument (args : List Value) (i : Nat) :
    Meets (indexArgument args i) (fun _ => True) (·.isStuck = false) := by
  unfold indexArgument
  split
  · exact meets_ok.2 trivial
  · exact meets_error.2 rfl

theorem meets_substring (s : String) (start : Int) (length : Option Int) :
    Meets (substring s start length) (·.ConformsIn False lax .string) (·.isStuck = false) := by
  unfold substring
  split
  · exact meets_error.2 rfl
  · simp only
    split
    · exact meets_error.2 rfl
    · split
      · exact meets_ok.2 (.string _)
      · exact meets_error.2 rfl

/-- Whatever it is run on, the method gives a value of its result type, or fails as expected. -/
def Method.Total (lax : Prop) (m : Method) : Prop :=
  ∀ this args, Ensures (fun _ => True) (m.run this args) (·.ConformsIn False lax m.result)
    (·.isStuck = false)

theorem Method.total_pure {name : String} {params : List Ty} {result : Ty}
    {f : Value → List Value → Except EvalError Value}
    (h : ∀ this args, Meets (f this args) (·.ConformsIn False lax result) (·.isStuck = false)) :
    (Method.pure name params result f).Total lax :=
  fun this args => .lift (h this args)

theorem stringTest_total (name : String) (f : String → String → Bool) :
    (stringTest name f).Total lax := by
  refine Method.total_pure fun this args => ?_
  refine (meets_receiverString this).bind fun s _ => ?_
  exact (meets_stringArgument args 0).bind fun pattern _ => meets_ok.2 (.boolean _)

theorem stringMap_total (name : String) (f : String → String) : (stringMap name f).Total lax :=
  Method.total_pure fun this _ =>
    Meets.map ((meets_receiverString this).mono (fun _ _ => .string _) fun _ => id)

/-- The methods of strings check what they are run on themselves. -/
theorem stringMethods_total (lax : Prop) : ∀ m ∈ stringMethods, m.Total lax := by
  simp only [stringMethods, List.forall_mem_cons]
  refine ⟨stringTest_total _ _, stringTest_total _ _, stringTest_total _ _, stringTest_total _ _,
    stringMap_total _ _, stringMap_total _ _, stringMap_total _ _, ?_, ?_, ?_, ?_,
    List.forall_mem_nil _⟩
  · refine Method.total_pure fun this args => (meets_receiverString this).bind fun s _ => ?_
    exact (meets_indexArgument args 0).bind fun start _ => meets_substring s start none
  · refine Method.total_pure fun this args => (meets_receiverString this).bind fun s _ => ?_
    refine (meets_indexArgument args 0).bind fun start _ => ?_
    exact (meets_indexArgument args 1).bind fun length _ => meets_substring s start (some length)
  · refine Method.total_pure fun this args => (meets_receiverString this).bind fun s _ => ?_
    refine (meets_stringArgument args 0).bind fun pattern _ => meets_ok.2 ?_
    split <;> exact .int _ _
  · refine Method.total_pure fun this args => (meets_receiverString this).bind fun s _ => ?_
    refine (meets_stringArgument args 0).bind fun pattern _ => ?_
    exact (meets_stringArgument args 1).bind fun replacement _ => meets_ok.2 (.string _)

theorem Method.declared_or_builtin (s : Schema) (t : Ty) (m : Method) :
    (∃ d, t = .record d ∧ m ∈ s.methods d) ∨ ∀ d, t = .record d → m ∉ s.methods d := by
  by_cases declared : ∃ d, t = .record d ∧ m ∈ s.methods d
  · exact Or.inl declared
  · exact Or.inr fun d ht hm => declared ⟨d, ht, hm⟩

/-- A method that is not declared gives a value of its result type on a receiver of its type. -/
theorem Method.ensures_builtin {s : Schema} {t : Ty} {m : Method}
    (known : m ∈ (MemberTable.of s t).methods) (builtin : ∀ d, t = .record d → m ∉ s.methods d)
    (h : this.ConformsIn False lax t) :
    Ensures (fun _ => True) (m.run this args) (·.ConformsIn False lax m.result)
      (·.isStuck = false) := by
  rcases MemberTable.mem_methods known with known | rfl
  · cases t with
    | record d => exact absurd known (builtin d rfl)
    | enum d =>
      obtain rfl := List.mem_singleton.1 known
      exact .lift (meets_ok.2 (.boolean _))
    | string => exact stringMethods_total lax m known this args
    | nullable t =>
      obtain rfl := List.mem_singleton.1 known
      refine .lift (meets_ok.2 ?_)
      split
      · exact Value.defaultOf_conformsIn t
      next hn => exact h.nonNullable (by simpa using hn)
    | _ => cases known
  · exact .lift (meets_ok.2 (.string _))

end Builtin

end TypedExpr
