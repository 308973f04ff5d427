import TypedExpr.Proofs.Ensures
import TypedExpr.Proofs.Evaluation.Occurrence

/-!
# The evaluations that a run makes

Which parts of a tree a run evaluates, with which frames and from which store.  An untaken branch,
an operand behind one that decides and the items behind the one that was sought are not among
them, nor is anything behind an error.

* `Items.Applies` — the items that a method of sequences applies its lambda to.
* `Expr.Starts` — one evaluation begins another, of a part or of the body of its lambda.
* `Expr.Visits` — any number of such steps.
* **`Expr.Visits.fails`** — no evaluation recovers from an error: the run ends with the error of the
  part that failed, and with its store.
* `Expr.Visits.reaches` — what a run evaluates is one of the places that any run could evaluate.
-/

namespace TypedExpr

variable {format : GuidFormat}

/-- Whether the value is this truth value. -/
def Value.isTruth (b : Bool) : Value → Bool
  | .boolean c => c == b
  | _ => false

@[simp] theorem Value.isTruth_iff {b : Bool} {v : Value} : v.isTruth b = true ↔ v = .boolean b := by
  cases v <;> simp [isTruth]

theorem Value.isTruth_or_iff {v : Value} :
    (v.isTruth false || v.isTruth true) = true ↔ ∃ b, v = .boolean b := by
  rw [Bool.or_eq_true_iff, isTruth_iff, isTruth_iff, Bool.exists_bool]

/-- Whether the left operand decides the operator, so that the right one is not evaluated. -/
def BinaryOp.decidedBy (op : BinaryOp) (v : Value) : Bool :=
  match op with
  | .logical .and => v.isTruth false
  | .logical .or => v.isTruth true
  | _ => false

theorem Value.items?_of_itemsFor {m : SequenceMethod} {v : Value} {items : List Value}
    (h : v.itemsFor m = .ok items) : v.items? = some items := by
  unfold itemsFor at h
  split at h
  next listed =>
    cases h
    exact listed
  next => split at h <;> cases h

/-! ## Items -/

namespace SequenceMethod

/-- The items in the order in which the lambda is applied to them. -/
def visited (m : SequenceMethod) (items : List Value) : List Value :=
  match m with
  | last | lastOrDefault => items.reverse
  | contains | distinct | take | skip => []
  | _ => items

/-- Whether the method goes on to the next item when the lambda gave the value. -/
def goesOn (m : SequenceMethod) (v : Value) : Bool :=
  match m with
  | any | first | firstOrDefault | last | lastOrDefault => v.isTruth false
  | all => v.isTruth true
  | count | filter => v.isTruth false || v.isTruth true
  | _ => true

theorem mem_of_mem_visited {m : SequenceMethod} {items : List Value} {item : Value}
    (h : item ∈ m.visited items) : item ∈ items := by
  cases m with
  | last | lastOrDefault => exact List.mem_reverse.1 h
  | contains | distinct | take | skip => cases h
  | _ => exact h

end SequenceMethod

namespace Items

/-- A visit of the items from the store comes to the item, with the last store; it goes on behind
an item if the function gave a value with `goes`. -/
inductive Applies (goes : Value → Bool) (f : Selector) :
    List Value → Store → Value → Store → Prop
  | here {item : Value} {rest : List Value} {s : Store} : Applies goes f (item :: rest) s item s
  | later {item v i : Value} {rest : List Value} {s t u : Store} (run : f item s = (.ok v, t))
      (on : goes v = true) (behind : Applies goes f rest t i u) :
      Applies goes f (item :: rest) s i u

variable {goes : Value → Bool} {f p : Selector} {items : List Value} {item : Value}
  {s t s' : Store} {err : EvalError}

theorem Applies.mem (h : Applies goes f items s item t) : item ∈ items := by
  induction h with
  | here => exact List.mem_cons_self
  | later _ _ _ ih => exact List.mem_cons_of_mem _ ih

theorem truth_eq_ok {v : Value} {b : Bool} : truth v = .ok b ↔ v = .boolean b := by
  cases v <;> simp [truth]

/-- An item satisfies a predicate, or does not, if the predicate gives this truth value. -/
theorem satisfies_eq_ok {b : Bool} :
    satisfies p item s = (.ok b, t) ↔ p item s = (.ok (.boolean b), t) := by
  rw [satisfies, bind_eq_ok]
  constructor
  · rintro ⟨v, u, run, h⟩
    rw [show (liftM (truth v) : Eval Bool) u = (truth v, u) by cases truth v <;> rfl,
      Prod.mk.injEq, truth_eq_ok] at h
    obtain ⟨rfl, rfl⟩ := h
    exact run
  · intro run
    exact ⟨_, t, run, rfl⟩

/-! ### Errors of the function -/

theorem satisfies_fails (fails : p item s = (.error err, s')) :
    satisfies p item s = (.error err, s') :=
  bind_of_error fails _

theorem findWhere?_fails (h : Applies (·.isTruth false) p items s item t)
    (fails : p item t = (.error err, s')) : findWhere? p items s = (.error err, s') := by
  induction h with
  | here => exact bind_of_error (satisfies_fails fails) _
  | later run on _ ih =>
    obtain rfl := Value.isTruth_iff.1 on
    exact (bind_of_ok (satisfies_eq_ok.2 run) _).trans (ih fails)

theorem allWhere_fails (h : Applies (·.isTruth true) p items s item t)
    (fails : p item t = (.error err, s')) : allWhere p items s = (.error err, s') := by
  induction h with
  | here => exact bind_of_error (satisfies_fails fails) _
  | later run on _ ih =>
    obtain rfl := Value.isTruth_iff.1 on
    exact (bind_of_ok (satisfies_eq_ok.2 run) _).trans (ih fails)

theorem filterWhere_fails
    (h : Applies (fun v => v.isTruth false || v.isTruth true) p items s item t)
    (fails : p item t = (.error err, s')) : filterWhere p items s = (.error err, s') := by
  induction h with
  | here => exact bind_of_error (satisfies_fails fails) _
  | later run on _ ih =>
    obtain ⟨b, rfl⟩ := Value.isTruth_or_iff.1 on
    exact (bind_of_ok (satisfies_eq_ok.2 run) _).trans (bind_of_error (ih fails) _)

theorem selectAll_fails (h : Applies (fun _ => true) f items s item t)
    (fails : f item t = (.error err, s')) : selectAll f items s = (.error err, s') := by
  induction h with
  | here => exact bind_of_error fails _
  | later run _ _ ih => exact (bind_of_ok run _).trans (bind_of_error (ih fails) _)

/-- The call of a method fails as its lambda does on an item that the method comes to. -/
theorem call_fails {m : SequenceMethod} {argument : Eval Value} {ty : Ty}
    (h : Applies m.goesOn f (m.visited items) s item t) (fails : f item t = (.error err, s')) :
    call m items (some f) argument ty s = (.error err, s') := by
  cases m with
  | any | first | firstOrDefault | last | lastOrDefault =>
    exact bind_of_error (findWhere?_fails h fails) _
  | all => exact bind_of_error (allWhere_fails h fails) _
  | count | filter => exact bind_of_error (filterWhere_fails h fails) _
  | sum | min | max | average | select => exact bind_of_error (selectAll_fails h fails) _
  | orderBy | orderByDescending =>
    exact bind_of_error (bind_of_error (selectAll_fails h fails) _) _
  | contains | distinct | take | skip => cases h

/-- A method that takes a plain argument fails as the argument does. -/
theorem call_fails_of_argument {m : SequenceMethod} {f? : Option Selector} {argument : Eval Value}
    {ty : Ty} (value : m.argument = .value) (fails : argument s = (.error err, s')) :
    call m items f? argument ty s = (.error err, s') := by
  cases m with
  | contains | take | skip => exact bind_of_error fails _
  | _ => cases value

end Items

/-! ## Parts -/

namespace Expr

/-- The part that the evaluation of a node begins with; arguments and fields aside. -/
def first? : Expr → Option Expr
  | member x m => if m.isStatic then none else some x
  | convert _ (some ⟨_, _, none⟩) _ => none
  | convert x _ _ | unary _ x | call x _ _ | sequenceCall x _ _ _ _ | binary _ x _ _
  | conditional x _ _ | index x _ _ | customCompare _ x _ _ => some x
  | _ => none

/-- The operand that follows when the first part gave the value. -/
def second? : Expr → Value → Option Expr
  | binary op _ y _, v => if op.decidedBy v then none else some y
  | conditional _ x y, v => some (if v.isTruth true then x else y)
  | index _ y _, _ | customCompare _ _ y _, _ => some y
  | _, _ => none

/-- The evaluation of the first tree, with these frames and from this store, begins an evaluation of
the second one. -/
inductive Starts [GuidFormat] : Expr → List Value → Store → Expr → List Value → Store → Prop
  | first {e p : Expr} {frames : List Value} {s : Store} (head : e.first? = some p) :
      Starts e frames s p frames s
  | second {e x p : Expr} {frames : List Value} {s t : Store} {v : Value}
      (head : e.first? = some x) (run : x.evaluate frames s = (.ok v, t))
      (next : e.second? v = some p) : Starts e frames s p frames t
  | argument {x a : Expr} {m : Method} {before behind : List Expr} {frames vs : List Value}
      {v this : Value} {s t u : Store} (run : x.evaluate frames s = (.ok v, t))
      (received : v.receiver x.ty (.call m.name) = .ok this)
      (runs : evaluateAll before frames t = (.ok vs, u)) :
      Starts (.call x m (before ++ a :: behind)) frames s a frames u
  | plain {x a : Expr} {m : SequenceMethod} {lambda : Option Expr} {ty : Ty}
      {frames items : List Value} {source : Value} {s t : Store}
      (run : x.evaluate frames s = (.ok source, t)) (listed : source.itemsFor m = .ok items)
      (value : m.argument = .value) :
      Starts (.sequenceCall x m lambda (some a) ty) frames s a frames t
  | body {x b : Expr} {m : SequenceMethod} {argument : Option Expr} {ty : Ty}
      {frames items : List Value} {source item : Value} {s t u : Store}
      (run : x.evaluate frames s = (.ok source, t)) (listed : source.itemsFor m = .ok items)
      (applied : Items.Applies m.goesOn (fun i => b.evaluate (innerFrames frames i))
        (m.visited items) t item u) :
      Starts (.sequenceCall x m (some b) argument ty) frames s b (innerFrames frames item) u
  | field {f : Expr} {d : RecordDef} {before behind : List Expr} {frames vs : List Value}
      {s t : Store} (runs : evaluateAll before frames s = (.ok vs, t)) :
      Starts (.new d (before ++ f :: behind)) frames s f frames t

/-- The evaluation of the first tree, with these frames and from this store, makes the evaluation of
the second one on its way. -/
inductive Visits [GuidFormat] : Expr → List Value → Store → Expr → List Value → Store → Prop
  | refl (e : Expr) (frames : List Value) (s : Store) : Visits e frames s e frames s
  | step {e p sub : Expr} {frames outer inner : List Value} {s t u : Store}
      (starts : Starts e frames s p outer t) (visits : Visits p outer t sub inner u) :
      Visits e frames s sub inner u

variable {e p sub x : Expr} {es : List Expr} {frames inner : List Value} {s t s' : Store}
  {v : Value} {err : EvalError}

/-! ## Errors -/

theorem evaluate_of_first? (head : e.first? = some p)
    (fails : p.evaluate frames s = (.error err, s')) :
    e.evaluate frames s = (.error err, s') := by
  have begins (k : Value → Eval Value) : (p.evaluate frames >>= k) s = (.error err, s') :=
    bind_of_error fails k
  cases e with
  | literal | parameter | placeholder | new => cases head
  | member x m =>
    obtain ⟨name, ty, kind⟩ := m
    cases kind with
    | constant => cases head
    | field | property =>
      cases head
      exact begins _
  | convert x user ty =>
    rcases user with _ | ⟨d, i, _ | c⟩
    · cases head
      exact begins _
    · cases head
    · cases head
      exact begins _
  | binary op x y ty =>
    cases head
    cases op with
    | logical op => cases op <;> exact begins _
    | _ => exact begins _
  | sequenceCall x m lambda argument ty =>
    cases head
    unfold evaluate
    exact begins _
  | _ =>
    cases head
    exact begins _

theorem evaluate_of_second? (head : e.first? = some x) (run : x.evaluate frames s = (.ok v, t))
    (next : e.second? v = some p) (fails : p.evaluate frames t = (.error err, s')) :
    e.evaluate frames s = (.error err, s') := by
  have follows (k k' : Value → Eval Value) (h : k v = p.evaluate frames >>= k') :
      (x.evaluate frames >>= k) s = (.error err, s') := by
    rw [bind_of_ok run, h]
    exact bind_of_error fails k'
  have replaces (k : Value → Eval Value) (h : k v = p.evaluate frames) :
      (x.evaluate frames >>= k) s = (.error err, s') := by
    rw [bind_of_ok run, h]
    exact fails
  cases e with
  | binary op x y ty =>
    cases head
    cases op with
    | logical op =>
      cases op with
      | and | or =>
        rw [second?, BinaryOp.decidedBy] at next
        split at next <;> cases next
        next undecided =>
          refine replaces _ ?_
          split
          · simp at undecided
          · rfl
    | _ =>
      cases next
      exact follows _ _ rfl
  | conditional c x y =>
    cases head
    cases next
    refine replaces _ ?_
    split
    · rfl
    next other =>
      rw [if_neg]
      simpa using other
  | index | customCompare =>
    cases head
    cases next
    exact follows _ _ rfl
  | _ => cases next

theorem evaluateAll_fails {before behind : List Expr} {vs : List Value}
    (runs : evaluateAll before frames s = (.ok vs, t))
    (fails : p.evaluate frames t = (.error err, s')) :
    evaluateAll (before ++ p :: behind) frames s = (.error err, s') := by
  induction before generalizing s vs with
  | nil =>
    cases runs
    exact bind_of_error fails _
  | cons e es ih =>
    obtain ⟨w, u, run, h⟩ := bind_eq_ok.1 runs
    obtain ⟨ws, u', runs, h⟩ := bind_eq_ok.1 h
    cases h
    exact (bind_of_ok run _).trans (bind_of_error (ih runs) _)

/-- An evaluation that is begun and fails ends the one that began it. -/
theorem Starts.fails (h : e.Starts frames s p inner t)
    (fails : p.evaluate inner t = (.error err, s')) :
    e.evaluate frames s = (.error err, s') := by
  cases h with
  | first head => exact evaluate_of_first? head fails
  | second head run next => exact evaluate_of_second? head run next fails
  | argument run received runs =>
    refine (bind_of_ok run _).trans ?_
    simp only [received]
    exact bind_of_error (evaluateAll_fails runs fails) _
  | plain run listed value =>
    unfold evaluate
    refine (bind_of_ok run _).trans ?_
    simp only [listed]
    exact Items.call_fails_of_argument value fails
  | body run listed applied =>
    unfold evaluate
    refine (bind_of_ok run _).trans ?_
    simp only [listed]
    exact Items.call_fails applied fails
  | field runs => exact bind_of_error (evaluateAll_fails runs fails) _

/-- **No evaluation recovers from an error.**  Where an evaluation on the way fails, the whole fails
with the same error and the same store. -/
theorem Visits.fails (h : e.Visits frames s p inner t)
    (fails : p.evaluate inner t = (.error err, s')) :
    e.evaluate frames s = (.error err, s') := by
  induction h with
  | refl => exact fails
  | step starts _ ih => exact starts.fails (ih fails)

/-! ## Places -/

theorem mem_parts_of_first? (head : e.first? = some p) : p ∈ e.parts := by
  cases e with
  | literal | parameter | placeholder | new => cases head
  | member x m =>
    rw [first?] at head
    split at head <;> cases head
    exact List.mem_cons_self
  | convert x user ty =>
    rcases user with _ | ⟨d, i, _ | c⟩ <;> cases head
    · exact List.mem_cons_self
    · exact List.mem_cons_self
  | _ =>
    cases head
    exact List.mem_cons_self

theorem mem_parts_of_second? (next : e.second? v = some p) : p ∈ e.parts := by
  cases e with
  | conditional c x y =>
    cases next
    rw [parts]
    split <;> simp
  | binary op x y ty =>
    rw [second?] at next
    split at next <;> cases next
    exact List.mem_cons_of_mem _ List.mem_cons_self
  | index | customCompare =>
    cases next
    exact List.mem_cons_of_mem _ List.mem_cons_self
  | _ => cases next

/-- What a run evaluates is one of the places that any run could evaluate. -/
theorem Visits.reaches (h : e.Visits frames s p inner t) :
    ∃ bound, e.Reaches frames bound p inner := by
  induction h with
  | refl e frames => exact ⟨[], .refl e frames⟩
  | step starts _ ih =>
    obtain ⟨bound, inside⟩ := ih
    cases starts with
    | first head => exact ⟨bound, .part (mem_parts_of_first? head) inside⟩
    | second _ _ next => exact ⟨bound, .part (mem_parts_of_second? next) inside⟩
    | argument | field => exact ⟨bound, .part (by simp [parts]) inside⟩
    | plain => exact ⟨bound, .part (by simp [parts]) inside⟩
    | body run listed applied =>
      have listed := Value.items?_of_itemsFor listed
      have mem := SequenceMethod.mem_of_mem_visited applied.mem
      exact ⟨_, .body rfl run listed mem inside⟩

theorem Visits.occurs (h : e.Visits frames s p inner t) : ∃ receivers, e.Occurs receivers p := by
  obtain ⟨bound, reached⟩ := h.reaches
  exact ⟨_, reached.occurs⟩

end Expr

end TypedExpr
