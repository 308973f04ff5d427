import TypedExpr.Proofs.Operands.Promotion
import TypedExpr.Proofs.Precedence.Running

/-!
# Methods of sequences with a lambda

A method with a lambda does what two methods do one after the other, the first of which applies the
lambda: it keeps the items that satisfy a predicate, or it replaces the items by what they are
mapped to.

* `Items.Decides` — a predicate that tells a truth value for every item, and visits with it.
* `Items.selectAll_bind` — a lambda whose values are converted.
* `Expr.Calls` — the trees that the binder makes for calls of methods of sequences.
* **`Expr.calls_fuse`** — a call with a lambda, and the two calls that it stands for.
-/

namespace TypedExpr

/-! ## Visits -/

namespace Items

variable {format : GuidFormat} {p f : Selector} {b : Value → Bool} {items kept : List Value}
  {s s' : Store}

/-- For every item the predicate gives a truth value. -/
def Decides (p : Selector) (items : List Value) (b : Value → Bool) : Prop :=
  ∀ item ∈ items, ∀ s, (satisfies p item s).1 = .ok (b item)

/-- The value of the function depends on the item alone. -/
def Determined (f : Selector) (items : List Value) : Prop :=
  ∀ item ∈ items, ∀ s s', (f item s).1 = (f item s').1

theorem Decides.head {item : Value} (h : Decides p (item :: items) b) (s : Store) :
    ∃ s', satisfies p item s = (.ok (b item), s') :=
  ⟨(satisfies p item s).2, Prod.ext (h item List.mem_cons_self s) rfl⟩

theorem Decides.tail {item : Value} (h : Decides p (item :: items) b) : Decides p items b :=
  fun i hi => h i (List.mem_cons_of_mem _ hi)

theorem Decides.reverse (h : Decides p items b) : Decides p items.reverse b :=
  fun i hi => h i (List.mem_reverse.1 hi)

theorem Decides.findWhere? (h : Decides p items b) (s : Store) :
    (findWhere? p items s).1 = .ok (items.find? b) := by
  induction items generalizing s with
  | nil => rfl
  | cons item items ih =>
    obtain ⟨s', here⟩ := h.head s
    rw [Items.findWhere?, bind_of_ok here, List.find?_cons]
    cases b item with
    | true => rfl
    | false => exact ih h.tail s'

theorem Decides.allWhere (h : Decides p items b) (s : Store) :
    (allWhere p items s).1 = .ok (items.all b) := by
  induction items generalizing s with
  | nil => rfl
  | cons item items ih =>
    obtain ⟨s', here⟩ := h.head s
    rw [Items.allWhere, bind_of_ok here, List.all_cons]
    cases b item with
    | true => exact ih h.tail s'
    | false => rfl

/-- Of a predicate that depends on the item alone, the truth value does, too. -/
theorem Determined.truth (h : Determined p items) : ∀ item ∈ items, ∀ s s',
    (satisfies p item s).1 = (satisfies p item s').1 := by
  intro item hi s s'
  have same := h item hi s s'
  unfold Items.satisfies
  rw [bind_apply, bind_apply]
  rcases first : p item s with ⟨r, t⟩
  rcases second : p item s' with ⟨r', t'⟩
  rw [first, second] at same
  obtain rfl : r = r' := same
  cases r <;> rfl

/-- The truth value of an item in one store; false, if there is none. -/
def verdict (p : Selector) (s : Store) (item : Value) : Bool :=
  (satisfies p item s).1.toOption.getD false

/-- Where the items that satisfy a predicate are found, it gives a truth value for every item. -/
theorem Determined.decides (h : Determined p items) (s₀ : Store)
    (run : filterWhere p items s = (.ok kept, s')) :
    Decides p items (verdict p s₀) ∧ kept = items.filter (verdict p s₀) := by
  induction items generalizing s s' kept with
  | nil =>
    cases run
    exact ⟨nofun, rfl⟩
  | cons item items ih =>
    obtain ⟨keep, t, here, run⟩ := bind_eq_ok.1 run
    obtain ⟨others, t', rest, run⟩ := bind_eq_ok.1 run
    obtain ⟨decides, rfl⟩ := ih (fun i hi => h i (List.mem_cons_of_mem _ hi)) rest
    have same (u : Store) : (satisfies p item u).1 = .ok keep := by
      rw [h.truth item List.mem_cons_self u s, here]
    have known : verdict p s₀ item = keep := by
      rw [verdict, same]
      rfl
    cases run
    rw [List.filter_cons, known]
    refine ⟨List.forall_mem_cons.2 ⟨fun u => ?_, decides⟩, rfl⟩
    rw [same, known]

/-! ## Projections -/

/-- A conversion of the values that a function gives may as well be done afterwards. -/
theorem selectAll_bind {g : Value → Eval Value} {h : Value → Value}
    (converts : ∀ item ∈ items, ∀ s v s', f item s = (.ok v, s') → g v = pure (h v)) :
    selectAll (fun item => f item >>= g) items =
      selectAll f items >>= fun values => pure (values.map h) := by
  induction items with
  | nil => rfl
  | cons item items ih =>
    obtain ⟨first, others⟩ := List.forall_mem_cons.1 converts
    have here : f item >>= g = f item >>= fun v => pure (h v) := by
      funext s
      rw [bind_apply, bind_apply]
      rcases run : f item s with ⟨_ | v, t⟩
      · rfl
      · exact congrFun (first s v t run) t
    rw [selectAll, selectAll, here, ih others]
    simp only [bind_assoc, pure_bind]
    rfl

theorem selectAll_pure (items : List Value) : selectAll pure items = pure items := by
  induction items with
  | nil => rfl
  | cons item items ih =>
    rw [selectAll, ih]
    rfl

/-- What holds of all values that the function gives for items holds of those that are selected. -/
theorem forall_mem_selectAll {Q : Value → Prop} {values : List Value}
    (each : ∀ item ∈ items, ∀ s v s', f item s = (.ok v, s') → Q v)
    (run : selectAll f items s = (.ok values, s')) : ∀ v ∈ values, Q v := by
  induction items generalizing s s' values with
  | nil =>
    cases run
    nofun
  | cons item items ih =>
    obtain ⟨first, others⟩ := List.forall_mem_cons.1 each
    obtain ⟨v, t, here, run⟩ := bind_eq_ok.1 run
    obtain ⟨vs, t', rest, run⟩ := bind_eq_ok.1 run
    cases run
    exact List.forall_mem_cons.2 ⟨first s v t here, ih others rest⟩

/-! ## Methods -/

/-- The methods that make one value of what their lambda gives for the items. -/
def aggregates : List SequenceMethod := [.sum, .min, .max, .average]

/-- The methods that ask for an item that satisfies a predicate. -/
def picks : List SequenceMethod := [.any, .first, .last, .firstOrDefault, .lastOrDefault]

theorem call_aggregate {m : SequenceMethod} (hm : m ∈ aggregates) (ty : Ty) :
    ∃ total : List Value → Except EvalError Value, ∀ items f argument,
      call m items (some f) argument ty =
        selectAll f items >>= fun values => liftM (total values) := by
  simp only [aggregates, List.mem_cons, List.not_mem_nil, or_false] at hm
  obtain rfl | rfl | rfl | rfl := hm <;> exact ⟨_, fun _ _ _ => rfl⟩

theorem call_pick {m : SequenceMethod} (hm : m ∈ picks) (ty : Ty) :
    ∃ (fromRight : Bool) (result : Option Value → Except EvalError Value), ∀ items p? argument,
      call m items p? argument ty =
        pick p? fromRight items >>= fun v? => liftM (result v?) := by
  simp only [picks, List.mem_cons, List.not_mem_nil, or_false] at hm
  obtain rfl | rfl | rfl | rfl | rfl := hm
  · refine ⟨false, fun v? => .ok (.boolean v?.isSome), fun items p? argument => ?_⟩
    cases p? with
    | some p => rfl
    | none => cases items <;> rfl
  · exact ⟨false, fun v? => v?.elim (.error .emptySequence) .ok, fun _ _ _ => rfl⟩
  · exact ⟨true, fun v? => v?.elim (.error .emptySequence) .ok, fun _ _ _ => rfl⟩
  · exact ⟨false, fun v? => .ok (v?.getD (Value.defaultOf ty)), fun _ _ _ => rfl⟩
  · exact ⟨true, fun v? => .ok (v?.getD (Value.defaultOf ty)), fun _ _ _ => rfl⟩

/-- What is picked by a predicate is picked without one from the items that satisfy it. -/
theorem Decides.pick (h : Decides p items b) (fromRight : Bool) (s s' : Store) :
    (pick (some p) fromRight items s).1 = (pick none fromRight (items.filter b) s').1 := by
  cases fromRight with
  | false =>
    show (Items.findWhere? p items s).1 = .ok (items.filter b).head?
    rw [h.findWhere?, List.head?_filter]
  | true =>
    show (Items.findWhere? p items.reverse s).1 = .ok (items.filter b).reverse.head?
    rw [h.reverse.findWhere?, ← List.filter_reverse, List.head?_filter]

end Items

/-- Small numbers are told apart by their values. -/
theorem Value.int32_eq_iff {m n : Nat} (hm : m < 2147483648) (hn : n < 2147483648) :
    Value.int32 m = Value.int32 n ↔ m = n := by
  have val (k : Nat) (hk : k < 2147483648) : (Word.wrap .int32 k).val = k := by
    refine IntType.reduce_of_mem ?_ ?_ <;> simp only [IntType.min, IntType.max] <;> omega
  constructor
  · intro same
    have words : Word.wrap .int32 m = Word.wrap .int32 n := by
      rw [Value.int32, Value.int32, Value.int.injEq] at same
      exact eq_of_heq same.2
    have := congrArg Word.val words
    rw [val m hm, val n hn] at this
    exact Int.ofNat_inj.1 this
  · rintro rfl
    rfl

namespace Expr

section

variable {format : GuidFormat} {c : BindContext} {w : BindState} {target f e e' : Expr}
  {m : SequenceMethod} {lambda : Option Expr} {frames items : List Value} {s s₁ : Store} {v : Value}
  {ty : Ty}

/-! ## Trees -/

/-- For a call of a method on a sequence, whose lambda is bound already or left out, the binder
makes the tree. -/
def Calls (c : BindContext) (w : BindState) (target : Expr) (m : SequenceMethod)
    (lambda : Option Expr) (e : Expr) : Prop :=
  ∃ item offset, target.ty.element? = some item ∧
    Binder.Runs c (Grammar.sequenceResult target item m lambda none offset) w e w

/-- The lambda of a method that is given, or the one that a method implies. -/
def lambdaOr (c : BindContext) (m : SequenceMethod) (item : Ty) (lambda : Option Expr) :
    Option Expr :=
  lambda.or (if m.impliesIdentity then some (.parameter c.scope.depth item) else none)

/-- The tree of a call of a method. -/
def sequenceTree [GuidFormat] (schema : Schema) (target : Expr) (m : SequenceMethod) (item : Ty)
    (lambda : Option Expr) : Expr :=
  let ty := m.resultTy item (lambda.map Expr.ty)
  .sequenceCall target m (if m = .sum then lambda.map (·.coerceTo schema ty) else lambda) none ty

/-- The binder checks the lambda and makes the tree. -/
theorem runs_sequenceResult {item : Ty} {offset : Nat} {body? : Option Expr}
    (h : lambdaOr c m item lambda = body?) :
    Binder.Runs c (Grammar.sequenceResult target item m lambda none offset) w e w ↔
      (∀ body ∈ body?, m.role.accepts body.ty = true) ∧
      e = sequenceTree w.workspace.registry.schema target m item body? := by
  unfold lambdaOr at h
  rw [Binder.Runs, Grammar.sequenceResult, Binder.Runs.bind_eq Binder.runs_scope]
  simp only [h]
  cases body? with
  | none =>
    show (Except.ok _, w) = (Except.ok e, w) ↔ _
    rw [Prod.mk.injEq, Except.ok.injEq]
    refine ⟨fun same => ⟨?_, same.1.symm⟩, fun same => ⟨same.2.symm, rfl⟩⟩
    rintro _ ⟨⟩
  | some body =>
    cases accepted : m.role.accepts body.ty with
    | false =>
      simp only [accepted, Bool.not_false, if_true]
      constructor
      · rintro ⟨⟩
      · rintro ⟨all, -⟩
        rw [all body rfl] at accepted
        cases accepted
    | true =>
      simp only [accepted, Bool.not_true, Bool.false_eq_true, if_false]
      show (Except.ok _, w) = (Except.ok e, w) ↔ _
      rw [Prod.mk.injEq, Except.ok.injEq]
      refine ⟨fun same => ⟨?_, same.1.symm⟩, fun same => ⟨same.2.symm, rfl⟩⟩
      rintro _ ⟨⟩
      exact accepted

theorem calls_iff : Calls c w target m lambda e ↔
    ∃ item, target.ty.element? = some item ∧
      (∀ body ∈ lambdaOr c m item lambda, m.role.accepts body.ty = true) ∧
      e = sequenceTree w.workspace.registry.schema target m item (lambdaOr c m item lambda) := by
  refine exists_congr fun item => ?_
  rw [exists_and_left]
  refine and_congr_right fun _ => ?_
  simp only [runs_sequenceResult rfl, exists_const]

/-! ## Evaluation -/

/-- What a lambda body gives for an item. -/
def selector [GuidFormat] (f : Expr) (frames : List Value) : Items.Selector :=
  fun item => f.evaluate (innerFrames frames item)

/-- A method of sequences works on the items of its receiver. -/
theorem evaluate_sequenceCall (receiver : target.evaluate frames s = (.ok v, s₁))
    (sequence : v.items? = some items) :
    (sequenceCall target m lambda none ty).evaluate frames s =
      Items.call m items (lambda.map (·.selector frames)) (pure .null) ty s₁ := by
  cases lambda <;>
    simp only [evaluate, bind_apply, receiver, Value.itemsFor, sequence] <;> rfl

/-- If the receiver fails, so does a method of sequences. -/
theorem evaluate_sequenceCall_error {error : EvalError}
    (receiver : target.evaluate frames s = (.error error, s₁)) :
    (sequenceCall target m lambda none ty).evaluate frames s = (.error error, s₁) := by
  cases lambda <;> simp only [evaluate, bind_apply, receiver]

/-- Of two steps the second of which leaves the store alone, the outcome depends on that of the
first. -/
theorem outcome_bind_lift {α : Type} {x y : Eval α} {s s' : Store} (g : α → Except EvalError Value)
    (same : (x s).1 = (y s').1) :
    ((x >>= fun a => liftM (g a)) s).1 = ((y >>= fun a => liftM (g a)) s').1 := by
  rw [bind_apply, bind_apply]
  rcases first : x s with ⟨r, t⟩
  rcases second : y s' with ⟨r', t'⟩
  rw [first, second] at same
  obtain rfl : r = r' := same
  cases r <;> rfl

/-- The body of a lambda whose value depends on the frames alone and is one of its type. -/
structure IsSteady [GuidFormat] (f : Expr) (frames items : List Value) : Prop where
  determined : Items.Determined (f.selector frames) items
  conforms : ∀ item ∈ items, ∀ s v s', f.selector frames item s = (.ok v, s') → v.Conforms f.ty

/-- The trees give the same value or fail alike. -/
def Agree [GuidFormat] (frames : List Value) (s : Store) (e e' : Expr) : Prop :=
  (e.evaluate frames s).1 = (e'.evaluate frames s).1

/-- A call with a lambda is made where a call of a first method with that lambda and then a call
without one are, and it has the type of the latter. -/
structure Fuses (c : BindContext) (w : BindState) (target f : Expr) (front m : SequenceMethod)
    (agree : Expr → Expr → Expr → Prop) : Prop where
  apart : ∀ e, Calls c w target m (some f) e → ∃ inner e', Calls c w target front (some f) inner ∧
    Calls c w inner m none e' ∧ e'.ty = e.ty ∧ agree inner e e'
  together : ∀ inner e', Calls c w target front (some f) inner → Calls c w inner m none e' →
    ∃ e, Calls c w target m (some f) e ∧ e'.ty = e.ty ∧ agree inner e e'

/-! ## Predicates -/

/-- A call with a predicate. -/
theorem calls_predicate_iff (hm : m.role = .predicate) : Calls c w target m (some f) e ↔
    ∃ item, target.ty.element? = some item ∧ f.ty = .boolean ∧
      e = sequenceCall target m (some f) none (m.resultTy item (some f.ty)) := by
  have notSum : m ≠ .sum := by
    rintro rfl
    cases hm
  rw [calls_iff]
  refine exists_congr fun item => and_congr_right fun _ => ?_
  simp only [lambdaOr, Option.some_or, Option.mem_def, Option.some.injEq, forall_eq', hm,
    LambdaRole.accepts, beq_iff_eq, sequenceTree, if_neg notSum, Option.map_some]

/-- A call of such a method without a predicate. -/
theorem calls_bare_iff (hm : m.role = .predicate) : Calls c w target m none e ↔
    ∃ item, target.ty.element? = some item ∧
      e = sequenceCall target m none none (m.resultTy item none) := by
  have notImplied : m.impliesIdentity = false := by
    rw [SequenceMethod.impliesIdentity, hm]
    rfl
  have notSum : m ≠ .sum := by
    rintro rfl
    cases hm
  rw [calls_iff]
  refine exists_congr fun item => and_congr_right fun _ => ?_
  simp only [lambdaOr, notImplied, Option.none_or, sequenceTree, if_neg notSum, Option.map_none,
    Bool.false_eq_true, if_false, Option.mem_def, reduceCtorEq, false_implies, implies_true,
    true_and]

/-- The call that keeps the items that satisfy a predicate. -/
def filterCall (target f : Expr) (item : Ty) : Expr :=
  .sequenceCall target .filter (some f) none (.sequence item)

/-- The methods that take a predicate, or none. -/
def tests : List SequenceMethod := .count :: Items.picks

theorem role_of_mem_tests (hm : m ∈ tests) : m.role = .predicate := by
  revert m
  decide

theorem resultTy_of_mem_tests (hm : m ∈ tests) (item : Ty) (selected : Option Ty) :
    m.resultTy item selected = m.resultTy item none := by
  simp only [tests, Items.picks, List.mem_cons, List.not_mem_nil, or_false] at hm
  obtain rfl | rfl | rfl | rfl | rfl | rfl := hm <;> rfl

/-- A method with a predicate is the method without one on the items that satisfy the predicate, if
the trees agree. -/
theorem fuses_filter (hm : m ∈ tests) {agree : Expr → Expr → Expr → Prop}
    (h : ∀ item, agree (filterCall target f item)
      (sequenceCall target m (some f) none (m.resultTy item none))
      (sequenceCall (filterCall target f item) m none none (m.resultTy item none))) :
    Fuses c w target f .filter m agree where
  apart e calls := by
    obtain ⟨item, element, boolean, rfl⟩ := (calls_predicate_iff (role_of_mem_tests hm)).1 calls
    refine ⟨filterCall target f item, _, (calls_predicate_iff rfl).2 ⟨item, element, boolean, rfl⟩,
      (calls_bare_iff (role_of_mem_tests hm)).2 ⟨item, rfl, rfl⟩, ?_, ?_⟩
    · exact (resultTy_of_mem_tests hm item _).symm
    · rw [resultTy_of_mem_tests hm]
      exact h item
  together inner e' calls calls' := by
    obtain ⟨item, element, boolean, rfl⟩ := (calls_predicate_iff rfl).1 calls
    obtain ⟨_, ⟨⟩, rfl⟩ := (calls_bare_iff (role_of_mem_tests hm)).1 calls'
    refine ⟨_, (calls_predicate_iff (role_of_mem_tests hm)).2 ⟨item, element, boolean, rfl⟩, ?_, ?_⟩
    · exact (resultTy_of_mem_tests hm item _).symm
    · rw [resultTy_of_mem_tests hm]
      exact h item

section Receiver

variable (receiver : target.evaluate frames s = (.ok v, s₁)) (sequence : v.items? = some items)

include receiver sequence

/-- The items that satisfy the predicate, as a sequence, or the error of the predicate. -/
theorem evaluate_filterCall (f : Expr) (item : Ty) :
    (filterCall target f item).evaluate frames s =
      (Items.filterWhere (f.selector frames) items >>= Eval.newSequence) s₁ :=
  evaluate_sequenceCall receiver sequence

/-- Counting with a predicate counts the items that satisfy it. -/
theorem count_agree (f : Expr) (item : Ty) :
    Agree frames s (sequenceCall target .count (some f) none ty)
      (sequenceCall (filterCall target f item) .count none none ty) := by
  have kept := evaluate_filterCall receiver sequence f item
  rw [Agree, evaluate_sequenceCall receiver sequence]
  show ((Items.filterWhere (f.selector frames) items >>= fun kept =>
    return Value.int32 kept.length) s₁).1 = _
  rw [bind_apply] at kept ⊢
  rcases run : Items.filterWhere (f.selector frames) items s₁ with ⟨error | found, t⟩
  · rw [run] at kept
    rw [evaluate_sequenceCall_error kept]
  · rw [run] at kept
    rw [evaluate_sequenceCall kept rfl]
    rfl

/-- If the items that satisfy the predicate are found, it tells a truth value for every item. -/
theorem exists_of_filterCall {item : Ty} {kept : Value} (steady : f.IsSteady frames items)
    (found : ((filterCall target f item).evaluate frames s).1 = .ok kept) :
    ∃ b s₂ id, Items.Decides (f.selector frames) items b ∧
      (filterCall target f item).evaluate frames s = (.ok (.sequence id (items.filter b)), s₂) := by
  have same := evaluate_filterCall receiver sequence f item
  rw [bind_apply] at same
  rcases run : Items.filterWhere (f.selector frames) items s₁ with ⟨error | some_items, t⟩
  · rw [run] at same
    rw [same] at found
    cases found
  · rw [run] at same
    obtain ⟨decides, rfl⟩ := steady.determined.decides s₁ run
    exact ⟨_, _, _, decides, same⟩

/-- Picking with a predicate picks from the items that satisfy it. -/
theorem pick_agree (hm : m ∈ Items.picks) {item : Ty} {kept : Value}
    (steady : f.IsSteady frames items)
    (found : ((filterCall target f item).evaluate frames s).1 = .ok kept) :
    Agree frames s (sequenceCall target m (some f) none ty)
      (sequenceCall (filterCall target f item) m none none ty) := by
  obtain ⟨b, s₂, id, decides, run⟩ := exists_of_filterCall receiver sequence steady found
  obtain ⟨fromRight, result, call⟩ := Items.call_pick hm ty
  rw [Agree, evaluate_sequenceCall receiver sequence, evaluate_sequenceCall run rfl, call, call]
  exact outcome_bind_lift result (decides.pick fromRight s₁ s₂)

/-- All items satisfy the predicate if those that do are as many. -/
theorem all_iff {item : Ty} {kept : Value} (steady : f.IsSteady frames items)
    (few : items.length < 2147483648)
    (found : ((filterCall target f item).evaluate frames s).1 = .ok kept) :
    ∃ all, ((sequenceCall target .all (some f) none .boolean).evaluate frames s).1 =
        .ok (.boolean all) ∧
      (all = true ↔
        Agree frames s (sequenceCall (filterCall target f item) .count none none ty)
          (sequenceCall target .count none none ty)) := by
  obtain ⟨b, s₂, id, decides, run⟩ := exists_of_filterCall receiver sequence steady found
  refine ⟨items.all b, ?_, ?_⟩
  · rw [evaluate_sequenceCall receiver sequence]
    show ((Items.allWhere (f.selector frames) items >>=
      fun all => return Value.boolean all) s₁).1 = _
    rw [bind_apply]
    have all := decides.allWhere s₁
    rcases visit : Items.allWhere (f.selector frames) items s₁ with ⟨r, t⟩
    rw [visit] at all
    obtain rfl : r = .ok (items.all b) := all
    rfl
  · rw [Agree, evaluate_sequenceCall receiver sequence, evaluate_sequenceCall run rfl]
    show _ ↔ (Except.ok (Value.int32 (items.filter b).length) : Except EvalError Value) =
      Except.ok (Value.int32 items.length)
    have fewer := List.length_filter_le b items
    rw [Except.ok.injEq, Value.int32_eq_iff (by omega) few, List.all_eq_true,
      List.length_filter_eq_length_iff]

end Receiver

/-! ## Values of a lambda -/

/-- The type to which the values of a lambda are converted before they are put together. -/
def aggregateTy (m : SequenceMethod) (u : Ty) : Ty :=
  if m = .sum then SequenceMethod.sumTy u else u

/-- A lambda whose values are converted before they are put together. -/
def aggregateBody [GuidFormat] (schema : Schema) (m : SequenceMethod) (f : Expr) : Expr :=
  if m = .sum then f.coerceTo schema (SequenceMethod.sumTy f.ty) else f

/-- The tree of a call that makes one value of what its lambda gives for the items. -/
def aggregateCall [GuidFormat] (schema : Schema) (target : Expr) (m : SequenceMethod) (f : Expr) :
    Expr :=
  .sequenceCall target m (some (aggregateBody schema m f)) none (m.resultTy f.ty none)

/-- The call that replaces the items by what the lambda gives for them. -/
def selectCall (target f : Expr) : Expr :=
  .sequenceCall target .select (some f) none (.sequence f.ty)

theorem calls_select_iff : Calls c w target .select (some f) e ↔
    target.ty.element?.isSome = true ∧ e = selectCall target f := by
  rw [calls_iff, Option.isSome_iff_exists, ← exists_and_right]
  refine exists_congr fun item => and_congr_right fun _ => ?_
  constructor
  · rintro ⟨-, same⟩
    exact same
  · rintro same
    refine ⟨?_, same⟩
    rintro _ ⟨⟩
    rfl

/-- A lambda that is left out stands for the item itself. -/
theorem calls_aggregate_iff (hm : m ∈ Items.aggregates) : Calls c w target m lambda e ↔
    ∃ item, target.ty.element? = some item ∧
      m.role.accepts (lambda.getD (.parameter c.scope.depth item)).ty = true ∧
      e = aggregateCall w.workspace.registry.schema target m
        (lambda.getD (.parameter c.scope.depth item)) := by
  rw [calls_iff]
  refine exists_congr fun item => and_congr_right fun _ => ?_
  have implied : lambdaOr c m item lambda = some (lambda.getD (.parameter c.scope.depth item)) := by
    cases lambda with
    | some f => rfl
    | none =>
      have implies : m.impliesIdentity = true := by
        revert m
        decide
      rw [lambdaOr, implies]
      rfl
  have selected (u : Ty) : m.resultTy item (some u) = m.resultTy u none := by
    simp only [Items.aggregates, List.mem_cons, List.not_mem_nil, or_false] at hm
    obtain rfl | rfl | rfl | rfl := hm <;> rfl
  rw [implied]
  generalize lambda.getD (.parameter c.scope.depth item) = f
  have tree : sequenceTree w.workspace.registry.schema target m item (some f) =
      aggregateCall w.workspace.registry.schema target m f := by
    simp only [sequenceTree, aggregateCall, aggregateBody, Option.map_some, selected]
    by_cases sum : m = .sum
    · subst sum
      rfl
    · simp only [if_neg sum]
  rw [tree]
  simp only [Option.mem_def, Option.some.injEq, forall_eq']

theorem aggregateBody_represents (schema : Schema) (m : SequenceMethod) (f : Expr) :
    (aggregateBody schema m f).Represents schema f (aggregateTy m f.ty) := by
  unfold aggregateBody aggregateTy
  split
  · exact .coerceTo schema f _
  · exact .refl schema f

/-- Every number converts to the type of a sum, and nothing declares how. -/
theorem exists_implicit_sumTy (schema : Schema) {u : Ty} (number : u.nonNullable.isNumeric = true) :
    (∃ kind, u.Implicit (SequenceMethod.sumTy u) kind) ∧
      schema.declared? u (SequenceMethod.sumTy u) = none := by
  cases u with
  | nullable t =>
    cases t with
    | int _ | single | double =>
      exact ⟨⟨_, .wrapNumber rfl rfl⟩, Schema.declared?_eq_none schema _ nofun⟩
    | _ => cases number
  | int _ | single | double =>
    exact ⟨⟨_, .numericWidening rfl rfl⟩, Schema.declared?_eq_none schema _ nofun⟩
  | _ => cases number

/-- What a lambda gives is converted without fail. -/
theorem exists_represent_aggregateTy (schema : Schema) (hm : m ∈ Items.aggregates) {u : Ty}
    (accepted : m.role.accepts u = true) :
    ∃ h : Value → Value, ∀ v, v.Conforms u →
      schema.represent u (aggregateTy m u) v = pure (h v) := by
  by_cases sum : m = .sum
  · subst sum
    obtain ⟨⟨kind, implicit⟩, plain⟩ := exists_implicit_sumTy schema accepted
    refine ⟨fun v => (v.viewAs u (SequenceMethod.sumTy u)).toOption.getD v, fun v conforms => ?_⟩
    obtain ⟨r, hr, -⟩ := implicit.viewAs conforms
    show schema.represent u (SequenceMethod.sumTy u) v = _
    rw [Schema.represent_eq_viewAs plain]
    simp only [hr]
    rfl
  · refine ⟨id, fun v _ => ?_⟩
    rw [aggregateTy, if_neg sum, Schema.represent_of_eq rfl]
    rfl

/-- Such a method with a lambda is the method without one on the sequence that the lambda gives, if
the trees agree. -/
theorem fuses_select (hm : m ∈ Items.aggregates) {agree : Expr → Expr → Expr → Prop}
    (h : m.role.accepts f.ty = true → agree (selectCall target f)
      (aggregateCall w.workspace.registry.schema target m f)
      (aggregateCall w.workspace.registry.schema (selectCall target f) m
        (.parameter c.scope.depth f.ty))) :
    Fuses c w target f .select m agree where
  apart e calls := by
    obtain ⟨item, element, accepted, rfl⟩ := (calls_aggregate_iff hm).1 calls
    refine ⟨selectCall target f, _, calls_select_iff.2 ⟨by rw [element]; rfl, rfl⟩,
      (calls_aggregate_iff hm).2 ⟨f.ty, rfl, accepted, rfl⟩, rfl, h accepted⟩
  together inner e' calls calls' := by
    obtain ⟨given, rfl⟩ := calls_select_iff.1 calls
    obtain ⟨_, ⟨⟩, accepted, rfl⟩ := (calls_aggregate_iff hm).1 calls'
    obtain ⟨item, element⟩ := Option.isSome_iff_exists.1 given
    exact ⟨_, (calls_aggregate_iff hm).2 ⟨item, element, accepted, rfl⟩, rfl, h accepted⟩

/-- The lambda of such a call gives the converted values of the given one. -/
theorem selector_aggregateBody (schema : Schema) (accepted : m.role.accepts f.ty = true)
    (hm : m ∈ Items.aggregates) (frames : List Value) :
    (aggregateBody schema m f).selector frames =
      fun item => f.selector frames item >>= schema.represent f.ty (aggregateTy m f.ty) := by
  have notNull : f.ty = .null → f.constant? = some .null := by
    intro null
    rw [null] at accepted
    simp only [Items.aggregates, List.mem_cons, List.not_mem_nil, or_false] at hm
    obtain rfl | rfl | rfl | rfl := hm <;> cases accepted
  funext item
  exact (aggregateBody_represents schema m f).evaluate notNull (innerFrames frames item)

section Receiver

variable (receiver : target.evaluate frames s = (.ok v, s₁)) (sequence : v.items? = some items)

include receiver sequence

/-- What is made of the values of a lambda is made of the items that the lambda gives. -/
theorem aggregate_agree (hm : m ∈ Items.aggregates) {depth : Nat} (inside : depth = frames.length)
    (accepted : m.role.accepts f.ty = true) (steady : f.IsSteady frames items) (schema : Schema) :
    Agree frames s (aggregateCall schema target m f)
      (aggregateCall schema (selectCall target f) m (.parameter depth f.ty)) := by
  obtain ⟨h, hh⟩ := exists_represent_aggregateTy schema hm accepted
  obtain ⟨total, call⟩ := Items.call_aggregate hm (m.resultTy f.ty none)
  have selected : (selectCall target f).evaluate frames s =
      (Items.selectAll (f.selector frames) items >>= Eval.newSequence) s₁ :=
    evaluate_sequenceCall receiver sequence
  have fused : Items.selectAll ((aggregateBody schema m f).selector frames) items =
      Items.selectAll (f.selector frames) items >>= fun values => pure (values.map h) := by
    rw [selector_aggregateBody schema accepted hm]
    exact Items.selectAll_bind fun item hi s v s' run => hh v (steady.conforms item hi s v s' run)
  rw [Agree, aggregateCall, evaluate_sequenceCall receiver sequence, Option.map_some, call, fused]
  rw [bind_apply] at selected
  rcases run : Items.selectAll (f.selector frames) items s₁ with ⟨error | values, s₂⟩
  · rw [run] at selected
    rw [aggregateCall, evaluate_sequenceCall_error selected]
    simp only [bind_apply, run]
  · rw [run] at selected
    rw [aggregateCall, evaluate_sequenceCall selected rfl]
    have identity : (Expr.parameter depth f.ty).selector frames = pure := by
      funext item
      have last : (innerFrames frames item)[depth]? = some item := by
        rw [inside]
        exact List.getElem?_concat_length
      rw [selector, evaluate, last]
    have composed : Items.selectAll
        ((aggregateBody schema m (.parameter depth f.ty)).selector frames) values =
        pure (values.map h) := by
      rw [selector_aggregateBody schema (f := .parameter depth f.ty) accepted hm, identity,
        Items.selectAll_bind (f := pure) (h := h), Items.selectAll_pure, pure_bind]
      rintro v hv s _ _ ⟨⟩
      exact hh v (Items.forall_mem_selectAll steady.conforms run v hv)
    rw [Option.map_some]
    show _ = (Items.call m values _ _ (m.resultTy f.ty none) _).1
    rw [call, composed]
    simp only [bind_apply, run]
    rfl

end Receiver

/-! ## Calls -/

/-- **A call with a lambda does what two calls do**, the first of which applies the lambda.
Counting with a predicate counts the items that satisfy it, and the sum, the extremes and the
average of what a lambda gives are those of the sequence that it gives.  If the items that satisfy a
predicate are found without an error, picking with the predicate is picking from them, and all items
satisfy it exactly if those that do are as many. -/
theorem calls_fuse (depth : c.scope.depth = frames.length)
    (receiver : target.evaluate frames s = (.ok v, s₁)) (sequence : v.items? = some items)
    (few : items.length < 2147483648) (steady : f.IsSteady frames items) :
    Fuses c w target f .filter .count (fun _ e e' => Agree frames s e e') ∧
    (∀ m ∈ Items.aggregates, Fuses c w target f .select m fun _ e e' => Agree frames s e e') ∧
    (∀ m ∈ Items.picks, Fuses c w target f .filter m fun kept e e' =>
      ∀ found, (kept.evaluate frames s).1 = .ok found → Agree frames s e e') ∧
    ∀ e, Calls c w target .all (some f) e → ∃ kept counted whole,
      Calls c w target .filter (some f) kept ∧ Calls c w kept .count none counted ∧
      Calls c w target .count none whole ∧
      ∀ found, (kept.evaluate frames s).1 = .ok found →
        ∃ all, (e.evaluate frames s).1 = .ok (.boolean all) ∧
          (all = true ↔ Agree frames s counted whole) := by
  refine ⟨?_, ?_, ?_, ?_⟩
  · exact fuses_filter List.mem_cons_self fun item => count_agree receiver sequence f item
  · intro m hm
    refine fuses_select hm fun accepted => ?_
    exact aggregate_agree receiver sequence hm depth accepted steady _
  · intro m hm
    refine fuses_filter (List.mem_cons_of_mem _ hm) fun item found run => ?_
    exact pick_agree receiver sequence hm steady run
  · intro e calls
    obtain ⟨item, element, boolean, rfl⟩ := (calls_predicate_iff rfl).1 calls
    refine ⟨filterCall target f item, _, _,
      (calls_predicate_iff rfl).2 ⟨item, element, boolean, rfl⟩,
      (calls_bare_iff rfl).2 ⟨item, rfl, rfl⟩, (calls_bare_iff rfl).2 ⟨item, element, rfl⟩, ?_⟩
    intro found run
    exact all_iff receiver sequence steady few run

/-- Two bytes, whose sum is none. -/
def bytes : Value := .sequence 0 [.int .uint8 (.wrap .uint8 200), .int .uint8 (.wrap .uint8 100)]

/-- A text about bytes. -/
def aboutBytes : BindContext := ⟨.ofElement (.sequence (.int .uint8)), [], true, none, 0⟩

end

/-- The sum of bytes is the sum of the sequence of these bytes, as a wider number. -/
theorem calls_fuse_bytes :
    let target : Expr := .parameter 0 (.sequence (.int .uint8))
    let byte : Expr := .parameter 1 (.int .uint8)
    ∃ e inner e', Calls aboutBytes ⟨[], .empty⟩ target .sum (some byte) e ∧
      Calls aboutBytes ⟨[], .empty⟩ target .select (some byte) inner ∧
      Calls aboutBytes ⟨[], .empty⟩ inner .sum none e' ∧
      (e.evaluate [bytes] .empty).1 = .ok (Value.int32 300) ∧
      (e'.evaluate [bytes] .empty).1 = .ok (Value.int32 300) := by
  intro target byte
  have steady : byte.IsSteady [bytes]
      [.int .uint8 (.wrap .uint8 200), .int .uint8 (.wrap .uint8 100)] := by
    refine ⟨fun _ _ _ _ => rfl, ?_⟩
    rintro item member s _ _ ⟨⟩
    simp only [List.mem_cons, List.not_mem_nil, or_false] at member
    obtain rfl | rfl := member <;> exact .int .uint8 _
  have fuses := (calls_fuse (c := aboutBytes) (w := ⟨[], .empty⟩) (f := byte) (s := .empty)
    rfl (show target.evaluate [bytes] .empty = (.ok bytes, .empty) from rfl) rfl (by decide)
    steady).2.1 .sum List.mem_cons_self
  have calls : Calls aboutBytes ⟨[], .empty⟩ target .sum (some byte)
      (aggregateCall Schema.empty target .sum byte) := ⟨_, 0, rfl, rfl⟩
  obtain ⟨inner, e', select, sum, -, agree⟩ := fuses.apart _ calls
  have total : ((aggregateCall Schema.empty target .sum byte).evaluate [bytes] .empty).1 =
      .ok (Value.int32 300) := rfl
  exact ⟨_, inner, e', calls, select, sum, total, agree.symm.trans total⟩

end Expr

end TypedExpr
