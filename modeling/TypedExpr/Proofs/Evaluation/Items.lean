import TypedExpr.Proofs.Evaluation.Reading
import TypedExpr.Proofs.Evaluation.Visits

/-!
# Methods of sequences under a reading

What the methods of sequences give on items of a type, where the lambda gives values of its type on
every item that it is applied to.

* `Items.filterWhere_ensures`, `Items.selectAll_ensures`, … — visits of the items.
* `Items.sum_meets`, `Items.average_meets`, … — aggregates.
* **`Items.call_ensures`** — a method that fits gives a value of its result type.
-/

namespace TypedExpr.Items

variable {format : GuidFormat} {P : Premises} {lax : Prop} {V : Value → Ty → Prop}
  {H : EvalError → Prop} {E : EvalError → Store → Prop} {goes : Value → Bool} {t u : Ty}
  {items : List Value} {f p : Selector} {s : Store}

/-- On every item that a visit comes to, the lambda gives a value of the type, or fails as
expected. -/
def Maps (V : Value → Ty → Prop) (E : EvalError → Store → Prop) (goes : Value → Bool) (f : Selector)
    (items : List Value) (s : Store) (u : Ty) : Prop :=
  ∀ item t, Applies goes f items s item t → EnsuresAt t (f item) (V · u) E

theorem Maps.head {item : Value} (h : Maps V E goes f (item :: items) s u) :
    EnsuresAt s (f item) (V · u) E :=
  h item s .here

/-- What is known of a visit is known behind an item that the visit goes on from. -/
theorem Maps.tail {item v : Value} {t : Store} (h : Maps V E goes f (item :: items) s u)
    (run : f item s = (.ok v, t)) (on : goes v = true) : Maps V E goes f items t u :=
  fun i t' applied => h i t' (.later run on applied)

/-! ## Visits -/

theorem satisfies_ensures (R : Reading P lax V H) (hE : ∀ e s, H e → E e s) {item : Value}
    (h : EnsuresAt s (p item) (V · .boolean) E) :
    EnsuresAt s (satisfies p item) (fun _ => True) E :=
  h.bind fun _ t _ hv => .lift ((R.truth hv).mono_error fun e => hE e t)

theorem findWhere?_ensures (R : Reading P lax V H) (hE : ∀ e s, H e → E e s) :
    ∀ {items : List Value} {s : Store}, Maps V E (·.isTruth false) p items s .boolean →
      EnsuresAt s (findWhere? p items) (fun v? => ∀ v ∈ v?, v ∈ items) E
  | [], _, _ => .pure nofun
  | item :: rest, _, h => by
    refine (satisfies_ensures R hE h.head).bind fun here t run _ => ?_
    cases here with
    | true =>
      refine .pure ?_
      rintro _ ⟨⟩
      exact List.mem_cons_self
    | false =>
      have behind := findWhere?_ensures R hE (h.tail (satisfies_eq_ok.1 run) rfl)
      exact behind.mono (fun _ hv v hm => List.mem_cons_of_mem _ (hv v hm)) fun _ _ => id

theorem filterWhere_ensures (R : Reading P lax V H) (hE : ∀ e s, H e → E e s) :
    ∀ {items : List Value} {s : Store},
      Maps V E (fun v => v.isTruth false || v.isTruth true) p items s .boolean →
      EnsuresAt s (filterWhere p items) (fun kept => ∀ v ∈ kept, v ∈ items) E
  | [], _, _ => .pure nofun
  | item :: rest, _, h => by
    refine (satisfies_ensures R hE h.head).bind fun keep t run _ => ?_
    have behind := h.tail (satisfies_eq_ok.1 run) (Value.isTruth_or_iff.2 ⟨keep, rfl⟩)
    refine (filterWhere_ensures R hE behind).bind fun kept _ _ hk => .pure fun v hv => ?_
    split at hv
    · rcases List.mem_cons.1 hv with rfl | hv
      · exact List.mem_cons_self
      · exact List.mem_cons_of_mem _ (hk v hv)
    · exact List.mem_cons_of_mem _ (hk v hv)

theorem allWhere_ensures (R : Reading P lax V H) (hE : ∀ e s, H e → E e s) :
    ∀ {items : List Value} {s : Store}, Maps V E (·.isTruth true) p items s .boolean →
      EnsuresAt s (allWhere p items) (fun _ => True) E
  | [], _, _ => .pure trivial
  | item :: rest, _, h => by
    refine (satisfies_ensures R hE h.head).bind fun here t run _ => ?_
    cases here with
    | true => exact allWhere_ensures R hE (h.tail (satisfies_eq_ok.1 run) rfl)
    | false => exact .pure trivial

theorem selectAll_ensures : ∀ {items : List Value} {s : Store},
    Maps V E (fun _ => true) f items s u →
    EnsuresAt s (selectAll f items) (fun vs => vs.length = items.length ∧ ∀ v ∈ vs, V v u) E
  | [], _, _ => .pure ⟨rfl, nofun⟩
  | item :: rest, _, h => by
    refine h.head.bind fun v t run hv => ?_
    refine (selectAll_ensures (h.tail run rfl)).bind fun vs _ _ hvs => .pure ⟨?_, ?_⟩
    · rw [List.length_cons, List.length_cons, hvs.1]
    · exact List.forall_mem_cons.2 ⟨hv, hvs.2⟩

/-! ## Aggregates -/

theorem sum_meets (R : Reading P lax V H) {values : List Value} (hv : ∀ v ∈ values, V v t)
    (ht : t.nonNullable.isArithmetic = true) : Meets (sum values t) (V · t) H := by
  have hn : t.nonNullable.nonNullable = t.nonNullable := by
    cases hu : t.nonNullable with
    | nullable u => rw [hu] at ht; cases ht
    | _ => rfl
  -- the sum so far is a number without null, and so are the values that are left
  suffices h : ∀ (vs : List Value) (acc : Value), V acc t.nonNullable →
      (∀ v ∈ vs, V v t.nonNullable) →
      Meets (vs.foldlM (Value.combine (.arithmetic .add)) acc) (V · t.nonNullable) H by
    refine (h _ _ (R.defaultOf _) fun v hm => ?_).mono (fun _ => R.of_nonNullable) fun _ => id
    obtain ⟨hm, hnull⟩ := List.mem_filter.1 hm
    exact R.nonNullable (hv v hm) (by simpa using hnull)
  intro vs
  induction vs with
  | nil => exact fun acc hacc _ => meets_ok.2 hacc
  | cons v vs ih =>
    intro acc hacc hvs
    rw [List.forall_mem_cons] at hvs
    rw [List.foldlM_cons]
    refine (R.arithmetic .add hacc hvs.1 (by rwa [hn])).bind fun acc hacc => ?_
    exact ih acc hacc hvs.2

theorem better_mem (want : Ordering) (best v : Value) :
    better want best v = best ∨ better want best v = v := by
  unfold better
  split
  · exact Or.inr rfl
  · exact Or.inl rfl

theorem foldl_better_mem (want : Ordering) : ∀ (rest : List Value) (v : Value),
    rest.foldl (better want) v ∈ v :: rest
  | [], _ => List.mem_cons_self
  | w :: rest, v => by
    have h := foldl_better_mem want rest (better want v w)
    rcases List.mem_cons.1 h with h | h
    · rw [List.foldl_cons, h]
      rcases better_mem want v w with hb | hb
      · rw [hb]
        exact List.mem_cons_self
      · rw [hb]
        exact List.mem_cons_of_mem _ List.mem_cons_self
    · exact List.mem_cons_of_mem _ (List.mem_cons_of_mem _ h)

/-- An extreme value is one of the values. -/
theorem extreme?_mem {want : Ordering} {values : List Value} {v : Value}
    (h : extreme? want values = some v) : v ∈ values := by
  unfold extreme? at h
  split at h
  · cases h
  next w rest hw =>
    cases h
    have hm := foldl_better_mem want rest w
    rw [← hw] at hm
    exact (List.mem_filter.1 hm).1

theorem orNull_meets (R : Reading P lax V H) {v? : Option Value} (hv : ∀ v ∈ v?, V v t) :
    Meets (orNull t v?) (V · t) H := by
  unfold orNull
  split
  next v => exact meets_ok.2 (hv v rfl)
  next =>
    split
    next accepts => exact meets_ok.2 (R.null accepts)
    next => exact meets_error.2 (R.unstuck rfl)

theorem average_meets (R : Reading P lax V H) {values : List Value}
    (ht : t.nonNullable = .single ∨ t.nonNullable = .double) :
    Meets (average values t) (V · t) H := by
  unfold average
  split
  · exact orNull_meets R nofun
  · have target : t.nonNullable.nonNullable = t.nonNullable ∧
        Binding.isNumericLike t.nonNullable = true := by
      rcases ht with ht | ht <;> rw [ht] <;> exact ⟨rfl, rfl⟩
    refine (R.cast (a := .double) (R.admits fun _ => .double _) ?_).mono
      (fun _ => R.of_nonNullable) ?_
    · rw [target.1]
      exact .numeric rfl target.2
    · rintro e (he | he)
      · exact he
      · cases he

/-! ## Parts of a sequence -/

theorem mem_distinctFrom {v : Value} : ∀ {seen items : List Value},
    v ∈ distinctFrom seen items → v ∈ items
  | _, [], h => by cases h
  | seen, item :: rest, h => by
    unfold distinctFrom at h
    split at h
    · exact List.mem_cons_of_mem _ (mem_distinctFrom h)
    · rcases List.mem_cons.1 h with rfl | h
      · exact List.mem_cons_self
      · exact List.mem_cons_of_mem _ (mem_distinctFrom h)

theorem orderBy_ensures {descending : Bool} (h : Maps V E (fun _ => true) f items s u) :
    EnsuresAt s (orderBy f descending items) (fun vs => ∀ v ∈ vs, v ∈ items) E := by
  refine (selectAll_ensures h).bind fun keys _ _ _ => .pure fun v hv => ?_
  obtain ⟨pair, hp, rfl⟩ := List.mem_map.1 hv
  have hp := (List.mergeSort_perm _ _).mem_iff.1 hp
  exact (List.of_mem_zip hp).2

/-- A match is one of the items, from whichever side it is sought. -/
theorem pick_ensures (R : Reading P lax V H) (hE : ∀ e s, H e → E e s) {p? : Option Selector}
    {fromRight : Bool}
    (h : ∀ p ∈ p?, Maps V E (·.isTruth false) p (if fromRight then items.reverse else items) s
      .boolean) :
    EnsuresAt s (pick p? fromRight items) (fun v? => ∀ v ∈ v?, v ∈ items) E := by
  have inside : ∀ v, v ∈ (if fromRight then items.reverse else items) → v ∈ items := by
    intro v hv
    split at hv
    · exact List.mem_reverse.1 hv
    · exact hv
  simp only [pick]
  generalize (if fromRight then items.reverse else items) = ordered at h inside
  cases p? with
  | some p =>
    exact (findWhere?_ensures R hE (h p rfl)).mono
      (fun _ hv v hm => inside v (hv v hm)) fun _ _ => id
  | none =>
    refine .pure fun v hv => inside v ?_
    exact List.mem_of_head? hv

/-! ## Methods -/

theorem newSequence_ensures (R : Reading P lax V H) (h : ∀ v ∈ items, V v t) :
    EnsuresAt s (Eval.newSequence items) (V · (.sequence t)) E :=
  meets_ok.2 (R.sequence h)

/-- The lambda that is given to a method, with the type of its body. -/
abbrev Selects (V : Value → Ty → Prop) (E : EvalError → Store → Prop) (m : SequenceMethod)
    (items : List Value) (s : Store) : Option Selector → Option Ty → Prop :=
  Option.Rel fun f u => Maps V E m.goesOn f (m.visited items) s u

theorem Selects.get {m : SequenceMethod} {f? : Option Selector} {u? : Option Ty}
    (h : Selects V E m items s f? u?) (given : u?.isSome = true) :
    ∃ f u, f? = some f ∧ u? = some u ∧ Maps V E m.goesOn f (m.visited items) s u := by
  cases h with
  | none => cases given
  | some maps => exact ⟨_, _, rfl, rfl, maps⟩

/-- A lambda that has to be a truth value is one. -/
theorem Selects.predicate {m : SequenceMethod} {f? : Option Selector} {u? : Option Ty}
    (h : Selects V E m items s f? u?)
    (accepted : ∀ u ∈ u?, LambdaRole.predicate.accepts u = true) :
    ∀ f ∈ f?, Maps V E m.goesOn f (m.visited items) s .boolean := by
  rintro f ⟨⟩
  cases h with
  | @some _ u maps =>
    have hu : u = .boolean := by simpa [LambdaRole.accepts] using accepted u rfl
    exact hu ▸ maps

/-- The types of sums are types in which numbers are computed. -/
theorem isArithmetic_sumTy (h : u.nonNullable.isNumeric = true) :
    (SequenceMethod.sumTy u).nonNullable.isArithmetic = true := by
  unfold SequenceMethod.sumTy
  rw [Ty.nonNullable_lift_of_isNumeric (Ty.isNumeric_promoted h)]
  exact Ty.isArithmetic_promoted h

theorem nonNullable_averageTy (u : Ty) :
    (SequenceMethod.averageTy u).nonNullable = .single ∨
      (SequenceMethod.averageTy u).nonNullable = .double := by
  unfold SequenceMethod.averageTy
  simp only
  split
  · exact Or.inl (Ty.nonNullable_lift_of_isNumeric rfl _)
  · exact Or.inr (Ty.nonNullable_lift_of_isNumeric rfl _)

/-- **A method that fits gives a value of its result type**, or fails as expected. -/
theorem call_ensures (R : Reading P lax V H) (hE : ∀ e s, H e → E e s) {m : SequenceMethod}
    {item : Ty} {lambda value : Option Ty} {f? : Option Selector} {argument : Eval Value}
    (fits : m.Fits item lambda value t) (hi : ∀ v ∈ items, V v item)
    (hf : Selects V E m items s f? lambda)
    (ha : m.argument = .value → ∀ u ∈ value, EnsuresAt s argument (V · u) E) :
    EnsuresAt s (call m items f? argument t) (V · t) E := by
  have lift {r : Except EvalError Value} {t' : Store} (h : Meets r (V · t) H) :
      EnsuresAt t' (liftM r : Eval Value) (V · t) E :=
    .lift (h.mono_error fun e => hE e t')
  have picked (fromRight : Bool)
      (h : ∀ p ∈ f?, Maps V E (·.isTruth false) p (if fromRight then items.reverse else items) s
        .boolean) :
      EnsuresAt s (pick f? fromRight items) (fun v? => ∀ v ∈ v?, V v item) E :=
    (pick_ensures R hE h).mono (fun _ h v hv => hi v (h v hv)) fun _ _ => id
  obtain ⟨accepted, given, argumentTy, summed, result⟩ := fits
  cases m with
  | any =>
    subst result
    cases hf with
    | none => exact .pure (R.boolean _)
    | some maps =>
      have hp := Selects.predicate (.some maps) accepted _ rfl
      exact (findWhere?_ensures R hE hp).bind fun _ _ _ _ => .pure (R.boolean _)
  | all =>
    subst result
    obtain ⟨f, u, rfl, rfl, maps⟩ := hf.get (given (Or.inl rfl))
    have hp := Selects.predicate (.some maps) accepted _ rfl
    exact (allWhere_ensures R hE hp).bind fun _ _ _ _ => .pure (R.boolean _)
  | count =>
    subst result
    cases hf with
    | none => exact .pure (R.int32 _)
    | some maps =>
      have hp := Selects.predicate (.some maps) accepted _ rfl
      exact (filterWhere_ensures R hE hp).bind fun _ _ _ _ => .pure (R.int32 _)
  | contains =>
    subst result
    exact (ha rfl _ (argumentTy rfl)).bind fun _ _ _ _ => .pure (R.boolean _)
  | sum =>
    obtain ⟨f, u, rfl, rfl, maps⟩ := hf.get (given (Or.inr rfl))
    obtain rfl := Option.some.inj (summed rfl)
    have number : u.nonNullable.isArithmetic = true := by
      rw [result]
      exact isArithmetic_sumTy (accepted u rfl)
    exact (selectAll_ensures maps).bind fun vs _ _ hvs => lift (sum_meets R hvs.2 number)
  | min | max =>
    subst result
    obtain ⟨f, u, rfl, rfl, maps⟩ := hf.get (given (Or.inr rfl))
    refine (selectAll_ensures maps).bind fun vs _ _ hvs => lift (orNull_meets R fun v hv => ?_)
    exact hvs.2 v (extreme?_mem hv)
  | average =>
    subst result
    obtain ⟨f, u, rfl, rfl, maps⟩ := hf.get (given (Or.inr rfl))
    exact (selectAll_ensures maps).bind fun vs _ _ _ =>
      lift (average_meets R (nonNullable_averageTy u))
  | first | last =>
    subst result
    refine (picked _ ?_).bind fun v? _ _ hv => lift ?_
    · exact hf.predicate accepted
    cases v? with
    | none => exact meets_error.2 (R.unstuck rfl)
    | some v => exact meets_ok.2 (hv v rfl)
  | firstOrDefault | lastOrDefault =>
    subst result
    refine (picked _ ?_).bind fun v? _ _ hv => .pure ?_
    · exact hf.predicate accepted
    cases v? with
    | none => exact R.defaultOf _
    | some v => exact hv v rfl
  | filter =>
    subst result
    obtain ⟨f, u, rfl, rfl, maps⟩ := hf.get (given (Or.inl rfl))
    have hp := Selects.predicate (.some maps) accepted _ rfl
    refine (filterWhere_ensures R hE hp).bind fun kept _ _ hk => ?_
    exact newSequence_ensures R fun v hv => hi v (hk v hv)
  | select =>
    subst result
    obtain ⟨f, u, rfl, rfl, maps⟩ := hf.get (given (Or.inl rfl))
    exact (selectAll_ensures maps).bind fun vs _ _ hvs => newSequence_ensures R hvs.2
  | orderBy | orderByDescending =>
    subst result
    obtain ⟨f, u, rfl, rfl, maps⟩ := hf.get (given (Or.inl rfl))
    refine (orderBy_ensures maps).bind fun vs _ _ hvs => ?_
    exact newSequence_ensures R fun v hv => hi v (hvs v hv)
  | distinct =>
    subst result
    exact newSequence_ensures R fun v hv => hi v (mem_distinctFrom hv)
  | take =>
    subst result
    refine (ha rfl _ (argumentTy rfl)).bind fun n _ _ _ => ?_
    exact newSequence_ensures R fun v hv => hi v (List.mem_of_mem_take hv)
  | skip =>
    subst result
    refine (ha rfl _ (argumentTy rfl)).bind fun n _ _ _ => ?_
    exact newSequence_ensures R fun v hv => hi v (List.mem_of_mem_drop hv)

end TypedExpr.Items
