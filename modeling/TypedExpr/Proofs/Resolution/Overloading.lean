import TypedExpr.Overload
import TypedExpr.Proofs.Sorting.Ordering

/-!
# The best method

What it costs a method to take some arguments is said position by position, without regard to the
other methods.  Of the methods of one name, those count that no other one beats: a single one is
called, and several are ambiguous.  That they are found by sorting is not to be noticed, and
neither is the order in which the methods are listed.

* `Overload.Promotes`, `Overload.Better`, `Overload.IsBest` — what a method makes of the arguments,
  and when it is one of the best.
* `Overload.choose_eq` — the first ones after sorting are those that no other one beats.
* **`Overload.resolve_best`** — the method that is called, and the errors.
-/

namespace TypedExpr.Overload

section

variable {format : GuidFormat} {s : Schema} {m : Method} {methods : List Method}
  {args es : List Expr} {ts : List Ty} {ps qs : List Promotion} {viable : List Overload}
  {a b c o : Overload}

/-! ## Promoting arguments -/

/-- What becomes of arguments in the types of parameters, position by position. -/
structure Promotes [GuidFormat] (s : Schema) (args : List Expr) (params : List Ty)
    (ps : List Promotion) : Prop where
  arity : args.length = params.length
  length : ps.length = args.length
  promoted : ∀ (i : Nat) (e : Expr) (t : Ty), args[i]? = some e → params[i]? = some t →
    e.promote? s t true = ps[i]?

/-- As many arguments as there are parameters, each of which can be promoted to the type of its
parameter. -/
structure Accepts [GuidFormat] (s : Schema) (args : List Expr) (params : List Ty) : Prop where
  arity : args.length = params.length
  promotable : ∀ (i : Nat) (e : Expr) (t : Ty), args[i]? = some e → params[i]? = some t →
    ∃ p, e.promote? s t true = some p

theorem promotes_cons_iff {e : Expr} {t : Ty} {p : Promotion} :
    Promotes s (e :: es) (t :: ts) (p :: ps) ↔
      e.promote? s t true = some p ∧ Promotes s es ts ps := by
  constructor
  · intro h
    refine ⟨h.promoted 0 e t rfl rfl, Nat.succ.inj h.arity, Nat.succ.inj h.length, ?_⟩
    intro i e' t' he ht
    exact h.promoted (i + 1) e' t' he ht
  · rintro ⟨first, rest⟩
    refine ⟨congrArg Nat.succ rest.arity, congrArg Nat.succ rest.length, ?_⟩
    intro i e' t' he ht
    cases i with
    | zero =>
      cases he
      cases ht
      exact first
    | succ i => exact rest.promoted i e' t' he ht

theorem promoteAll?_eq_some_iff : promoteAll? s es ts = some ps ↔ Promotes s es ts ps := by
  induction es generalizing ts ps with
  | nil =>
    cases ts with
    | nil =>
      constructor
      · intro h
        cases h
        exact ⟨rfl, rfl, fun _ _ _ h => by cases h⟩
      · intro h
        obtain rfl := List.eq_nil_of_length_eq_zero h.length
        rfl
    | cons t ts =>
      constructor
      · intro h
        cases h
      · intro h
        cases h.arity
  | cons e es ih =>
    cases ts with
    | nil =>
      constructor
      · intro h
        cases h
      · intro h
        cases h.arity
    | cons t ts =>
      constructor
      · intro h
        obtain ⟨p, hp, h⟩ := Option.bind_eq_some_iff.1 h
        obtain ⟨qs, hqs, h⟩ := Option.bind_eq_some_iff.1 h
        cases h
        exact promotes_cons_iff.2 ⟨hp, ih.1 hqs⟩
      · intro h
        cases ps with
        | nil => cases h.length
        | cons p ps =>
          obtain ⟨hp, rest⟩ := promotes_cons_iff.1 h
          show (e.promote? s t true).bind _ = _
          rw [hp, Option.bind_some]
          show (promoteAll? s es ts).bind _ = _
          rw [ih.2 rest]
          rfl

theorem Promotes.accepts (h : Promotes s es ts ps) : Accepts s es ts where
  arity := h.arity
  promotable i e t he ht := by
    obtain ⟨inside, -⟩ := List.getElem?_eq_some_iff.1 he
    rw [← h.length] at inside
    exact ⟨ps[i], (h.promoted i e t he ht).trans (List.getElem?_eq_getElem inside)⟩

theorem Accepts.promotes (h : Accepts s es ts) : ∃ ps, Promotes s es ts ps := by
  induction es generalizing ts with
  | nil =>
    obtain rfl := List.eq_nil_of_length_eq_zero h.arity.symm
    exact ⟨[], rfl, rfl, fun _ _ _ h => by cases h⟩
  | cons e es ih =>
    cases ts with
    | nil => cases h.arity
    | cons t ts =>
      obtain ⟨p, hp⟩ := h.promotable 0 e t rfl rfl
      have rest : Accepts s es ts :=
        ⟨Nat.succ.inj h.arity, fun i e' t' he ht => h.promotable (i + 1) e' t' he ht⟩
      obtain ⟨ps, hps⟩ := ih rest
      exact ⟨p :: ps, promotes_cons_iff.2 ⟨hp, hps⟩⟩

/-- What promotions cost together. -/
def totalCost : List Promotion → Nat
  | [] => 0
  | p :: ps => p.cost + totalCost ps

/-- How many arguments are taken as they are. -/
def exactArguments (ps : List Promotion) : Nat := (ps.filter Promotion.isExact).length

/-- A method with the promoted arguments. -/
def ofPromotions (m : Method) (ps : List Promotion) : Overload :=
  ⟨m, ps.map (·.expr), totalCost ps, exactArguments ps⟩

/-- The promotions cost less in total, or as much with more arguments taken as they are. -/
def Better (ps qs : List Promotion) : Prop :=
  totalCost ps < totalCost qs ∨ totalCost ps = totalCost qs ∧ exactArguments qs < exactArguments ps

theorem foldl_cost (ps : List Promotion) (n : Nat) :
    ps.foldl (fun n p => n + p.cost) n = n + totalCost ps := by
  induction ps generalizing n with
  | nil => rfl
  | cons p ps ih => rw [List.foldl_cons, ih, totalCost, Nat.add_assoc]

/-- What it takes to be one of those that sorting starts with. -/
theorem candidate?_eq_some_iff :
    candidate? s m args = some o ↔ ∃ ps, Promotes s args m.params ps ∧ o = ofPromotions m ps := by
  have built (ps : List Promotion) : (⟨m, ps.map (·.expr), ps.foldl (fun n p => n + p.cost) 0,
      (ps.filter Promotion.isExact).length⟩ : Overload) = ofPromotions m ps := by
    rw [foldl_cost, Nat.zero_add]
    rfl
  rw [candidate?, Option.map_eq_some_iff]
  constructor
  · rintro ⟨ps, hps, rfl⟩
    exact ⟨ps, promoteAll?_eq_some_iff.1 hps, built ps⟩
  · rintro ⟨ps, hps, rfl⟩
    exact ⟨ps, promoteAll?_eq_some_iff.2 hps, built ps⟩

theorem Promotes.candidate? (h : Promotes s args m.params ps) :
    candidate? s m args = some (ofPromotions m ps) :=
  candidate?_eq_some_iff.2 ⟨ps, h, rfl⟩

/-! ## Sorting -/

/-- The one is cheaper than the other, or costs as much and takes more arguments as they are. -/
def Beats (a b : Overload) : Prop :=
  a.cost < b.cost ∨ a.cost = b.cost ∧ b.exactCount < a.exactCount

instance (a b : Overload) : Decidable (a.Beats b) :=
  inferInstanceAs (Decidable (a.cost < b.cost ∨ a.cost = b.cost ∧ b.exactCount < a.exactCount))

theorem not_beats_self (a : Overload) : ¬ a.Beats a := by
  unfold Beats
  omega

theorem Beats.asymm (h : a.Beats b) : ¬ b.Beats a := by
  unfold Beats at h ⊢
  omega

/-- What beats one but not another is beaten by the other. -/
theorem Beats.of_not_beats (h : a.Beats b) (h' : ¬ a.Beats c) : c.Beats b := by
  unfold Beats at h h' ⊢
  omega

theorem isTiedWith_iff : a.isTiedWith b = true ↔ ¬ a.Beats b ∧ ¬ b.Beats a := by
  simp only [isTiedWith, Bool.and_eq_true, beq_iff_eq, Beats]
  omega

theorem isTiedWith_self (a : Overload) : a.isTiedWith a = true :=
  isTiedWith_iff.2 ⟨not_beats_self a, not_beats_self a⟩

theorem rank_ne_gt_iff : a.rank b ≠ .gt ↔ ¬ b.Beats a := by
  rw [Ne, rank, Ordering.then_eq_gt, Nat.compare_eq_gt, Nat.compare_eq_eq, Nat.compare_eq_gt, Beats]
  omega

theorem rank_linear : LinearOn (fun _ : Overload => True) rank :=
  have numbers : LinearOn (fun _ : Nat => True) compare := .of_key id fun _ _ _ _ => rfl
  (numbers.lex numbers.reverse).comap (fun o => (o.cost, o.exactCount))
    (fun _ _ => ⟨trivial, trivial⟩)
    fun a b _ _ => congrArg (compare a.cost b.cost).then Std.OrientedCmp.eq_swap

/-- Those that no other one beats, in their order. -/
def foremost (viable : List Overload) : List Overload :=
  viable.filter fun o => ∀ o' ∈ viable, ¬ o'.Beats o

/-- Up to where it fails once and for all, a test keeps what it keeps altogether. -/
theorem takeWhile_eq_filter {α : Type} {p : α → Bool} {l : List α}
    (h : l.Pairwise fun a b => p b = true → p a = true) : l.takeWhile p = l.filter p := by
  induction h with
  | nil => rfl
  | @cons a l first _ ih =>
    cases ha : p a with
    | true => rw [List.takeWhile_cons_of_pos ha, List.filter_cons_of_pos ha, ih]
    | false =>
      have fails : ∀ b ∈ l, ¬ p b = true := fun b hb kept => by
        rw [first b hb kept] at ha
        cases ha
      rw [List.takeWhile_cons_of_neg (by rw [ha]; decide),
        List.filter_cons_of_neg (by rw [ha]; decide), List.filter_eq_nil_iff.2 fails]

/-- Sorting does not touch the order of those that tie with one of them. -/
theorem filter_sortBy (a : Overload) (viable : List Overload) :
    (Items.sortBy rank viable).filter a.isTiedWith = viable.filter a.isTiedWith := by
  have tied : (viable.filter a.isTiedWith).Pairwise fun b c => b.rank c ≠ .gt := by
    refine List.pairwise_of_forall_mem_list fun b hb c hc => rank_ne_gt_iff.2 fun beats => ?_
    have tiedB := isTiedWith_iff.1 (List.mem_filter.1 hb).2
    have tiedC := isTiedWith_iff.1 (List.mem_filter.1 hc).2
    exact tiedB.1 (beats.of_not_beats tiedC.2)
  -- Those that tie with one are in order before sorting, so they stay in it, and none gets lost.
  have part := (Items.sortBy_sublist rank_linear (fun _ _ => trivial) List.filter_sublist
    tied).filter a.isTiedWith
  rw [List.filter_filter] at part
  simp only [Bool.and_self] at part
  refine (part.eq_of_length ?_).symm
  exact ((Items.sortBy_perm rank viable).filter _).length_eq.symm

/-- What sorting starts with is tied with exactly those that no other one beats. -/
theorem foremost_eq {rest : List Overload} (sorted : Items.sortBy rank viable = a :: rest) :
    foremost viable = (a :: rest).takeWhile a.isTiedWith := by
  have same {x : Overload} : x ∈ viable ↔ x ∈ a :: rest := by
    rw [← sorted]
    exact (Items.sortBy_perm rank viable).mem_iff.symm
  have ordered : (a :: rest).Pairwise fun b c => ¬ c.Beats b := by
    rw [← sorted]
    exact (Items.sortBy_pairwise rank_linear fun _ _ => trivial).imp rank_ne_gt_iff.1
  have first : ∀ o ∈ viable, ¬ o.Beats a := by
    intro o ho
    obtain rfl | ho := List.mem_cons.1 (same.1 ho)
    · exact not_beats_self o
    · exact (List.pairwise_cons.1 ordered).1 o ho
  -- The filter is taken before sorting and the prefix after it; stability makes them the same list.
  calc foremost viable = viable.filter a.isTiedWith := by
        refine List.filter_congr fun o ho => ?_
        rw [Bool.eq_iff_iff, decide_eq_true_iff, isTiedWith_iff]
        constructor
        · intro unbeaten
          exact ⟨unbeaten a (same.2 List.mem_cons_self), first o ho⟩
        · intro tied o' ho' beats
          exact tied.1 (beats.of_not_beats (first o' ho'))
    _ = (a :: rest).filter a.isTiedWith := by rw [← sorted, filter_sortBy]
    _ = (a :: rest).takeWhile a.isTiedWith := by
        refine (takeWhile_eq_filter (ordered.imp_of_mem fun hb _ inOrder tied => ?_)).symm
        obtain ⟨unbeaten, -⟩ := isTiedWith_iff.1 tied
        exact isTiedWith_iff.2
          ⟨fun beats => inOrder (beats.of_not_beats unbeaten), first _ (same.2 hb)⟩

/-- What is said of those that no other one beats. -/
def settle : List Overload → Except OverloadError Overload
  | [] => .error .noApplicable
  | [o] => .ok o
  | os => .error (.ambiguous (os.map (·.method.signature)))

/-- **The first ones after sorting are those that no other one beats.** -/
theorem choose_eq (viable : List Overload) : choose viable = settle (foremost viable) := by
  unfold choose
  cases sorted : viable.mergeSort fun a b => a.rank b != .gt with
  | nil =>
    have none : viable = [] := List.nil_perm.1 (sorted ▸ Items.sortBy_perm rank viable)
    rw [none]
    rfl
  | cons a rest =>
    rw [foremost_eq sorted]
    cases rest with
    | nil =>
      rw [List.takeWhile_cons_of_pos a.isTiedWith_self]
      rfl
    | cons b rest =>
      simp only
      rw [List.takeWhile_cons_of_pos a.isTiedWith_self]
      split
      next tied =>
        rw [List.takeWhile_cons_of_pos tied]
        rfl
      next apart =>
        rw [List.takeWhile_cons_of_neg apart]
        rfl

/-! ## Those that no other one beats -/

theorem foremost_eq_nil_iff : foremost viable = [] ↔ viable = [] := by
  constructor
  · intro h
    cases sorted : Items.sortBy rank viable with
    | nil => exact List.nil_perm.1 (sorted ▸ Items.sortBy_perm rank viable)
    | cons a rest =>
      rw [foremost_eq sorted, List.takeWhile_cons_of_pos a.isTiedWith_self] at h
      cases h
  · rintro rfl
    rfl

/-- A single one that no other one beats beats all others. -/
theorem foremost_eq_singleton_iff :
    foremost viable = [o] ↔
      ∃ before after, viable = before ++ o :: after ∧ ∀ o' ∈ before ++ after, o.Beats o' := by
  constructor
  · intro h
    obtain ⟨before, after, split, failsBefore, unbeaten, rest⟩ := List.filter_eq_cons_iff.1 h
    have failsAfter := List.filter_eq_nil_iff.1 rest
    refine ⟨before, after, split, fun o' ho' => ?_⟩
    have fails : ¬ ∀ c ∈ viable, ¬ c.Beats o' := by
      obtain inside | inside := List.mem_append.1 ho'
      · exact fun h => failsBefore o' inside (decide_eq_true h)
      · exact fun h => failsAfter o' inside (decide_eq_true h)
    obtain ⟨c, fails⟩ := Classical.not_forall.1 fails
    obtain ⟨hc, beats⟩ := Classical.not_imp.1 fails
    exact (Classical.not_not.1 beats).of_not_beats (of_decide_eq_true unbeaten c hc)
  · rintro ⟨before, after, rfl, beats⟩
    have others : ∀ o' ∈ before ++ after,
        ¬ decide (∀ c ∈ before ++ o :: after, ¬ c.Beats o') = true := by
      intro o' ho' unbeaten
      exact of_decide_eq_true unbeaten o (by simp) (beats o' ho')
    refine List.filter_eq_cons_iff.2 ⟨before, after, rfl, ?_, decide_eq_true fun c hc => ?_, ?_⟩
    · exact fun c hc => others c (List.mem_append_left _ hc)
    · obtain inside | inside := List.mem_append.1 hc
      · exact (beats c (List.mem_append_left _ inside)).asymm
      · obtain rfl | inside := List.mem_cons.1 inside
        · exact not_beats_self c
        · exact (beats c (List.mem_append_right _ inside)).asymm
    · exact List.filter_eq_nil_iff.2 fun c hc => others c (List.mem_append_right _ hc)

theorem foremost_perm {viable' : List Overload} (h : viable.Perm viable') :
    (foremost viable).Perm (foremost viable') := by
  have same : foremost viable' = viable'.filter fun o => ∀ o' ∈ viable, ¬ o'.Beats o := by
    refine List.filter_congr fun o _ => ?_
    simp only [h.mem_iff]
  rw [same]
  exact h.filter _

section Settle

variable {os os' : List Overload} {signatures : List String}

theorem settle_eq_noApplicable_iff : settle os = .error .noApplicable ↔ os = [] := by
  match os with
  | [] => exact ⟨fun _ => rfl, fun _ => rfl⟩
  | [a] => simp [settle]
  | a :: b :: rest => simp [settle]

theorem settle_eq_ok_iff : settle os = .ok o ↔ os = [o] := by
  match os with
  | [] => simp [settle]
  | [a] => simp [settle]
  | a :: b :: rest => simp [settle]

theorem settle_eq_ambiguous_iff : settle os = .error (.ambiguous signatures) ↔
    2 ≤ os.length ∧ signatures = os.map (·.method.signature) := by
  match os with
  | [] => simp [settle]
  | [a] => simp [settle]
  | a :: b :: rest => simp [settle, eq_comm]

/-- Two outcomes that differ at most in the order of the signatures. -/
inductive Agree : Except OverloadError Overload → Except OverloadError Overload → Prop
  | ok (o : Overload) : Agree (.ok o) (.ok o)
  | noApplicable : Agree (.error .noApplicable) (.error .noApplicable)
  | ambiguous {l l' : List String} (h : l.Perm l') :
      Agree (.error (.ambiguous l)) (.error (.ambiguous l'))

theorem settle_agree (h : os.Perm os') : Agree (settle os) (settle os') := by
  match os, os' with
  | [], os' =>
    obtain rfl := List.nil_perm.1 h
    exact .noApplicable
  | [a], os' =>
    obtain rfl := List.singleton_perm.1 h
    exact .ok a
  | a :: b :: rest, [] => exact absurd h.length_eq (by simp)
  | a :: b :: rest, [c] => exact absurd h.length_eq (by simp)
  | a :: b :: rest, c :: d :: rest' => exact .ambiguous (h.map _)

end Settle

/-! ## The best methods -/

/-- The method takes the arguments, and no method takes them better. -/
def IsBest [GuidFormat] (s : Schema) (args : List Expr) (methods : List Method) (m : Method) :
    Prop :=
  ∃ ps, Promotes s args m.params ps ∧
    ∀ m' ∈ methods, ∀ qs, Promotes s args m'.params qs → ¬ Better qs ps

theorem isBest_iff : IsBest s args methods m ↔
    ∃ o ∈ candidate? s m args, ∀ m' ∈ methods, ∀ o' ∈ candidate? s m' args, ¬ o'.Beats o := by
  constructor
  · rintro ⟨ps, hps, unbeaten⟩
    refine ⟨_, hps.candidate?, fun m' hm' o' ho' => ?_⟩
    obtain ⟨qs, hqs, rfl⟩ := candidate?_eq_some_iff.1 ho'
    exact unbeaten m' hm' qs hqs
  · rintro ⟨o, ho, unbeaten⟩
    obtain ⟨ps, hps, rfl⟩ := candidate?_eq_some_iff.1 ho
    exact ⟨ps, hps, fun m' hm' qs hqs => unbeaten m' hm' _ hqs.candidate?⟩

instance (s : Schema) (args : List Expr) (methods : List Method) (m : Method) :
    Decidable (IsBest s args methods m) :=
  decidable_of_iff _ isBest_iff.symm

/-- The methods that take the arguments. -/
def candidates [GuidFormat] (s : Schema) (methods : List Method) (args : List Expr) :
    List Overload :=
  methods.filterMap fun m => candidate? s m args

theorem mem_candidates : o ∈ candidates s methods args ↔
    ∃ m ∈ methods, candidate? s m args = some o := List.mem_filterMap

theorem isBest_iff_unbeaten (h : candidate? s m args = some o) :
    IsBest s args methods m ↔ ∀ o' ∈ candidates s methods args, ¬ o'.Beats o := by
  rw [isBest_iff]
  constructor
  · rintro ⟨a, ha, unbeaten⟩ o' ho'
    obtain rfl : o = a := Option.some.inj (h.symm.trans ha)
    obtain ⟨m', hm', found⟩ := mem_candidates.1 ho'
    exact unbeaten m' hm' o' found
  · intro unbeaten
    exact ⟨o, h, fun m' hm' o' found => unbeaten o' (mem_candidates.2 ⟨m', hm', found⟩)⟩

/-- Those that no other one beats are the best methods, with the arguments promoted. -/
theorem foremost_candidates (s : Schema) (methods : List Method) (args : List Expr) :
    foremost (candidates s methods args) =
      candidates s (methods.filter (IsBest s args methods)) args := by
  rw [foremost, candidates, candidates, List.filter_filterMap, List.filterMap_filter]
  refine List.filterMap_congr fun m _ => ?_
  cases h : candidate? s m args with
  | none => split <;> rfl
  | some o =>
    rw [Option.filter_some]
    simp only [decide_eq_true_eq, isBest_iff_unbeaten h]
    rfl

/-- The best methods take the arguments. -/
theorem candidates_best [GuidFormat] (s : Schema) (methods : List Method) (args : List Expr) :
    (candidates s (methods.filter (IsBest s args methods)) args).map (·.method) =
      methods.filter (IsBest s args methods) := by
  rw [candidates, List.map_filterMap]
  refine (List.filterMap_congr fun m hm => ?_).trans List.filterMap_some
  obtain ⟨ps, hps, -⟩ := of_decide_eq_true (List.mem_filter.1 hm).2
  rw [hps.candidate?, Option.map_some]
  rfl

theorem candidates_eq_nil_iff :
    candidates s methods args = [] ↔ ∀ m ∈ methods, ¬ Accepts s args m.params := by
  rw [candidates, List.filterMap_eq_nil_iff]
  refine forall₂_congr fun m _ => ?_
  rw [Option.eq_none_iff_forall_ne_some]
  constructor
  · intro none accepts
    obtain ⟨ps, hps⟩ := accepts.promotes
    exact none _ hps.candidate?
  · intro refused o found
    obtain ⟨ps, hps, -⟩ := candidate?_eq_some_iff.1 found
    exact refused hps.accepts

/-- A candidate that beats all others is that of a method which takes the arguments better than all
others. -/
theorem candidates_split_iff :
    (∃ before after, candidates s methods args = before ++ o :: after ∧
      ∀ o' ∈ before ++ after, o.Beats o') ↔
    ∃ before m after ps, methods = before ++ m :: after ∧ Promotes s args m.params ps ∧
      o = ofPromotions m ps ∧
      ∀ m' ∈ before ++ after, ∀ qs, Promotes s args m'.params qs → Better ps qs := by
  constructor
  · rintro ⟨before, after, split, beats⟩
    obtain ⟨front, back, rfl, rfl, rest⟩ := List.filterMap_eq_append_iff.1 split
    obtain ⟨skipped, m, others, rfl, refused, found, rfl⟩ := List.filterMap_eq_cons_iff.1 rest
    obtain ⟨ps, hps, rfl⟩ := candidate?_eq_some_iff.1 found
    refine ⟨front ++ skipped, m, others, ps, ?_, hps, rfl, fun m' hm' qs hqs => ?_⟩
    · rw [List.append_assoc]
    refine beats (ofPromotions m' qs) ?_
    rw [List.mem_append, List.mem_append] at hm'
    obtain (inside | inside) | inside := hm'
    · exact List.mem_append_left _ (mem_candidates.2 ⟨m', inside, hqs.candidate?⟩)
    · cases (refused m' inside).symm.trans hqs.candidate?
    · exact List.mem_append_right _ (mem_candidates.2 ⟨m', inside, hqs.candidate?⟩)
  · rintro ⟨before, m, after, ps, rfl, hps, rfl, better⟩
    refine ⟨candidates s before args, candidates s after args, ?_, fun o' ho' => ?_⟩
    · rw [candidates, List.filterMap_append]
      exact congrArg (candidates s before args ++ ·)
        (List.filterMap_cons_some (f := fun m => candidate? s m args) hps.candidate?)
    · rw [candidates, candidates, ← List.filterMap_append] at ho'
      obtain ⟨m', hm', found⟩ := List.mem_filterMap.1 ho'
      obtain ⟨qs, hqs, rfl⟩ := candidate?_eq_some_iff.1 found
      exact better m' hm' qs hqs

/-- Resolution settles on those candidates that no other one beats. -/
theorem resolve_eq (s : Schema) (methods : List Method) (args : List Expr) :
    resolve s methods args = settle (foremost (candidates s methods args)) := choose_eq _

/-- **The best method is called**, with the arguments promoted one by one.  There is none if no
method takes the arguments.  If several methods are equally good, and no other one is better, all
of them are listed in their order.  The order in which methods are listed has no other effect. -/
theorem resolve_best (s : Schema) (methods : List Method) (args : List Expr) :
    (resolve s methods args = .error .noApplicable ↔
      ∀ m ∈ methods, ¬ Accepts s args m.params) ∧
    (∀ o, resolve s methods args = .ok o ↔
      ∃ before m after ps, methods = before ++ m :: after ∧ Promotes s args m.params ps ∧
        o = ofPromotions m ps ∧
        ∀ m' ∈ before ++ after, ∀ qs, Promotes s args m'.params qs → Better ps qs) ∧
    (∀ signatures, resolve s methods args = .error (.ambiguous signatures) ↔
      2 ≤ (methods.filter (IsBest s args methods)).length ∧
        signatures = (methods.filter (IsBest s args methods)).map Method.signature) ∧
    ∀ methods', methods.Perm methods' →
      Agree (resolve s methods args) (resolve s methods' args) := by
  refine ⟨?_, fun o => ?_, fun signatures => ?_, fun methods' h => ?_⟩
  · rw [resolve_eq, settle_eq_noApplicable_iff, foremost_eq_nil_iff, candidates_eq_nil_iff]
  · rw [resolve_eq, settle_eq_ok_iff, foremost_eq_singleton_iff, candidates_split_iff]
  · rw [resolve_eq, settle_eq_ambiguous_iff, foremost_candidates]
    have listed := candidates_best s methods args
    have size := congrArg List.length listed
    have signed := congrArg (List.map Method.signature) listed
    rw [List.length_map] at size
    rw [List.map_map] at signed
    rw [size, ← signed]
    rfl
  · rw [resolve_eq, resolve_eq]
    exact settle_agree (foremost_perm (h.filterMap _))

/-- A method of two integers. -/
def ofTwo (t u : IntType) : Method :=
  ⟨"G", [.int t, .int u], .boolean, fun _ _ => pure (.boolean true)⟩

end

/-- Two integers of 32 bits, in two methods each of which wants one of them wider. -/
theorem resolve_best_crossed :
    resolve Schema.empty [ofTwo .int64 .int32, ofTwo .int32 .int64]
        [.parameter 0 (.int .int32), .parameter 0 (.int .int32)] =
      .error (.ambiguous ["G(Int64, Int32)", "G(Int32, Int64)"]) ∧
    Agree
      (resolve Schema.empty [ofTwo .int64 .int32, ofTwo .int32 .int64]
        [.parameter 0 (.int .int32), .parameter 0 (.int .int32)])
      (resolve Schema.empty [ofTwo .int32 .int64, ofTwo .int64 .int32]
        [.parameter 0 (.int .int32), .parameter 0 (.int .int32)]) := by
  obtain ⟨-, -, ambiguous, permuted⟩ :=
    resolve_best Schema.empty [ofTwo .int64 .int32, ofTwo .int32 .int64]
      [.parameter 0 (.int .int32), .parameter 0 (.int .int32)]
  exact ⟨(ambiguous _).2 ⟨by decide, by decide⟩, permuted _ (List.Perm.swap _ _ [])⟩

end TypedExpr.Overload
