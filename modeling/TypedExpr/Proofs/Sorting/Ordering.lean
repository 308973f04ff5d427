import Mathlib.Data.List.Forall2
import TypedExpr.OrderingKey
import TypedExpr.Proofs.Ensures
import TypedExpr.Proofs.Sorting.Ranking

/-!
# Stable sorting

Sorting by keys gives the items in an order in which the first key that tells two items apart puts
the earlier one in front, and leaves items that no key tells apart in their order.  If a key fails
on an item, so does the sort, with the error that is met first.

* `Items.sortBy_pairwise`, `Items.sortBy_sublist` — sorting by a comparison that is a linear
  preorder on the elements.
* `OrderingKey.keyed_cases` — the keys are evaluated item by item until one fails.
* **`OrderingKey.sortBy_stable`** — sorting by keys, and the methods that sort by one key.
-/

namespace TypedExpr

/-! ## Sorting by a comparison -/

namespace Items

variable {α β : Type} {S : α → Prop} {order : α → α → Ordering} {xs : List α}

theorem sortBy_perm (order : α → α → Ordering) (xs : List α) : (sortBy order xs).Perm xs :=
  List.mergeSort_perm _ _

/-- Sorting commutes with a function that keeps the comparison. -/
theorem map_sortBy (order' : β → β → Ordering) {f : α → β}
    (h : ∀ a ∈ xs, ∀ b ∈ xs, order a b = order' (f a) (f b)) :
    (sortBy order xs).map f = sortBy order' (xs.map f) :=
  List.map_mergeSort fun a ha b hb => by rw [h a ha b hb]

/-- The elements of a set are sorted as elements of a type of their own. -/
theorem sortBy_attach (hs : ∀ a ∈ xs, S a) :
    sortBy order xs =
      (sortBy (fun a b : { a // S a } => order a.1 b.1) (xs.attachWith S hs)).map Subtype.val := by
  rw [map_sortBy order fun _ _ _ _ => rfl, List.attachWith_map_subtype_val]

theorem bne_gt (o : Ordering) : (o != .gt) = o.isLE := by
  cases o <;> rfl

section Linear

variable (line : LinearOn S order)

include line

theorem ordered_trans (a b c : { a // S a }) (hab : (order a.1 b.1 != .gt) = true)
    (hbc : (order b.1 c.1 != .gt) = true) : (order a.1 c.1 != .gt) = true := by
  rw [bne_gt] at hab hbc ⊢
  exact line.trans a.2 b.2 c.2 hab hbc

theorem ordered_total (a b : { a // S a }) :
    ((order a.1 b.1 != .gt) || (order b.1 a.1 != .gt)) = true := by
  rw [bne_gt, bne_gt, Bool.or_eq_true]
  exact line.isLE_total a.2 b.2

/-- What is sorted stands in the order of the line. -/
theorem sortBy_pairwise (hs : ∀ a ∈ xs, S a) :
    (sortBy order xs).Pairwise fun a b => order a b ≠ .gt := by
  rw [sortBy_attach hs, List.pairwise_map]
  refine (List.pairwise_mergeSort (ordered_trans line) (ordered_total line) _).imp ?_
  intro a b h
  exact bne_iff_ne.1 h

/-- Elements that stand in order already stay in their order. -/
theorem sortBy_sublist (hs : ∀ a ∈ xs, S a) {group : List α} (part : group.Sublist xs)
    (ordered : group.Pairwise fun a b => order a b ≠ .gt) : group.Sublist (sortBy order xs) := by
  rw [sortBy_attach hs]
  rw [← List.attachWith_map_subtype_val hs] at part
  obtain ⟨group', part', rfl⟩ := List.sublist_map_iff.1 part
  refine .map _ (List.sublist_mergeSort (ordered_trans line) (ordered_total line) ?_ part')
  rw [List.pairwise_map] at ordered
  exact ordered.imp fun h => bne_iff_ne.2 h

end Linear

end Items

namespace OrderingKey

section

variable {format : GuidFormat} {keys : List OrderingKey} {items : List Value}

/-! ## What keys say of two items -/

/-- What each key says of two rows of values. -/
def verdicts (keys : List OrderingKey) (a b : List Value) : List Ordering :=
  (keys.zip (a.zip b)).map fun p => Items.compareKeys p.1.descending p.2.1 p.2.2

/-- The first verdict other than equal, if there is one, is less. -/
def Leads (os : List Ordering) : Prop := ∀ o ∈ os.find? (· != .eq), o = .lt

/-- All verdicts are equal. -/
def Tied (os : List Ordering) : Prop := ∀ o ∈ os, o = .eq

/-- The first key that tells the rows apart decides. -/
theorem compareAll_eq (keys : List OrderingKey) (a b : List Value) :
    compareAll keys a b = ((verdicts keys a b).find? (· != .eq)).getD .eq := by
  induction keys generalizing a b with
  | nil => rfl
  | cons k keys ih =>
    cases a with
    | nil => rfl
    | cons x a =>
      cases b with
      | nil => rfl
      | cons y b =>
        show (Items.compareKeys k.descending x y).then (compareAll keys a b) =
          ((Items.compareKeys k.descending x y :: verdicts keys a b).find? (· != .eq)).getD .eq
        rw [ih]
        cases h : Items.compareKeys k.descending x y <;> rfl

theorem leads_of_compareAll {a b : List Value} (h : compareAll keys a b ≠ .gt) :
    Leads (verdicts keys a b) := by
  intro o ho
  have differs : (o != .eq) = true := (List.find?_eq_some_iff_append.1 (Option.mem_def.1 ho)).1
  rw [compareAll_eq, Option.mem_def.1 ho] at h
  cases o
  · rfl
  · cases differs
  · exact absurd rfl h

theorem compareAll_of_tied {a b : List Value} (h : Tied (verdicts keys a b)) :
    compareAll keys a b = .eq := by
  have none : (verdicts keys a b).find? (· != .eq) = none := by
    rw [List.find?_eq_none]
    intro o ho
    rw [h o ho]
    decide
  rw [compareAll_eq, none]
  rfl

/-! ## Rows in a line -/

/-- The values that the key gives on the items are null or of one comparable type, and not
floating-point numbers. -/
def Ranks [GuidFormat] (k : OrderingKey) (items : List Value) : Prop :=
  ∃ t : Ty, t.IsLinear ∧ ∀ item ∈ items, ∀ s v s', k.key.invoke item s = (.ok v, s') → v.RanksIn t

/-- Rows of values of types that stand in a line do so, too. -/
theorem compareAll_linear {ty : OrderingKey → Ty} (h : ∀ k ∈ keys, (ty k).IsLinear) :
    LinearOn (fun values => List.Forall₂ (fun k v => Value.RanksIn (ty k) v) keys values)
      (compareAll keys) := by
  induction keys with
  | nil => exact .of_key (fun _ => (0 : Nat)) fun _ _ _ _ => rfl
  | cons k keys ih =>
    obtain ⟨first, others⟩ := List.forall_mem_cons.1 h
    refine ((Items.compareKeys_linear first k.descending).lex (ih others)).comap
      (fun values => (values.headD .null, values.tail)) ?_ ?_
    · rintro _ (_ | ⟨hx, hxs⟩)
      exact ⟨hx, hxs⟩
    · rintro _ _ (_ | _) (_ | _)
      rfl

/-! ## Evaluating the keys -/

/-- In some run, the key gives the value on the item. -/
def Gives [GuidFormat] (k : OrderingKey) (item v : Value) : Prop :=
  ∃ s s', k.key.invoke item s = (.ok v, s')

/-- In every run, the key gives the value on the item. -/
def Means [GuidFormat] (k : OrderingKey) (item v : Value) : Prop :=
  ∀ s, (k.key.invoke item s).1 = .ok v

/-- Item by item and key by key, everything is evaluated up to a key that fails. -/
structure FailsAt [GuidFormat] (keys : List OrderingKey) (items : List Value) (s : Store)
    (front : List OrderingKey) (k : OrderingKey) (before : List Value) (item : Value)
    (e : EvalError) (s' : Store) : Prop where
  keysPrefix : front ++ [k] <+: keys
  itemsPrefix : before ++ [item] <+: items
  run : ∃ rows s₁ values s₂, keyed keys before s = (.ok rows, s₁) ∧
    valuesAt front item s₁ = (.ok values, s₂) ∧ k.key.invoke item s₂ = (.error e, s')

theorem valuesAt_cons (k : OrderingKey) (keys : List OrderingKey) (item : Value) :
    valuesAt (k :: keys) item = do
      let v ← k.key.invoke item
      let values ← valuesAt keys item
      return v :: values :=
  List.mapM_cons

/-- The keys are evaluated on an item until one fails. -/
theorem valuesAt_cases (keys : List OrderingKey) (item : Value) (s : Store) :
    (∃ values s', valuesAt keys item s = (.ok values, s') ∧
      List.Forall₂ (fun k v => k.Gives item v) keys values) ∨
    ∃ front k values s₁ e s', front ++ [k] <+: keys ∧ valuesAt front item s = (.ok values, s₁) ∧
      k.key.invoke item s₁ = (.error e, s') ∧ valuesAt keys item s = (.error e, s') := by
  induction keys generalizing s with
  | nil => exact Or.inl ⟨[], s, rfl, .nil⟩
  | cons k keys ih =>
    rw [valuesAt_cons, bind_apply]
    rcases first : k.key.invoke item s with ⟨e | v, s₁⟩
    · exact Or.inr ⟨[], k, [], s, e, s₁, List.prefix_append [k] keys, rfl, first, rfl⟩
    · simp only [bind_apply]
      obtain ⟨values, s', run, gives⟩ |
          ⟨front, k', values, s₂, e, s', part, run, fails, all⟩ := ih s₁
      · refine Or.inl ⟨v :: values, s', ?_, .cons ⟨s, s₁, first⟩ gives⟩
        rw [run]
        rfl
      · refine Or.inr ⟨k :: front, k', v :: values, s₂, e, s', ?_, ?_, fails, ?_⟩
        · exact (List.prefix_cons_inj k).2 part
        · rw [valuesAt_cons, bind_of_ok first, bind_of_ok run]
          rfl
        · rw [all]

/-- **The keys are evaluated item by item until one fails.** -/
theorem keyed_cases (keys : List OrderingKey) (items : List Value) (s : Store) :
    (∃ rows s', keyed keys items s = (.ok rows, s') ∧ rows.map Prod.snd = items ∧
      ∀ row ∈ rows, List.Forall₂ (fun k v => k.Gives row.2 v) keys row.1) ∨
    ∃ front k before item e s', FailsAt keys items s front k before item e s' ∧
      keyed keys items s = (.error e, s') := by
  induction items generalizing s with
  | nil => exact Or.inl ⟨[], s, rfl, rfl, nofun⟩
  | cons item items ih =>
    rw [keyed, bind_apply]
    obtain ⟨values, s₁, run, gives⟩ | ⟨front, k, values, s₁, e, s', part, run, fails, all⟩ :=
      valuesAt_cases keys item s
    · rw [run]
      simp only [bind_apply]
      obtain ⟨rows, s', others, same, each⟩ | ⟨front, k, before, bad, e, s', fails, all⟩ := ih s₁
      · refine Or.inl ⟨(values, item) :: rows, s', ?_, ?_, ?_⟩
        · rw [others]
          rfl
        · rw [List.map_cons, same]
        · exact List.forall_mem_cons.2 ⟨gives, each⟩
      · refine Or.inr ⟨front, k, item :: before, bad, e, s', ⟨fails.keysPrefix, ?_, ?_⟩, ?_⟩
        · exact (List.prefix_cons_inj item).2 fails.itemsPrefix
        · obtain ⟨rows, s₂, values', s₃, others, rest⟩ := fails.run
          refine ⟨(values, item) :: rows, s₂, values', s₃, ?_, rest⟩
          rw [keyed, bind_of_ok run, bind_of_ok others]
          rfl
        · rw [all]
    · refine Or.inr ⟨front, k, [], item, e, s', ⟨part, ?_, ?_⟩, ?_⟩
      · exact List.prefix_append [item] items
      · exact ⟨[], s, values, s₁, rfl, run, fails⟩
      · rw [all]

/-! ## Stably sorted -/

/-- The rows in an order in which the first verdict that tells two of them apart puts the earlier
one in front; rows that no verdict tells apart stay in their order. -/
structure StablySorted {α : Type} (verdict : α → α → List Ordering) (rows sorted : List α) :
    Prop where
  perm : sorted.Perm rows
  leads : sorted.Pairwise fun a b => Leads (verdict a b)
  stable : ∀ group : List α, group.Sublist rows → group.Pairwise (fun a b => Tied (verdict a b)) →
    group.Sublist sorted

theorem StablySorted.map {α β : Type} {verdict : α → α → List Ordering}
    {verdict' : β → β → List Ordering} {rows sorted : List α} {f : α → β}
    (h : StablySorted verdict rows sorted)
    (same : ∀ a ∈ rows, ∀ b ∈ rows, verdict' (f a) (f b) = verdict a b) :
    StablySorted verdict' (rows.map f) (sorted.map f) where
  perm := h.perm.map f
  leads := by
    rw [List.pairwise_map]
    refine h.leads.imp_of_mem fun ha hb leads => ?_
    rwa [same _ (h.perm.mem_iff.1 ha) _ (h.perm.mem_iff.1 hb)]
  stable group part tied := by
    obtain ⟨group, within, rfl⟩ := List.sublist_map_iff.1 part
    rw [List.pairwise_map] at tied
    refine (h.stable group within (tied.imp_of_mem fun ha hb tied => ?_)).map f
    rwa [same _ (within.subset ha) _ (within.subset hb)] at tied

/-- Rows of values from lines are sorted stably. -/
theorem stablySorted_sortBy (ty : OrderingKey → Ty) {rows : List (List Value × Value)}
    (linear : ∀ k ∈ keys, (ty k).IsLinear)
    (hrows : ∀ row ∈ rows, List.Forall₂ (fun k v => Value.RanksIn (ty k) v) keys row.1) :
    StablySorted (fun a b => verdicts keys a.1 b.1) rows
      (Items.sortBy (fun a b => compareAll keys a.1 b.1) rows) := by
  have line := (compareAll_linear linear).comap (Prod.fst (β := Value)) (fun _ h => h)
    (fun _ _ _ _ => rfl)
  refine ⟨Items.sortBy_perm _ _, ?_, ?_⟩
  · exact (Items.sortBy_pairwise line hrows).imp leads_of_compareAll
  · intro group part tied
    refine Items.sortBy_sublist line hrows part (tied.imp fun tied => ?_)
    rw [compareAll_of_tied tied]
    decide

/-! ## Keys that are functions of the item -/

theorem Means.unique {k : OrderingKey} {item v w : Value} (h : k.Means item v)
    (h' : k.Gives item w) : w = v := by
  obtain ⟨s, s', run⟩ := h'
  have := h s
  rw [run] at this
  exact Except.ok.inj this

/-- The order of two items is that of the values that the key means. -/
theorem compare_of_means {k : OrderingKey} {a b x y : Value} (ha : k.Means a x) (hb : k.Means b y)
    (s : Store) : (k.compare a b s).1 = .ok (Items.compareKeys k.descending x y) := by
  rw [OrderingKey.compare, bind_apply]
  rcases first : k.key.invoke a s with ⟨r, s₁⟩
  obtain rfl : r = .ok x := by rw [← ha s, first]
  simp only [bind_apply]
  rcases second : k.key.invoke b s₁ with ⟨r, s₂⟩
  obtain rfl : r = .ok y := by rw [← hb s₁, second]
  rfl

theorem values_of_means {value : OrderingKey → Value} {item : Value} {values : List Value}
    (gives : List.Forall₂ (fun k v => k.Gives item v) keys values)
    (means : ∀ k ∈ keys, k.Means item (value k)) : values = keys.map value := by
  induction gives with
  | nil => rfl
  | cons first _ ih =>
    obtain ⟨meansFirst, meansOthers⟩ := List.forall_mem_cons.1 means
    rw [meansFirst.unique first, ih meansOthers, List.map_cons]

theorem verdicts_map (keys : List OrderingKey) (f g : OrderingKey → Value) :
    verdicts keys (keys.map f) (keys.map g) =
      keys.map fun k => Items.compareKeys k.descending (f k) (g k) := by
  induction keys with
  | nil => rfl
  | cons k keys ih => exact congrArg (Items.compareKeys k.descending (f k) (g k) :: ·) ih

/-- The verdicts on two items, when each key is asked to compare them. -/
def Compares [GuidFormat] (keys : List OrderingKey) (a b : Value) (os : List Ordering) : Prop :=
  List.Forall₂ (fun k o => ∀ s, (k.compare a b s).1 = .ok o) keys os

/-! ## Sorting by keys -/

/-- Sorting evaluates the keys first; then the rows are sorted stably by what was evaluated. -/
theorem sortBy_cases (ranks : ∀ k ∈ keys, k.Ranks items) (s : Store) :
    (∃ rows s' sorted, keyed keys items s = (.ok rows, s') ∧ rows.map Prod.snd = items ∧
      (∀ row ∈ rows, List.Forall₂ (fun k v => k.Gives row.2 v) keys row.1) ∧
      StablySorted (fun a b => verdicts keys a.1 b.1) rows sorted ∧
      sortBy keys items s = (.ok (sorted.map Prod.snd), s')) ∨
    ∃ front k before item e s', FailsAt keys items s front k before item e s' ∧
      sortBy keys items s = (.error e, s') := by
  rw [sortBy, bind_apply]
  obtain ⟨rows, s', run, same, gives⟩ | ⟨front, k, before, item, e, s', fails, run⟩ :=
    keyed_cases keys items s
  · refine Or.inl ⟨rows, s', _, run, same, gives, ?_, by rw [run]; rfl⟩
    have : ∀ k, ∃ t : Ty, k ∈ keys → t.IsLinear ∧ ∀ item ∈ items, ∀ s v s',
        k.key.invoke item s = (.ok v, s') → v.RanksIn t := by
      intro k
      by_cases hk : k ∈ keys
      · obtain ⟨t, ht⟩ := ranks k hk
        exact ⟨t, fun _ => ht⟩
      · exact ⟨.boolean, fun h => absurd h hk⟩
    obtain ⟨ty, hty⟩ := Classical.skolem.1 this
    refine stablySorted_sortBy ty (fun k hk => (hty k hk).1) fun row hrow => ?_
    have member : row.2 ∈ items := by
      rw [← same]
      exact List.mem_map_of_mem hrow
    refine List.forall₂_iff_zip.2 ⟨(gives row hrow).length_eq, fun {k v} pair => ?_⟩
    obtain ⟨s, s', run⟩ := List.forall₂_iff_zip.1 (gives row hrow) |>.2 pair
    exact (hty k (List.of_mem_zip pair).1).2 row.2 member s v s' run
  · exact Or.inr ⟨front, k, before, item, e, s', fails, by rw [run]⟩

/-- If every key gives a value on every item, the items themselves are sorted stably. -/
theorem sortBy_of_means (ranks : ∀ k ∈ keys, k.Ranks items)
    (means : ∀ k ∈ keys, ∀ item ∈ items, ∃ v, k.Means item v) (s : Store) :
    ∃ verdict sorted, (sortBy keys items s).1 = .ok sorted ∧
      (∀ a ∈ items, ∀ b ∈ items, Compares keys a b (verdict a b)) ∧
      StablySorted verdict items sorted := by
  have : ∀ k item, ∃ v, k ∈ keys → item ∈ items → k.Means item v := by
    intro k item
    by_cases h : k ∈ keys ∧ item ∈ items
    · obtain ⟨v, hv⟩ := means k h.1 item h.2
      exact ⟨v, fun _ _ => hv⟩
    · exact ⟨.null, fun hk hitem => absurd ⟨hk, hitem⟩ h⟩
  obtain ⟨value, hvalue⟩ := Classical.skolem.1 fun k => Classical.skolem.1 (this k)
  refine ⟨fun a b => keys.map fun k => Items.compareKeys k.descending (value k a) (value k b), ?_⟩
  obtain ⟨rows, s', sorted, -, same, gives, stable, run⟩ |
      ⟨front, k, before, item, e, s', fails, -⟩ := sortBy_cases ranks s
  · refine ⟨sorted.map Prod.snd, by rw [run], fun a ha b hb => ?_, ?_⟩
    · refine List.forall₂_map_right_iff.2 (List.forall₂_same.2 fun k hk s => ?_)
      exact compare_of_means (hvalue k a hk ha) (hvalue k b hk hb) s
    · rw [← same]
      have values : ∀ row ∈ rows, row.1 = keys.map fun k => value k row.2 := by
        intro row hrow
        refine values_of_means (gives row hrow) fun k hk => hvalue k row.2 hk ?_
        rw [← same]
        exact List.mem_map_of_mem hrow
      refine stable.map fun a ha b hb => ?_
      rw [values a ha, values b hb, verdicts_map]
  · obtain ⟨rows, s₁, values, s₂, -, -, run⟩ := fails.run
    have hk : k ∈ keys := fails.keysPrefix.subset List.mem_concat_self
    have hitem : item ∈ items := fails.itemsPrefix.subset List.mem_concat_self
    have means := hvalue k item hk hitem s₂
    rw [run] at means
    cases means

/-- Sorting by one key evaluates the key once on each item. -/
theorem keyed_single {k : OrderingKey} {f : Items.Selector}
    (h : ∀ item ∈ items, f item = k.key.invoke item) :
    keyed [k] items = do
      let values ← Items.selectAll f items
      return (values.zip items).map fun p => ([p.1], p.2) := by
  induction items with
  | nil => rfl
  | cons item items ih =>
    obtain ⟨first, others⟩ := List.forall_mem_cons.1 h
    rw [keyed, ih others, valuesAt_cons, Items.selectAll, first]
    simp only [valuesAt, List.mapM_nil, bind_assoc, pure_bind]
    rfl

/-- The methods that sort do so by one key. -/
theorem orderBy_eq_sortBy {k : OrderingKey} {f : Items.Selector}
    (h : ∀ item ∈ items, f item = k.key.invoke item) :
    Items.orderBy f k.descending items = sortBy [k] items := by
  rw [Items.orderBy, sortBy, keyed_single h]
  simp only [bind_assoc, pure_bind]
  congr 1
  funext values
  have sorted : ((Items.sortBy (fun a b => Items.compareKeys k.descending a.1 b.1)
      (values.zip items)).map fun p => ([p.1], p.2)) =
      Items.sortBy (fun a b => compareAll [k] a.1 b.1)
        ((values.zip items).map fun p => ([p.1], p.2)) := by
    refine Items.map_sortBy _ fun a _ b _ => ?_
    show _ = (Items.compareKeys k.descending a.1 b.1).then .eq
    rw [Ordering.then_eq]
  rw [← sorted, List.map_map]
  rfl

/-- **Sorting by keys is stable and fails cleanly.**  Where the values of each key are null or of
one comparable type other than those of floating-point numbers, either all keys give a value on
all items, and the items are sorted stably by these values, or the sort fails as the first key
does that fails, item by item and key by key.  If every key gives a value on every item, the
verdicts are those of the keys on the items themselves.  The methods that sort by a lambda sort by
the one key that the lambda is. -/
theorem sortBy_stable (ranks : ∀ k ∈ keys, k.Ranks items) (s : Store) :
    ((∃ rows s' sorted, keyed keys items s = (.ok rows, s') ∧ rows.map Prod.snd = items ∧
        (∀ row ∈ rows, List.Forall₂ (fun k v => k.Gives row.2 v) keys row.1) ∧
        StablySorted (fun a b => verdicts keys a.1 b.1) rows sorted ∧
        sortBy keys items s = (.ok (sorted.map Prod.snd), s')) ∨
      ∃ front k before item e s', FailsAt keys items s front k before item e s' ∧
        sortBy keys items s = (.error e, s')) ∧
    ((∀ k ∈ keys, ∀ item ∈ items, ∃ v, k.Means item v) →
      ∃ verdict sorted, (sortBy keys items s).1 = .ok sorted ∧
        (∀ a ∈ items, ∀ b ∈ items, Compares keys a b (verdict a b)) ∧
        StablySorted verdict items sorted) ∧
    ∀ (k : OrderingKey) (f : Items.Selector) (elements : List Value),
      (∀ item ∈ elements, f item = k.key.invoke item) →
      Items.orderBy f k.descending elements = sortBy [k] elements ∧
      ∀ (argument : Eval Value) (ty : Ty),
        Items.call (if k.descending then .orderByDescending else .orderBy) elements (some f)
          argument ty = sortBy [k] elements >>= Eval.newSequence := by
  refine ⟨sortBy_cases ranks s, fun means => sortBy_of_means ranks means s, ?_⟩
  intro k f elements h
  have one := orderBy_eq_sortBy h
  refine ⟨one, fun argument ty => ?_⟩
  rw [← one]
  cases k.descending <;> rfl

end

/-- Two numbers and null, sorted by themselves with the greatest first: null is the least of all. -/
theorem sortBy_stable_numbers :
    let key : OrderingKey := ⟨.parameter 0 (.nullable (.int .int32)), true⟩
    let items := [.int32 2, .null, .int32 7]
    let sorted := [.int32 7, .int32 2, .null]
    (∀ k ∈ [key], Ranks k items) ∧
    (sortBy [key] items .empty).1 = .ok sorted ∧
    ∃ verdict, (∀ a ∈ items, ∀ b ∈ items, Compares [key] a b (verdict a b)) ∧
      verdict (.int32 2) .null = [.lt] ∧ verdict (.int32 2) (.int32 7) = [.gt] ∧
      verdict .null (.int32 7) = [.gt] ∧ StablySorted verdict items sorted := by
  intro key items sorted
  have ranks : ∀ k ∈ [key], Ranks k items := by
    intro k hk
    rw [List.mem_singleton.1 hk]
    refine ⟨.nullable (.int .int32), ⟨rfl, by decide, by decide⟩, ?_⟩
    rintro item hitem s _ _ ⟨⟩
    have number (n : Int) : (Value.int32 n).RanksIn (.nullable (.int .int32)) :=
      Or.inr (.nullable (.int .int32 _))
    simp only [items, List.mem_cons, List.not_mem_nil, or_false] at hitem
    obtain rfl | rfl | rfl := hitem
    · exact number 2
    · exact Or.inl rfl
    · exact number 7
  have means : ∀ k ∈ [key], ∀ item ∈ items, ∃ v, k.Means item v := by
    intro k hk item _
    rw [List.mem_singleton.1 hk]
    exact ⟨item, fun _ => rfl⟩
  have result : (sortBy [key] items .empty).1 = .ok sorted := by
    have front : compareAll [key] [.int32 2] [.null] = .lt := rfl
    have back : compareAll [key] [.int32 2] [.int32 7] = .gt := rfl
    show Except.ok ((Items.sortBy (fun a b => compareAll [key] a.1 b.1)
      (items.map fun item => ([item], item))).map Prod.snd) = _
    simp [Items.sortBy, List.mergeSort, items, sorted, front, back]
  obtain ⟨verdict, sorted', run, compares, stable⟩ := (sortBy_stable ranks .empty).2.1 means
  obtain rfl : sorted' = sorted := Except.ok.inj (run.symm.trans result)
  have decided {a b : Value} {o : Ordering} (ha : a ∈ items) (hb : b ∈ items)
      (one : (key.compare a b .empty).1 = .ok o) : verdict a b = [o] := by
    obtain ⟨o', os, asked, none, same⟩ := List.forall₂_cons_left_iff.1 (compares a ha b hb)
    rw [same, List.forall₂_nil_left_iff.1 none, Except.ok.inj ((asked .empty).symm.trans one)]
  refine ⟨ranks, result, verdict, compares, ?_, ?_, ?_, stable⟩
  · exact decided (by simp [items]) (by simp [items]) rfl
  · exact decided (by simp [items]) (by simp [items]) rfl
  · exact decided (by simp [items]) (by simp [items]) rfl

end OrderingKey

end TypedExpr
