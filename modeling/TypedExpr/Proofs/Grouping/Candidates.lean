import TypedExpr.Proofs.Grouping.Containment
import TypedExpr.Proofs.Grouping.Disjunction

/-!
# Membership in a list

A membership in a list of candidates means the disjunction of one equality for each candidate.  A
list of one sequence stands for that sequence.

* `compared` — the test of an item against a candidate.
* `disjoined_eq_ok`, `amongst_eq_ok` — the disjunction and the list have the same tests.
* `tests_covers`, `candidates_covers` — what the written forms make of their tokens.
* **`Source.parse_candidates`** — the statement about texts.
-/

namespace TypedExpr

open Binder Grammar

variable {ss σ σx : List Shape} {σs : List (List Shape)} {i t : Expr}

section

variable {format : GuidFormat} {τ : Type} {w v : Workspace} {c : BindContext}
  {F : TokenKind → Prop} {inner : Binder Expr} {m : Outcome Expr} {e : Expr}
  {P : τ → Outcome Expr} {x : τ} {xs : List τ}

/-! ## Tests -/

/-- The test of an item against a candidate. -/
def compared [GuidFormat] (item : Expr) (candidate : Outcome Expr) : Outcome Expr := do
  let e ← candidate
  Outcome.bound (Binding.comparison · .eq item e 0)

/-- The computation keeps the declarations. -/
def Outcome.Keeps {α : Type} (m : Outcome α) : Prop := ∀ w a v, m w = (.ok a, v) → w.Akin v

theorem compared_eq_ok :
    compared i m w = (.ok t, v) ↔ ∃ e, m w = (.ok e, v) ∧
      Binding.comparison v.registry.schema .eq i e 0 = .ok t := by
  unfold compared
  simp only [bind_eq_ok, Outcome.bound_eq_ok]
  constructor
  · rintro ⟨e, u, run, bound, rfl⟩
    exact ⟨e, run, bound⟩
  · rintro ⟨e, run, bound⟩
    exact ⟨e, v, run, bound, rfl⟩

theorem keeps_compared (h : m.Keeps) : (compared i m).Keeps := by
  intro w t v run
  obtain ⟨e, run, -⟩ := compared_eq_ok.1 run
  exact h w e v run

theorem keeps_mapM (keeps : ∀ x, (P x).Keeps) : (xs.mapM P).Keeps := by
  induction xs with
  | nil =>
    rintro w _ _ ⟨⟩
    exact .refl w
  | cons x xs ih =>
    intro w es v run
    rw [List.mapM_cons] at run
    obtain ⟨e, u, first, run⟩ := bind_eq_ok.1 run
    obtain ⟨es, u', others, ⟨⟩⟩ := bind_eq_ok.1 run
    exact (keeps x w e u first).trans (ih u es _ others)

/-- Computing and testing the candidates one by one is computing them first, and testing them
then. -/
theorem mapM_compared_eq_ok (keeps : ∀ x, (P x).Keeps) {ts : List Expr} :
    xs.mapM (fun x => compared i (P x)) w = (.ok ts, v) ↔
      ∃ cs, xs.mapM P w = (.ok cs, v) ∧ Binding.Tests w.registry.schema i 0 cs ts := by
  induction xs generalizing w ts with
  | nil =>
    constructor
    · rintro ⟨⟩
      exact ⟨[], rfl, .nil⟩
    · rintro ⟨cs, ⟨⟩, tests⟩
      obtain rfl := List.forall₂_nil_left_iff.1 tests
      rfl
  | cons x xs ih =>
    rw [List.mapM_cons, List.mapM_cons, bind_eq_ok]
    constructor
    · rintro ⟨t, u, first, run⟩
      obtain ⟨e, candidate, bound⟩ := compared_eq_ok.1 first
      obtain ⟨ts, u', others, ⟨⟩⟩ := bind_eq_ok.1 run
      obtain ⟨cs, candidates, tests⟩ := ih.1 others
      rw [(keeps x w e u candidate).schema] at bound tests
      refine ⟨e :: cs, bind_eq_ok.2 ⟨e, u, candidate, bind_eq_ok.2 ⟨cs, _, candidates, rfl⟩⟩, ?_⟩
      exact .cons bound tests
    · rintro ⟨_, run, all⟩
      obtain ⟨e, u, candidate, run⟩ := bind_eq_ok.1 run
      obtain ⟨cs, u', candidates, ⟨⟩⟩ := bind_eq_ok.1 run
      obtain ⟨t, ts, bound, tests, rfl⟩ := List.forall₂_cons_left_iff.1 all
      rw [← (keeps x w e u candidate).schema] at bound tests
      exact ⟨t, u, compared_eq_ok.2 ⟨e, candidate, bound⟩,
        bind_eq_ok.2 ⟨ts, _, ih.2 ⟨cs, candidates, tests⟩, rfl⟩⟩

/-! ## Disjunctions -/

/-- The disjunction of the tests of an item against candidates, one after the other. -/
def disjoined [GuidFormat] (item : Expr) (P : τ → Outcome Expr) (x : τ) (xs : List τ) :
    Outcome Expr := do
  let test ← compared item (P x)
  operated (.logical .or) (fun x => compared item (P x)) test xs

/-- Tests behind a test are joined to it by `or`. -/
theorem operated_eq_ok {test : Expr} (isTest : test.IsTest) :
    operated (.logical .or) (fun x => compared i (P x)) test xs w = (.ok t, v) ↔
      ∃ ts, xs.mapM (fun x => compared i (P x)) w = (.ok ts, v) ∧
        t = ts.foldl Expr.either test := by
  induction xs generalizing w test with
  | nil =>
    constructor
    · rintro ⟨⟩
      exact ⟨[], rfl, rfl⟩
    · rintro ⟨_, ⟨⟩, rfl⟩
      rfl
  | cons x xs ih =>
    have joined {other : Expr} (isOther : other.IsTest) (s : Schema) :
        Binding.binary s (.logical .or) test other 0 = .ok (test.either other) :=
      if_pos ⟨isTest.ty, isOther.ty⟩
    rw [operated, List.foldlM_cons, List.mapM_cons, bind_eq_ok]
    constructor
    · rintro ⟨left, u, run, others⟩
      obtain ⟨other, u, first, bound⟩ := bind_eq_ok.1 run
      obtain ⟨bound, rfl⟩ := Outcome.bound_eq_ok.1 bound
      obtain ⟨e, -, comparison⟩ := compared_eq_ok.1 first
      have isOther := Binding.comparison_isTest comparison
      rw [joined isOther] at bound
      obtain rfl := Except.ok.inj bound
      obtain ⟨ts, more, rfl⟩ := (ih (Expr.isTest_either test isOther)).1 others
      exact ⟨other :: ts, bind_eq_ok.2 ⟨other, _, first, bind_eq_ok.2 ⟨ts, v, more, rfl⟩⟩, rfl⟩
    · rintro ⟨ts, run, rfl⟩
      obtain ⟨other, u, first, run⟩ := bind_eq_ok.1 run
      obtain ⟨ts, u', more, ⟨⟩⟩ := bind_eq_ok.1 run
      obtain ⟨e, -, comparison⟩ := compared_eq_ok.1 first
      have isOther := Binding.comparison_isTest comparison
      refine ⟨test.either other, u, bind_eq_ok.2 ⟨other, u, first, ?_⟩, ?_⟩
      · exact Outcome.bound_eq_ok.2 ⟨joined isOther _, rfl⟩
      · exact (ih (Expr.isTest_either test isOther)).2 ⟨ts, more, rfl⟩

/-- What a membership of an item in candidates is: the disjunction of its tests. -/
def IsMembership (item : Expr) (P : τ → Outcome Expr) (xs : List τ) (w v : Workspace) (t : Expr) :
    Prop :=
  ∃ cs tests, xs.mapM P w = (.ok cs, v) ∧ Binding.Tests w.registry.schema item 0 cs tests ∧
    Expr.anyOf tests = some t

/-- **A disjunction of tests is a membership.** -/
theorem disjoined_eq_ok (keeps : ∀ x, (P x).Keeps) :
    disjoined i P x xs w = (.ok t, v) ↔ IsMembership i P (x :: xs) w v t := by
  have all (ts : List Expr) :
      (x :: xs).mapM (fun x => compared i (P x)) w = (.ok ts, v) ↔
        ∃ cs, (x :: xs).mapM P w = (.ok cs, v) ∧ Binding.Tests w.registry.schema i 0 cs ts :=
    mapM_compared_eq_ok keeps
  unfold disjoined IsMembership
  constructor
  · intro run
    obtain ⟨test, u, first, others⟩ := bind_eq_ok.1 run
    obtain ⟨e, -, comparison⟩ := compared_eq_ok.1 first
    obtain ⟨ts, more, rfl⟩ :=
      (operated_eq_ok (Binding.comparison_isTest comparison)).1 others
    obtain ⟨cs, candidates, tests⟩ := (all (test :: ts)).1 (by
      rw [List.mapM_cons]
      exact bind_eq_ok.2 ⟨test, u, first, bind_eq_ok.2 ⟨ts, v, more, rfl⟩⟩)
    exact ⟨cs, test :: ts, candidates, tests, rfl⟩
  · rintro ⟨cs, tests, candidates, compared, any⟩
    have run := (all tests).2 ⟨cs, candidates, compared⟩
    rw [List.mapM_cons] at run
    obtain ⟨test, u, first, run⟩ := bind_eq_ok.1 run
    obtain ⟨ts, u', more, ⟨⟩⟩ := bind_eq_ok.1 run
    obtain rfl := Option.some.inj any
    obtain ⟨e, -, comparison⟩ := compared_eq_ok.1 first
    refine bind_eq_ok.2 ⟨test, u, first, ?_⟩
    exact (operated_eq_ok (Binding.comparison_isTest comparison)).2 ⟨ts, more, rfl⟩

/-! ## Lists -/

/-- The membership in a list that is not a list of one sequence. -/
theorem amongst_eq_ok (keeps : ∀ x, (P x).Keeps)
    (several : ∀ cs v, xs.mapM P w = (.ok cs, v) → sequence? cs = none) :
    (xs.mapM P >>= amongst i) w = (.ok t, v) ↔ IsMembership i P xs w v t := by
  unfold IsMembership
  constructor
  · intro run
    obtain ⟨cs, u, candidates, run⟩ := bind_eq_ok.1 run
    rw [amongst, several cs u candidates] at run
    obtain ⟨any?, u, bound, run⟩ := bind_eq_ok.1 run
    obtain ⟨bound, rfl⟩ := Outcome.bound_eq_ok.1 bound
    obtain ⟨tests, compared, rfl⟩ := Binding.oneOf_eq_ok.1 bound
    rw [(keeps_mapM keeps w cs u candidates).schema] at compared
    cases any : Expr.anyOf tests with
    | none =>
      rw [any] at run
      cases run
    | some t =>
      rw [any] at run
      cases run
      exact ⟨cs, tests, candidates, compared, any⟩
  · rintro ⟨cs, tests, candidates, compared, any⟩
    rw [← (keeps_mapM keeps w cs v candidates).schema] at compared
    refine bind_eq_ok.2 ⟨cs, v, candidates, ?_⟩
    rw [amongst, several cs v candidates]
    refine bind_eq_ok.2 ⟨some t, v, ?_, rfl⟩
    exact Outcome.bound_eq_ok.2 ⟨Binding.oneOf_eq_ok.2 ⟨tests, compared, any⟩, rfl⟩

/-! ## Covering -/

/-- The shapes of the test of an item against a candidate. -/
def Shape.test (σx σ : List Shape) : List Shape :=
  [Shape.sign .equal].intercalate [Shape.wrap σx, Shape.wrap σ]

/-- A written test. -/
theorem test_covers {mx : Outcome Expr}
    (item : Covers w c (level inner 4) (Shape.wrap σx) (Ends 4) mx) (candidate : Echoes c inner σ m)
    (more : 0 < c.tokenCount) :
    Covers w c (level inner 2) (Shape.test σx σ) (Ends 2) (do
      let i ← mx
      compared i m) := by
  have equality := operators_covers (n := 3) (s := .sign .equal) (I := fun _ => True)
    (P := id) (.compare .eq) (by decide) (by decide) rfl nofun (by decide)
    (fun _ _ _ _ _ _ => trivial) item (fun _ _ _ => trivial)
    (.cons (fun v _ => parenthesized_covers (candidate v) (by decide)) .nil) more
  have same (i : Expr) : operated (.compare .eq) id i [m] = compared i m := by
    simp [operated, compared, Binding.binary]
  simp only [same] at equality
  have ends (κ : TokenKind) (h : Ends 2 κ) : Ends 3 κ := h.mono (Nat.le_succ 2)
  exact (equality.mono ends).binary (by decide) (by decide) fun κ h => h.passes 2 (Nat.le_refl 2)

/-- A written disjunction of tests. -/
theorem tests_covers {I : Workspace → Prop} {mx : Outcome Expr} (x : τ)
    (first : Covers w c (level inner 4) (Shape.wrap σx) (Ends 4) mx)
    (starts : ∀ e v, (mx >>= fun i => compared i (P x)) w = (.ok e, v) → I v)
    (item : ∀ v, I v → Covers v c (level inner 4) (Shape.wrap σx) (Ends 4) (pure i))
    (kept : ∀ x v e v', I v → compared i (P x) v = (.ok e, v') → I v')
    (h : List.Forall₂ (fun x σ => Echoes c inner σ (P x)) (x :: xs) (σ :: σs))
    (count : xs.length < c.tokenCount) :
    Covers w c (level inner 0)
      ([⟨.keyword .or, "or"⟩].intercalate ((σ :: σs).map (Shape.test σx))) (Ends 0) (do
        let test ← mx >>= fun i => compared i (P x)
        operated (.logical .or) (fun x => compared i (P x)) test xs) := by
  have more : 0 < c.tokenCount := Nat.zero_lt_of_lt count
  obtain ⟨candidate, others⟩ := List.forall₂_cons.1 h
  have rest : List.Forall₂ (fun x τ => ∀ v, I v →
      Covers v c (level inner 2) τ (Ends 2) (compared i (P x))) xs (σs.map (Shape.test σx)) := by
    rw [List.forall₂_map_right_iff]
    refine others.imp fun x σ echo v hv => ?_
    have test := test_covers (item v hv) echo more
    rwa [pure_bind] at test
  have disjunction := operators_covers (n := 1) (s := ⟨.keyword .or, "or"⟩) (.logical .or)
    (by decide) (by decide) rfl nofun (by decide) kept (test_covers first candidate more) starts
    rest (Nat.le_of_lt count)
  have ends (κ : TokenKind) (h : Ends 0 κ) : Ends 1 κ := h.mono (Nat.le_succ 0)
  exact (disjunction.mono ends).conditional fun κ h => h.passes 0 (Nat.le_refl 0)

/-- A written list of candidates. -/
theorem candidates_covers {mx : Outcome Expr} (x : τ)
    (item : Covers w c (level inner 4) (Shape.wrap σx) (Ends 4) mx)
    (h : List.Forall₂ (fun x σ => Echoes c inner σ (P x)) (x :: xs) (σ :: σs))
    (count : xs.length < c.tokenCount) :
    Covers w c (level inner 0)
      (Shape.wrap σx ++ Shape.isIn :: Shape.wrap ([.sign .comma].intercalate (σ :: σs))) (Ends 0)
      (do
        let i ← mx
        (x :: xs).mapM P >>= amongst i) := by
  obtain ⟨first, others⟩ := List.forall₂_cons.1 h
  have membership := membership_covers (F := Ends 0) item
    (fun i v _ offset => list_covers (closedList_covers (first v) others count) i offset)
    (Nat.zero_lt_of_lt count) fun κ ends => ends.passes 3 (Nat.zero_le 3)
  exact Covers.descend (n := 0) (k := 3) membership (by decide) fun κ ends l _ _ =>
    ends.passes l (Nat.zero_le l)

end

/-! ## Texts -/

namespace Source

section

variable {format : GuidFormat} {w v : Workspace} {source : Source} {x e : String}
  {es : List String}

/-- The text `(x) in (e₁, …, eₙ)`. -/
def listText (x : String) (es : List String) : String :=
  "(" ++ x ++ ") in (" ++ ", ".intercalate es ++ ")"

/-- The text `(x) = (e₁) or … or (x) = (eₙ)`. -/
def testsText (x : String) (es : List String) : String :=
  " or ".intercalate (es.map fun e => "(" ++ x ++ ") = (" ++ e ++ ")")

theorem spells_listText (hx : Phrase x σx)
    (h : List.Forall₂ Phrase (e :: es) (σ :: σs)) :
    Spells (listText x (e :: es)).toList
      (Shape.wrap σx ++ Shape.isIn :: Shape.wrap ([.sign .comma].intercalate (σ :: σs))) := by
  have commas : Spells (", ".intercalate (e :: es)).toList ([.sign .comma].intercalate (σ :: σs)) :=
    .intercalate rfl Lexeme.separates_comma (fun r ss rest => rest.space.comma)
      (h.imp fun _ _ phrase => phrase.spells)
  have word : Spells "in".toList [Shape.isIn] := .token (n := 1) rfl rfl (by decide) rfl nofun .nil
  have right := word.append Lexeme.separates_space (commas.wrap .nil).space
  simpa [listText] using hx.spells.wrap right.space

theorem spells_testsText (hx : Phrase x σx)
    (h : List.Forall₂ Phrase (e :: es) (σ :: σs)) :
    Spells (testsText x (e :: es)).toList
      ([⟨.keyword .or, "or"⟩].intercalate ((σ :: σs).map (Shape.test σx))) := by
  have equal : Spells "=".toList [.sign .equal] :=
    .token (n := 0) rfl rfl (by decide) rfl nofun .nil
  have word : Spells "or".toList [⟨.keyword .or, "or"⟩] :=
    .token (n := 1) rfl rfl (by decide) rfl nofun .nil
  have test {e : String} {σ : List Shape} (phrase : Phrase e σ) :
      Spells ("(" ++ x ++ ") = (" ++ e ++ ")").toList (Shape.test σx σ) := by
    have right := equal.append Lexeme.separates_space (phrase.spells.wrap .nil).space
    simpa [Shape.test, List.intercalate_cons_cons] using hx.spells.wrap right.space
  have tests : List.Forall₂ (fun x σ => Spells (String.toList x) σ)
      ((e :: es).map fun e => "(" ++ x ++ ") = (" ++ e ++ ")") ((σ :: σs).map (Shape.test σx)) := by
    rw [List.forall₂_map_left_iff, List.forall₂_map_right_iff]
    exact h.imp fun _ _ => test
  have separator : " or ".toList = ' ' :: ['o', 'r', ' '] := rfl
  exact .intercalate separator Lexeme.separates_space
    (fun r ss rest => (word.append Lexeme.separates_space rest.space).space) tests

theorem keeps_parseText (text : String) : (source.parseText text).Keeps :=
  fun _ _ _ parsed => (exists_phrase (l := 0) parsed).2

/-- Candidates that stand in a longer text. -/
theorem candidates_echo [GuidFormat] (source : Source) {d n : Nat} (h : List.Forall₂ Phrase es σs)
    (fits : ∀ σ ∈ σs, σ.length < n ∧ σ.length < d) :
    List.Forall₂ (fun e σ => Echoes (source.context n) (expression d) σ (source.parseText e)) es
      σs := by
  induction h with
  | nil => exact .nil
  | cons phrase _ ih =>
    obtain ⟨⟨hn, hd⟩, others⟩ := List.forall_mem_cons.1 fits
    exact .cons (echoes_withText phrase hn hd) (ih others)

/-- The text of a list, with what is known of the item. -/
theorem parse_listText (source : Source) {mx : Outcome Expr} (hx : Phrase x σx)
    (h : List.Forall₂ Phrase (e :: es) (σ :: σs))
    (item : ∀ n d, σx.length < n → σx.length < d →
      Covers w (source.context n) (level (expression d) 4) (Shape.wrap σx) (Ends 4) mx) (t : Expr) :
    (source.parseText (listText x (e :: es)) w).1 = .ok t ↔
      ((do
        let i ← mx
        (e :: es).mapM source.parseText >>= amongst i : Outcome Expr) w).1 = .ok t := by
  refine parse_of_covers (source.withText _) (spells_listText hx h) ?_ (ends_of_isEnd rfl 0) t
  generalize count : (Shape.wrap σx ++ Shape.isIn :: _ : List Shape).length = n
  have size : n = σx.length + ([Shape.sign .comma].intercalate (σ :: σs)).length + 5 := by
    rw [← count, List.length_append, List.length_cons, Shape.length_wrap, Shape.length_wrap]
    omega
  have lists := length_lists_le (Shape.sign .comma) σ σs
  have fits (τ : List Shape) (mem : τ ∈ σ :: σs) : τ.length < n + 1 ∧ τ.length < n + 1 := by
    have part := length_le_intercalate (Shape.sign .comma) mem
    omega
  have echoes := candidates_echo source h fits
  refine candidates_covers e (item (n + 1) (n + 1) (by omega) (by omega)) echoes ?_
  have count := (List.forall₂_cons.1 h).2.length_eq
  show es.length < n + 1
  omega

/-- The text of a disjunction, with what is known of the item. -/
theorem parse_testsText (source : Source) {I : Workspace → Prop} {mx : Outcome Expr}
    (hx : Phrase x σx) (h : List.Forall₂ Phrase (e :: es) (σ :: σs))
    (first : ∀ n d, σx.length < n → σx.length < d →
      Covers w (source.context n) (level (expression d) 4) (Shape.wrap σx) (Ends 4) mx)
    (starts : ∀ t v, (mx >>= fun i => compared i (source.parseText e)) w = (.ok t, v) → I v)
    (item : ∀ n d, σx.length < n → σx.length < d → ∀ v, I v →
      Covers v (source.context n) (level (expression d) 4) (Shape.wrap σx) (Ends 4) (pure i))
    (kept : ∀ v v', I v → v.Akin v' → I v') (t : Expr) :
    (source.parseText (testsText x (e :: es)) w).1 = .ok t ↔
      ((do
        let test ← mx >>= fun i => compared i (source.parseText e)
        operated (.logical .or) (fun e => compared i (source.parseText e)) test es : Outcome Expr)
          w).1 = .ok t := by
  refine parse_of_covers (source.withText _) (spells_testsText hx h) ?_ (ends_of_isEnd rfl 0) t
  generalize count : ([_].intercalate _ : List Shape).length = n
  have part (τ : List Shape) (mem : τ ∈ σ :: σs) : σx.length + τ.length + 5 ≤ n := by
    rw [← count]
    refine Nat.le_trans ?_ (length_le_intercalate _ (List.mem_map_of_mem mem))
    simp [Shape.test, List.intercalate_cons_cons]
    omega
  have lists : es.length ≤ n := by
    rw [← count, (List.forall₂_cons.1 h).2.length_eq, ← List.length_map (f := Shape.test σx)]
    exact length_lists_le _ _ _
  have own := part σ List.mem_cons_self
  have fits (τ : List Shape) (mem : τ ∈ σ :: σs) : τ.length < n + 1 ∧ τ.length < n + 1 := by
    have part := part τ mem
    omega
  have echoes := candidates_echo source h fits
  have keeps (e : String) (v : Workspace) (t : Expr) (v' : Workspace) (hv : I v)
      (run : compared i (source.parseText e) v = (.ok t, v')) : I v' :=
    kept v v' hv (keeps_compared (keeps_parseText e) v t v' run)
  exact tests_covers e (first (n + 1) (n + 1) (by omega) (by omega)) starts
    (item (n + 1) (n + 1) (by omega) (by omega)) keeps echoes (Nat.lt_succ_of_le lists)

/-- The list, where the item is known. -/
theorem parse_listText_steady (steady : source.Steady x w i) (hx : Phrase x σx)
    (h : List.Forall₂ Phrase (e :: es) (σ :: σs)) (t : Expr) :
    (source.parseText (listText x (e :: es)) w).1 = .ok t ↔
      (((e :: es).mapM source.parseText >>= amongst i) w).1 = .ok t := by
  have parsed := parse_listText source hx h
    (fun n d hn hd => steady.covers hx (.refl w) hn hd (by decide)) t
  rwa [pure_bind] at parsed

/-- The disjunction, where the item is known. -/
theorem parse_testsText_steady (steady : source.Steady x w i) (hx : Phrase x σx)
    (h : List.Forall₂ Phrase (e :: es) (σ :: σs)) (t : Expr) :
    (source.parseText (testsText x (e :: es)) w).1 = .ok t ↔
      (disjoined i source.parseText e es w).1 = .ok t := by
  have parsed := parse_testsText source (I := w.Akin) hx h
    (fun n d hn hd => steady.covers hx (.refl w) hn hd (by decide))
    (fun t v run => keeps_compared (keeps_parseText e) w t v run)
    (fun n d hn hd v akin => steady.covers hx akin hn hd (by decide))
    (fun v v' => Workspace.Akin.trans) t
  rwa [pure_bind] at parsed

/-- Where the item is not parsed, neither form is. -/
theorem candidates_fail {error : CompileError} (fails : source.parseText x w = (.error error, v))
    (hx : Phrase x σx) (h : List.Forall₂ Phrase (e :: es) (σ :: σs)) (t : Expr) :
    (source.parseText (listText x (e :: es)) w).1 ≠ .ok t ∧
      (source.parseText (testsText x (e :: es)) w).1 ≠ .ok t := by
  have item (n d : Nat) (hn : σx.length < n) (hd : σx.length < d) :
      Covers w (source.context n) (level (expression d) 4) (Shape.wrap σx) (Ends 4)
        (source.parseText x) := parenthesized_covers (echoes_withText hx hn hd w) (by decide)
  constructor
  · rw [Ne, parse_listText source hx h item, fst_eq_ok]
    rintro ⟨u, run⟩
    obtain ⟨i, v, parsed, -⟩ := bind_eq_ok.1 run
    rw [fails] at parsed
    cases parsed
  · have first (t : Expr) (u : Workspace)
        (run : (source.parseText x >>= fun i => compared i (source.parseText e)) w = (.ok t, u)) :
        False := by
      obtain ⟨i, v, parsed, -⟩ := bind_eq_ok.1 run
      rw [fails] at parsed
      cases parsed
    rw [Ne, parse_testsText source (I := fun _ => False) (i := t) hx h item first
      (fun _ _ _ _ _ => False.elim) (fun _ _ => False.elim), fst_eq_ok]
    rintro ⟨u, run⟩
    obtain ⟨test, v, run, -⟩ := bind_eq_ok.1 run
    exact first test v run

/-- Candidates that are not one sequence. -/
theorem sequence?_eq_none (several : ∀ e s, es = [e] → (source.parseText e w).1 = .ok s →
    s.ty.element? = none) (cs : List Expr) (v : Workspace)
    (h : es.mapM source.parseText w = (.ok cs, v)) : sequence? cs = none := by
  rcases es with _ | ⟨e, _ | ⟨e', es⟩⟩
  · cases h
    rfl
  · rw [List.mapM_cons] at h
    obtain ⟨s, u, parsed, ⟨⟩⟩ := bind_eq_ok.1 h
    have none := several e s rfl (congrArg Prod.fst parsed)
    show sequence? [s] = Option.none
    simp [sequence?, none]
  · simp only [List.mapM_cons] at h
    obtain ⟨s, u, -, h⟩ := bind_eq_ok.1 h
    obtain ⟨_, u', more, ⟨⟩⟩ := bind_eq_ok.1 h
    obtain ⟨s', v, -, h⟩ := bind_eq_ok.1 more
    obtain ⟨ss, v', -, ⟨⟩⟩ := bind_eq_ok.1 h
    rfl

/-- What a list is that is not a list of one sequence. -/
theorem parse_listText_several (steady : source.Steady x w i) (hx : Phrase x σx)
    (h : List.Forall₂ Phrase (e :: es) (σ :: σs))
    (several : ∀ e' s, e :: es = [e'] → (source.parseText e' w).1 = .ok s → s.ty.element? = none)
    (t : Expr) : (source.parseText (listText x (e :: es)) w).1 = .ok t ↔
      ∃ v, IsMembership i source.parseText (e :: es) w v t := by
  rw [parse_listText_steady steady hx h, fst_eq_ok]
  exact exists_congr fun v => amongst_eq_ok keeps_parseText (sequence?_eq_none several)

/-- A list of one sequence means that the sequence contains the item. -/
theorem parse_listText_sequence {s : Expr} (plain : IsPlain x) (hx : Phrase x σx) (he : Phrase e σ)
    (parsed : source.parseText e w = (.ok s, v)) (sequence : s.ty.element?.isSome = true)
    (t : Expr) : (source.parseText (listText x [e]) w).1 = .ok t ↔
      (source.parseText (containsText e x) w).1 = .ok t := by
  have akin := keeps_parseText e w s v parsed
  rw [parse_containsText he hx parsed sequence]
  rcases steady_or_fails plain source w with ⟨i, steady⟩ | fails
  · have run : ([e].mapM source.parseText >>= amongst i) w =
        (Binding.contains v.registry.schema s i 0, v) := by
      rw [List.mapM_cons, bind_assoc, bind_of_ok parsed]
      show amongst i [s] v = _
      rw [amongst, sequence?, if_pos sequence]
      rfl
    rw [parse_listText_steady steady hx (.cons he .nil), run, akin.schema,
      steady.contained_eq parsed]
  · obtain ⟨error, u, failed⟩ := fails w (.refl w)
    obtain ⟨error', u', failed'⟩ := fails v akin
    have run : contained (source.parseText e) (source.parseText x) w = (.error error', u') := by
      rw [contained, bind_of_ok parsed, bind_of_error failed']
    rw [run]
    constructor
    · intro h
      exact absurd h (candidates_fail failed hx (.cons he .nil) t).1
    · rintro ⟨⟩

theorem exists_phrases (h : ∀ e ∈ es, source.Parses e) : ∃ σs, List.Forall₂ Phrase es σs := by
  induction es with
  | nil => exact ⟨[], .nil⟩
  | cons e es ih =>
    obtain ⟨first, others⟩ := List.forall_mem_cons.1 h
    obtain ⟨σ, phrase⟩ := first.phrase
    obtain ⟨σs, phrases⟩ := ih others
    exact ⟨σ :: σs, .cons phrase phrases⟩

/-- **A membership in a list means the disjunction of equalities.** The item makes no records; the
item and the candidates are parsed on their own.

Unless the list is one sequence, it is parsed exactly if the disjunction is, and then as the same
expression.  This runs the tests of the item against the candidates from left to right, up to the
first that holds, and fails only with the error of a test that is run.  A list of one sequence means
that the sequence contains the item. -/
theorem parse_candidates (source : Source) (w : Workspace) {x : String} {es : List String}
    (hx : source.Parses x) (plain : IsPlain x) (he : ∀ e ∈ es, source.Parses e)
    (nonempty : es ≠ []) :
    ((∀ e s, es = [e] → (source.parseText e w).1 = .ok s → s.ty.element? = none) → ∀ t,
      ((source.parseText (listText x es) w).1 = .ok t ↔
        (source.parseText (testsText x es) w).1 = .ok t) ∧
      ((source.parseText (listText x es) w).1 = .ok t → ∃ i cs tests v,
        (source.parseText x w).1 = .ok i ∧ es.mapM source.parseText w = (.ok cs, v) ∧
          Binding.Tests w.registry.schema i 0 cs tests ∧ t.Tries tests)) ∧
    ∀ e s, es = [e] → (source.parseText e w).1 = .ok s → s.ty.element?.isSome = true → ∀ t,
      (source.parseText (listText x es) w).1 = .ok t ↔
        (source.parseText (containsText e x) w).1 = .ok t := by
  obtain ⟨σx, hx⟩ := hx.phrase
  obtain ⟨first, others, rfl⟩ := List.exists_cons_of_ne_nil nonempty
  obtain ⟨σs, phrases⟩ := exists_phrases he
  obtain ⟨σ, σs, phrase, -, rfl⟩ := List.forall₂_cons_left_iff.1 phrases
  refine ⟨fun several t => ?_, ?_⟩
  · rcases steady_or_fails plain source w with ⟨i, steady⟩ | fails
    · have list := parse_listText_several steady hx phrases several t
      refine ⟨?_, fun parsed => ?_⟩
      · rw [list, parse_testsText_steady steady hx phrases, fst_eq_ok]
        exact exists_congr fun v => (disjoined_eq_ok keeps_parseText).symm
      · obtain ⟨v, cs, tests, candidates, compared, any⟩ := list.1 parsed
        obtain ⟨u, -, item⟩ := steady w (.refl w)
        exact ⟨i, cs, tests, v, congrArg Prod.fst item, candidates, compared,
          Expr.tries_of_anyOf compared.isTest any⟩
    · obtain ⟨error, v, failed⟩ := fails w (.refl w)
      have neither := candidates_fail failed hx phrases t
      exact ⟨⟨fun h => absurd h neither.1, fun h => absurd h neither.2⟩,
        fun h => absurd h neither.1⟩
  · rintro _ s ⟨⟩ parsed sequence t
    obtain ⟨v, parsed⟩ := fst_eq_ok.1 parsed
    exact parse_listText_sequence plain hx phrase parsed sequence t

end

set_option maxRecDepth 4000 in
theorem parse_candidates_booleans :
    let constant (b : Bool) : Expr := Expr.ofValue (.boolean b)
    let test (b : Bool) : Expr := .binary (.compare .eq) (constant true) (constant b) .boolean
    let among : Expr := .sequenceCall (.parameter 0 (.sequence .boolean)) .contains none
      (some (constant true)) .boolean
    (parse ⟨"(true) in (false, true)", .sequence .boolean, [], true⟩ .empty).1 =
        .ok ((test false).either (test true)) ∧
      (parse ⟨"(true) = (false) or (true) = (true)", .sequence .boolean, [], true⟩ .empty).1 =
        .ok ((test false).either (test true)) ∧
      (∃ tests, ((test false).either (test true)).Tries tests) ∧
      (parse ⟨"(true) in ($)", .sequence .boolean, [], true⟩ .empty).1 = .ok among ∧
      (parse ⟨"($).Contains(true)", .sequence .boolean, [], true⟩ .empty).1 = .ok among := by
  intro constant test among
  have list : (parse ⟨"(true) in (false, true)", .sequence .boolean, [], true⟩ .empty).1 =
      .ok ((test false).either (test true)) := rfl
  have member : (parse ⟨"(true) in ($)", .sequence .boolean, [], true⟩ .empty).1 = .ok among := rfl
  have item : Parses ⟨"", .sequence .boolean, [], true⟩ "true" := ⟨.empty, constant true, rfl⟩
  have plain : IsPlain "true" := by decide
  have two : ∀ e ∈ ["false", "true"], Parses ⟨"", .sequence .boolean, [], true⟩ e := by
    intro e he
    rcases List.mem_pair.1 he with rfl | rfl
    · exact ⟨.empty, constant false, rfl⟩
    · exact item
  have one : ∀ e ∈ ["$"], Parses ⟨"", .sequence .boolean, [], true⟩ e := by
    intro e he
    obtain rfl := List.mem_singleton.1 he
    exact ⟨.empty, .parameter 0 (.sequence .boolean), rfl⟩
  obtain ⟨same, trees⟩ := (parse_candidates _ .empty item plain two (by simp)).1
    (by simp) ((test false).either (test true))
  obtain ⟨-, -, tests, -, -, -, -, tries⟩ := trees list
  have call := (parse_candidates _ .empty item plain one (by simp)).2 "$"
    (.parameter 0 (.sequence .boolean)) rfl rfl rfl among
  exact ⟨list, same.1 list, ⟨tests, tries⟩, member, call.1 member⟩

end Source

end TypedExpr
