import TypedExpr.Proofs.Grouping.Operands

/-!
# Grouping is transparent

Parentheses around a whole text change nothing, and a choice that is written like a call is the
conditional of the same parts.

* `Source.parse_parenthesized` — a text in parentheses.
* `choice_covers`, `conditional_covers` — both forms of the choice make of their tokens the same.
* **`Source.parse_grouping`** — the statement about texts.
-/

namespace TypedExpr

open Binder Grammar

variable {c : BindContext} {σ σ' σ'' : List Shape} {F : TokenKind → Prop} {source : Source}
  {d : Nat}

section

variable {format : GuidFormat} {inner : Binder Expr} {m m' m'' : Outcome Expr} {w : Workspace}

/-! ## Texts -/

namespace Source

/-- Another text over elements of the same type, with the same parameters. -/
def withText (source : Source) (text : String) : Source := { source with text }

/-- The text is parsed in some workspace. -/
def Parses [GuidFormat] (source : Source) (text : String) : Prop :=
  ∃ w e, ((source.withText text).parse w).1 = .ok e

theorem Parses.phrase {text : String} (h : source.Parses text) : ∃ ss, Phrase text ss := by
  obtain ⟨w, e, parsed⟩ := h
  exact (exists_phrase (l := 0) (Prod.ext parsed rfl)).1

/-- In the context of another text, expressions are read like texts that stand alone. -/
theorem echoes_withText {text : String} {n : Nat} (phrase : Phrase text σ) (hn : σ.length < n)
    (hd : σ.length < d) :
    Echoes (source.context n) (expression d) σ (source.withText text).parse := by
  have phrase : Phrase (source.withText text).text σ := phrase
  exact expression_echoes phrase ⟨rfl, rfl, rfl, hn⟩ hd

/-- A text in parentheses has the expressions of the text itself. -/
theorem parse_parenthesized {text : String} (phrase : Phrase text σ) (w : Workspace) (e : Expr) :
    ((source.withText ("(" ++ text ++ ")")).parse w).1 = .ok e ↔
      ((source.withText text).parse w).1 = .ok e := by
  have spells : Spells ("(" ++ text ++ ")").toList
      (Shape.wrap σ) := by
    simpa using phrase.spells.wrap .nil
  refine parse_of_covers (source.withText _) spells ?_ (ends_of_isEnd rfl 0) e
  refine parenthesized_covers ?_ (Nat.zero_le 7)
  have fits : σ.length < (Shape.wrap σ).length + 1 := by
    rw [Shape.length_wrap]
    omega
  exact echoes_withText phrase fits fits w

end Source

/-! ## Choices -/

/-- The three parts of a choice, and its expression. -/
def choose [GuidFormat] (test a b : Outcome Expr) : Outcome Expr := do
  let test ← test
  let a ← a
  let b ← b
  Outcome.bound (Binding.conditional · test a b 0)

/-- The choice between the arguments of a call; there have to be three. -/
def chosen [GuidFormat] : List Expr → Outcome Expr
  | [test, a, b] => Outcome.bound (Binding.conditional · test a b 0)
  | _ => throw (.ofCause (.unknownIdentifier "iif") 0)

/-- A choice that is written like a call. -/
theorem choice_covers (test : EchoesAt w c inner σ m) (whenTrue : Echoes c inner σ' m')
    (whenFalse : Echoes c inner σ'' m'') (enclosed : Enclosed (σ.map Shape.kind))
    (nonempty : σ ≠ []) (hc : 2 < c.tokenCount) :
    Covers w c (primaryStart inner) (⟨.identifier, "iif"⟩ ::
      Shape.wrap ([.sign .comma].intercalate [σ, σ', σ''])) F (choose m m' m'') := by
  have list := argumentList_covers (F := F) (P := id) test
    (.cons whenTrue (.cons whenFalse .nil)) hc enclosed nonempty
  have called (offset : Nat) : Covers w c (choice inner offset)
      (Shape.wrap ([.sign .comma].intercalate [σ, σ', σ''])) F
      (choose m m' m'') := by
    have same : choose m m' m'' = [m, m', m''].mapM id >>= chosen := by
      simp [choose, chosen]
    rw [same]
    refine list.bind_last fun args _ _ => ?_
    rcases args with _ | ⟨test, _ | ⟨a, _ | ⟨b, _ | ⟨_, _⟩⟩⟩⟩
    case cons.cons.cons.nil =>
      exact .bound fun s v => ⟨Binding.conditional_moves.ok v, Binding.conditional_moves.ok v⟩
    all_goals
      exact .fails (fun s => runs_scope.fails_bind (fails_fail _ _)) ⟨_, _, rfl⟩
  have named (offset : Nat) : Covers w c (plainName inner "iif" offset)
      (Shape.wrap ([.sign .comma].intercalate [σ, σ', σ''])) F
      (choose m m' m'') := by
    have iif : Text.eqIgnoreCase "iif" "iif" = true := rfl
    simp only [plainName, iif, Bool.true_and]
    exact .isKind_bind _ true (fun _ _ => rfl) (called offset)
  have noKeyword (offset : Nat) : contextKeyword "iif" offset = pure none := by
    have it : Text.eqIgnoreCase "iif" "it" = false := rfl
    have parent : Text.eqIgnoreCase "iif" "parent" = false := rfl
    have root : Text.eqIgnoreCase "iif" "root" = false := rfl
    simp only [contextKeyword, it, parent, root, Bool.false_eq_true, if_false]
  refine .current_bind fun t shape => ?_
  have kind : t.kind = .identifier := congrArg Shape.kind shape
  rw [kind]
  refine .advance_bind fun t shape => ?_
  have text : t.text = "iif" := congrArg Shape.text shape
  rw [text, noKeyword]
  refine .still_bind (fun _ => True) (fun _ _ _ _ => runs_read) (fun _ _ => trivial) ?_
  split
  · exact named t.offset
  · exact named t.offset

/-- A conditional of three expressions in parentheses. -/
theorem conditional_covers {d : Nat} (test : EchoesAt w c (expression (d + 1)) σ m)
    (whenTrue : Echoes c (expression d) σ' m') (whenFalse : Echoes c (expression d) σ'' m'') :
    Covers w c (level (expression (d + 1)) 0)
      (Shape.wrap σ ++ .sign .question :: (Shape.wrap σ' ++ .sign .colon :: Shape.wrap σ''))
      (Ends 0) (choose m m' m'') := by
  have question : Ends 1 (.symbol .question) := by decide
  have colon : Ends 0 (.symbol .colon) := by decide
  have condition : Covers w c (level (expression (d + 1)) 1) _ (Ends 1) m :=
    parenthesized_covers test (by decide)
  have branch {w : Workspace} {σ : List Shape} {m : Outcome Expr}
      (h : EchoesAt w c (expression d) σ m) :
      Covers w c (expression (d + 1)) (Shape.wrap σ) (Ends 0) m :=
    parenthesized_covers h (by decide)
  refine .current_bind_blind fun t => condition.bind (fun test _ _ => ?_) fun _ _ => question
  refine .isKind_bind _ true (fun _ _ => rfl) (.advance_bind fun _ _ => ?_)
  refine (branch (whenTrue _)).bind (fun a _ _ => ?_) fun _ _ => colon
  refine .expect_bind rfl fun _ _ => (branch (whenFalse _)).bind_last fun b _ _ => ?_
  exact .bound fun s v => ⟨Binding.conditional_moves.ok v, Binding.conditional_moves.ok v⟩

end

/-! ## Texts of choices -/

namespace Source

section

variable {format : GuidFormat} {test a b : String}

theorem spells_choice (ht : Phrase test σ) (ha : Phrase a σ') (hb : Phrase b σ'') :
    Spells ("iif(" ++ test ++ ", " ++ a ++ ", " ++ b ++ ")").toList (⟨.identifier, "iif"⟩ ::
      Shape.wrap ([.sign .comma].intercalate [σ, σ', σ''])) := by
  have iif : Spells "iif".toList [⟨.identifier, "iif"⟩] :=
    .token (n := 2) rfl rfl (by decide) rfl nofun .nil
  have last := hb.spells.append Lexeme.separates_rightParen (.rightParen .nil)
  have second := ha.spells.append Lexeme.separates_comma last.space.comma
  have first := ht.spells.append Lexeme.separates_comma second.space.comma
  have all := iif.append Lexeme.separates_leftParen first.leftParen
  simpa [Shape.wrap, List.intercalate_cons_cons] using all

theorem spells_conditional (ht : Phrase test σ) (ha : Phrase a σ') (hb : Phrase b σ'') :
    Spells ("(" ++ test ++ ") ? (" ++ a ++ ") : (" ++ b ++ ")").toList
      (Shape.wrap σ ++ .sign .question :: (Shape.wrap σ' ++ .sign .colon :: Shape.wrap σ'')) := by
  have last := hb.spells.wrap .nil
  have colon := Spells.sign (c := ':') (s := .colon) (fun _ => rfl) rfl rfl last.space
  have second := ha.spells.wrap colon.space
  have question := Spells.sign (c := '?') (s := .question) (fun _ => rfl) rfl rfl second.space
  have all := ht.spells.wrap question.space
  simpa using all

/-- The text of a choice that is written like a call. -/
theorem parse_choice (ht : Phrase test σ) (ha : Phrase a σ') (hb : Phrase b σ'') (w : Workspace)
    (e : Expr) :
    ((source.withText ("iif(" ++ test ++ ", " ++ a ++ ", " ++ b ++ ")")).parse w).1 = .ok e ↔
      (choose (source.withText test).parse (source.withText a).parse (source.withText b).parse
        w).1 = .ok e := by
  refine parse_of_covers (source.withText _) (spells_choice ht ha hb) ?_ (ends_of_isEnd rfl 0) e
  generalize count : (_ :: Shape.wrap _ : List Shape).length = n
  have size : n = σ.length + σ'.length + σ''.length + 5 := by
    rw [← count]
    simp [List.intercalate_cons_cons]
    omega
  have start := choice_covers (F := Ends 8) (c := source.context (n + 1))
    (echoes_withText (d := n + 1) ht (by omega) (by omega) w)
    (echoes_withText ha (by omega) (by omega)) (echoes_withText hb (by omega) (by omega))
    ht.enclosed ht.nonempty (show 2 < n + 1 by omega)
  exact start.primary.lower rfl (Nat.zero_le 7)

/-- The text of a conditional of parts in parentheses. -/
theorem parse_conditional (ht : Phrase test σ) (ha : Phrase a σ') (hb : Phrase b σ'')
    (w : Workspace) (e : Expr) :
    ((source.withText ("(" ++ test ++ ") ? (" ++ a ++ ") : (" ++ b ++ ")")).parse w).1 = .ok e ↔
      (choose (source.withText test).parse (source.withText a).parse (source.withText b).parse
        w).1 = .ok e := by
  refine parse_of_covers (source.withText _) (spells_conditional ht ha hb) ?_
    (ends_of_isEnd rfl 0) e
  generalize count : (_ ++ _ :: _ : List Shape).length = n
  have size : n = σ.length + σ'.length + σ''.length + 8 := by
    rw [← count]
    simp
    omega
  exact conditional_covers (c := source.context (n + 1))
    (echoes_withText ht (by omega) (by omega) w) (echoes_withText ha (by omega) (by omega))
    (echoes_withText hb (by omega) (by omega))

/-- **Grouping is transparent.** A text that is parsed has the same expression in parentheses.  For
parts that are parsed on their own, the choice that is written like a call is parsed exactly if the
conditional of the parts in parentheses is, and then as the same expression. -/
theorem parse_grouping (source : Source) (w : Workspace) :
    (∀ e, (source.parse w).1 = .ok e →
      ((source.withText ("(" ++ source.text ++ ")")).parse w).1 = .ok e) ∧
    ∀ test a b, source.Parses test → source.Parses a → source.Parses b → ∀ e,
      ((source.withText ("iif(" ++ test ++ ", " ++ a ++ ", " ++ b ++ ")")).parse w).1 = .ok e ↔
        ((source.withText ("(" ++ test ++ ") ? (" ++ a ++ ") : (" ++ b ++ ")")).parse w).1 =
          .ok e := by
  constructor
  · intro e parsed
    have parses : source.Parses source.text := ⟨w, e, parsed⟩
    obtain ⟨ss, phrase⟩ := parses.phrase
    exact (parse_parenthesized phrase w e).2 parsed
  · intro test a b ht ha hb e
    obtain ⟨σ, ht⟩ := ht.phrase
    obtain ⟨σ', ha⟩ := ha.phrase
    obtain ⟨σ'', hb⟩ := hb.phrase
    exact (parse_choice ht ha hb w e).trans (parse_conditional ht ha hb w e).symm

end

set_option maxRecDepth 4000 in
theorem parse_grouping_minimum :
    let x : Expr := .parameter 0 (.int .int32)
    let sum : Expr := .binary (.arithmetic .add) x x (.int .int32)
    let e : Expr := .conditional (.binary (.compare .lt) x x .boolean) x sum
    (parse ⟨"$ + ~", .int .int32, [], true⟩ .empty).1 = .ok sum ∧
      (parse ⟨"($ + ~)", .int .int32, [], true⟩ .empty).1 = .ok sum ∧
      (parse ⟨"iif($ < ~, $, $ + ~)", .int .int32, [], true⟩ .empty).1 = .ok e ∧
      (parse ⟨"($ < ~) ? ($) : ($ + ~)", .int .int32, [], true⟩ .empty).1 = .ok e := by
  intro x sum e
  have parsed : (parse ⟨"$ + ~", .int .int32, [], true⟩ .empty).1 = .ok sum := rfl
  have called : (parse ⟨"iif($ < ~, $, $ + ~)", .int .int32, [], true⟩ .empty).1 = .ok e := rfl
  have both := parse_grouping ⟨"$ + ~", .int .int32, [], true⟩ .empty
  have same := both.2 "$ < ~" "$" "$ + ~" ⟨.empty, _, rfl⟩ ⟨.empty, _, rfl⟩ ⟨.empty, _, rfl⟩ e
  exact ⟨parsed, both.1 sum parsed, called, same.1 called⟩

end Source

end TypedExpr
