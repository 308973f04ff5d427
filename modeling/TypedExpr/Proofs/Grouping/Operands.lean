import TypedExpr.Proofs.Grouping.Covering

/-!
# Operands over known tokens

What the levels of the grammar make of a primary whose tokens are known, of an expression in
parentheses and of a list of expressions.

* **`Covers.lower`** — what the primaries cover, every level covers.
* `parenthesized_covers` — an expression in parentheses is what it is on its own.
* `closedList_covers` — expressions with commas between them, up to a parenthesis.
-/

namespace TypedExpr

variable {format : GuidFormat}

open Binder Grammar

variable {α β : Type} {w : Workspace} {c : BindContext} {ss : List Shape} {F : TokenKind → Prop}
  {inner : Binder Expr} {m : Outcome Expr} {n : Nat}

/-! ## Levels -/

namespace Covers

/-- A chain ends at once. -/
theorem chain_ends {step : α → Binder (Option α)} {a : α}
    (h : ∀ t rest w, F t.kind → Runs c (step a) ⟨t :: rest, w⟩ none ⟨t :: rest, w⟩) :
    Covers w c (chain step a) [] F (pure a) := by
  intro ts next rest w' shapes follows hw
  obtain rfl := List.map_eq_nil_iff.1 shapes
  exact ⟨w', hw, Binder.chain_ends (h next rest w' follows)⟩

/-- A primary that does not start with a sign is an operand of a unary operator. -/
theorem unary {s : Shape} (h : Covers w c (primary inner) (s :: ss) F m)
    (noSign : unaryOp? s.kind = none) : Covers w c (level inner 7) (s :: ss) F m := by
  refine still_bind (a := []) (unaryOp? · = none) (fun t rest w none => ?_) (fun _ _ => noSign) ?_
  · refine Binder.chain_ends (runs_current.bind ?_)
    rw [none]
    exact .pure
  · have all : Covers w c (primary inner >>= fun e => List.foldlM applySign e []) (s :: ss) F
        (m >>= pure) := h.bind_last fun e _ _ => .pure e
    rwa [bind_pure] at all

/-- An operand of the next level is one of the level. -/
theorem binary (h : Covers w c (level inner (n + 1)) ss F m) (h₁ : 1 ≤ n) (h₆ : n ≤ 6)
    (passes : ∀ κ, F κ → Passes n κ) : Covers w c (level inner n) ss F m := by
  rw [level_eq inner h₁ h₆, ← bind_pure m]
  exact h.bind_last fun e _ _ =>
    chain_ends fun t rest w follows => levelStep_ends (passes _ follows) e

/-- A test without branches behind it is an expression. -/
theorem conditional (h : Covers w c (level inner 1) ss F m) (passes : ∀ κ, F κ → Passes 0 κ) :
    Covers w c (level inner 0) ss F m := by
  refine current_bind_blind fun t => ?_
  rw [← bind_pure m]
  refine h.bind_last fun test _ _ => ?_
  have noQuestion (κ : TokenKind) (follows : F κ) : (κ == .symbol .question) = false :=
    beq_false_of_ne ((passes κ follows).question rfl)
  exact isKind_bind _ false noQuestion (.pure test)

/-- What a level covers, the looser levels cover. -/
theorem descend {k : Nat} (h : Covers w c (level inner (n + k)) ss F m) (hk : n + k ≤ 7)
    (passes : ∀ κ, F κ → ∀ l, n ≤ l → l < n + k → Passes l κ) :
    Covers w c (level inner n) ss F m := by
  induction k with
  | zero => exact h
  | succ k ih =>
    rw [← Nat.add_assoc] at h hk passes
    have hk : n + k ≤ 6 := Nat.le_of_succ_le_succ hk
    have here (κ : TokenKind) (follows : F κ) : Passes (n + k) κ :=
      passes κ follows (n + k) (Nat.le_add_right n k) (Nat.lt_succ_self _)
    refine ih ?_ (Nat.le_succ_of_le hk) fun κ follows l hl less =>
      passes κ follows l hl (Nat.lt_succ_of_lt less)
    rcases Nat.eq_zero_or_pos (n + k) with zero | pos
    · rw [zero] at h here ⊢
      exact h.conditional here
    · exact h.binary pos hk here

/-- **What the primaries cover, every level covers**, if it does not start with a sign. -/
theorem lower {s : Shape} (h : Covers w c (primary inner) (s :: ss) (Ends 8) m)
    (noSign : unaryOp? s.kind = none) (hn : n ≤ 7) :
    Covers w c (level inner n) (s :: ss) (Ends n) m := by
  obtain ⟨k, hk⟩ := Nat.exists_eq_add_of_le hn
  have ends (κ : TokenKind) (h : Ends n κ) : Ends 8 κ := h.mono (Nat.le_succ_of_le hn)
  have unary := (h.mono ends).unary noSign
  rw [hk] at unary
  exact unary.descend (Nat.le_of_eq hk.symm) fun κ ends l hl _ => ends.passes l hl

/-- The members, calls and indices behind a primary end at once. -/
theorem primary (h : Covers w c (primaryStart inner) ss (Ends 8) m) :
    Covers w c (Grammar.primary inner) ss (Ends 8) m := by
  rw [← bind_pure m]
  exact h.bind_last fun e _ _ => chain_ends fun t rest w ends => suffixStep_ends ends e

end Covers

/-! ## Parentheses -/

/-- Another token than the expected one. -/
theorem fails_expect {κ : TokenKind} {s : BindState} (h : (headToken s.tokens).kind ≠ κ) :
    Fails c (expect κ) s := by
  refine Runs.fails_bind (a := (headToken s.tokens).kind == κ) rfl ?_
  rw [beq_false_of_ne h]
  exact fails_unexpected _

theorem ne_of_isEnd {k κ : TokenKind} (h : k.isEnd = false) (isEnd : κ.isEnd = true) : k ≠ κ := by
  rintro rfl
  rw [h] at isEnd
  cases isEnd

/-- The start of a primary in parentheses. -/
theorem parenthesizedStart_covers (h : EchoesAt w c inner ss m) :
    Covers w c (primaryStart inner) (Shape.wrap ss) F m := by
  refine .current_bind fun t shape => ?_
  have kind : t.kind = .symbol .leftParen := congrArg Shape.kind shape
  rw [kind, ← bind_pure m]
  refine .advance_bind fun _ _ => h.bind (fun e _ _ => ?_) (fun _ _ => rfl) fun e s stuck => ?_
  · exact .expect_bind rfl fun _ _ => .pure e
  · exact (fails_expect (ne_of_isEnd stuck rfl)).bind _

/-- **An expression in parentheses** is what it is on its own, as an operand of any level. -/
theorem parenthesized_covers (h : EchoesAt w c inner ss m) (hn : n ≤ 7) :
    Covers w c (level inner n) (Shape.wrap ss) (Ends n) m :=
  ((parenthesizedStart_covers h).primary).lower rfl hn

/-! ## Lists -/

section Lists

variable {τ : Type} {P : τ → Outcome Expr} {x : τ} {xs : List τ} {σ : List Shape}
  {σs : List (List Shape)}

/-- Items up to the closing parenthesis, behind items read before. -/
theorem separatedFrom_covers (first : EchoesAt w c inner σ (P x))
    (others : List.Forall₂ (fun x σ => Echoes c inner σ (P x)) xs σs) :
    ∀ fuel done, xs.length < fuel →
      Covers w c (do
        let es ← separatedFrom (fun es => return (← inner) :: es) fuel done
        let _ ← expect (.symbol .rightParen)
        return es.reverse) ([.sign .comma].intercalate (σ :: σs) ++ [.sign .rightParen]) F (do
        let e ← P x
        let es ← xs.mapM P
        return done.reverse ++ e :: es) := by
  -- An item that ends too early is followed by no comma and by no closing parenthesis.
  have stuck (fuel : Nat) (es : List Expr) (s : BindState)
      (early : (headToken s.tokens).kind.isEnd = false) :
      Fails c (isSymbol .comma >>= fun more => (if more = true then
          advance >>= fun _ => separatedFrom (fun es => return (← inner) :: es) fuel es
        else pure es) >>= fun es => expect (.symbol .rightParen) >>= fun _ =>
          pure es.reverse) s := by
    refine Runs.fails_bind (a := (headToken s.tokens).kind == .symbol .comma) rfl ?_
    rw [beq_false_of_ne (ne_of_isEnd early rfl)]
    exact (fails_expect (ne_of_isEnd early rfl)).bind _
  induction xs generalizing w x σ σs with
  | nil =>
    intro fuel done hf
    obtain ⟨fuel, rfl⟩ : ∃ f, fuel = f + 1 := ⟨fuel - 1, by omega⟩
    obtain rfl := List.forall₂_nil_left_iff.1 others
    rw [List.intercalate_singleton]
    simp only [separatedFrom, List.mapM_nil, bind_assoc, pure_bind]
    refine first.bind (fun e _ _ => ?_) (fun _ _ => rfl) fun e s early => stuck fuel _ s early
    refine .isKind_bind _ false (fun _ _ => rfl) ?_
    refine .expect_bind rfl fun _ _ => ?_
    rw [List.reverse_cons]
    exact .pure _
  | cons y ys ih =>
    intro fuel done hf
    obtain ⟨fuel, rfl⟩ : ∃ f, fuel = f + 1 := ⟨fuel - 1, by omega⟩
    obtain ⟨τ, τs, next, more, rfl⟩ := List.forall₂_cons_left_iff.1 others
    rw [List.intercalate_cons_cons, List.append_assoc, List.append_assoc, List.singleton_append]
    simp only [separatedFrom, List.mapM_cons, bind_assoc, pure_bind]
    refine first.bind (fun e v _ => ?_) (fun _ _ => rfl) fun e s early => stuck fuel _ s early
    refine .isKind_bind _ true (fun _ _ => rfl) ?_
    simp only [if_true, bind_assoc]
    refine .advance_bind fun _ _ => ?_
    have rest := ih (next v) more fuel (e :: done) (Nat.lt_of_succ_lt_succ hf)
    simpa only [List.reverse_cons, List.append_assoc, List.cons_append, List.nil_append] using rest

/-- **Expressions with commas between them**, up to the closing parenthesis, are read one after
the other. -/
theorem closedList_covers (first : EchoesAt w c inner σ (P x))
    (others : List.Forall₂ (fun x σ => Echoes c inner σ (P x)) xs σs)
    (hn : xs.length < c.tokenCount) :
    Covers w c (do
      let es ← expressionList inner
      let _ ← expect (.symbol .rightParen)
      return es) ([.sign .comma].intercalate (σ :: σs) ++ [.sign .rightParen]) F
      ((x :: xs).mapM P) := by
  have items := separatedFrom_covers (F := F) first others c.tokenCount [] hn
  simp only [expressionList, separated, bind_assoc, pure_bind, List.mapM_cons]
  exact .still_bind (fun _ => True) (fun _ _ _ _ => runs_tokenCount) (fun _ _ => trivial) items

/-- The first token of a text in front of a comma or a closing parenthesis closes nothing, if there
is one. -/
theorem firstKind_ne_rightParen (h : Enclosed (σ.map Shape.kind)) {ss : List Shape}
    (nonempty : σ ≠ []) (κ : TokenKind) : firstKind (σ ++ ss) κ ≠ .symbol .rightParen := by
  obtain ⟨s, σ, rfl⟩ := List.exists_cons_of_ne_nil nonempty
  intro (first : s.kind = .symbol .rightParen)
  rw [Enclosed, List.map_cons, nesting?_cons, first] at h
  cases h

/-- Arguments between parentheses. -/
theorem argumentList_covers (first : EchoesAt w c inner σ (P x))
    (others : List.Forall₂ (fun x σ => Echoes c inner σ (P x)) xs σs)
    (hn : xs.length < c.tokenCount) (enclosed : Enclosed (σ.map Shape.kind)) (nonempty : σ ≠ []) :
    Covers w c (argumentList inner)
      (Shape.wrap ([.sign .comma].intercalate (σ :: σs))) F ((x :: xs).mapM P) := by
  refine .expect_bind rfl fun _ _ => ?_
  refine .isKind_bind _ false (fun κ _ => ?_) ?_
  · rw [intercalate_cons, List.append_assoc]
    exact beq_false_of_ne (firstKind_ne_rightParen enclosed nonempty κ)
  · exact closedList_covers first others hn

end Lists

end TypedExpr
