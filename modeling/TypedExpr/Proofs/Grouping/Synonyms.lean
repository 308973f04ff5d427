import TypedExpr.Proofs.Grouping.Transparency

/-!
# Synonyms

What a text is bound to depends on its tokens, and on these only up to synonyms: not on blanks, on
the quotes of string literals, on the letter case of reserved words, nor on which of two spellings
an operator has.

* **`Source.parse_synonyms`** — texts of tokens of one meaning have the same expressions.
-/

namespace TypedExpr.Source

section

variable {format : GuidFormat}

/-- One direction: an expression of the first text is one of the second. -/
theorem parse_of_alike {source : Source} {a b : String} {ts us : List Token} {w v : Workspace}
    {e : Expr} (ha : Lexer.tokenize a = .ok ts) (hb : Lexer.tokenize b = .ok us)
    (alike : List.Forall₂ Token.Alike ts us) (similar : w.Similar v)
    (h : ((source.withText a).parse w).1 = .ok e) : ((source.withText b).parse v).1 = .ok e := by
  obtain ⟨v', -, parsed⟩ := parseAt_alike (l := 0) (P := (· ≠ .finish)) (fun _ => id)
    (Workspace.kept_together w) (Or.inr (Workspace.numbers_together w))
    (show source.withText b = { source.withText a with text := b } from rfl)
    (Lexer.tokenize_eq_ok.1 ha) (Lexer.tokenize_eq_ok.1 hb) alike (fun _ _ => id) ⟨similar, .refl w⟩
    (Prod.ext h rfl)
  exact congrArg Prod.fst parsed

/-- **Binding depends on the tokens, up to synonyms.** Two texts whose tokens have the same meanings
one by one have the same expressions, with the same declarations and the same number of the next
record. -/
theorem parse_synonyms (source : Source) {a b : String} {ts us : List Token}
    (ha : Lexer.tokenize a = .ok ts) (hb : Lexer.tokenize b = .ok us)
    (alike : List.Forall₂ Token.Alike ts us) {w v : Workspace} (similar : w.Similar v) (e : Expr) :
    ((source.withText a).parse w).1 = .ok e ↔ ((source.withText b).parse v).1 = .ok e := by
  constructor
  · exact parse_of_alike ha hb alike similar
  · exact parse_of_alike hb ha (alike.imp fun _ _ => Token.Alike.symm).flip similar.symm

end

set_option maxRecDepth 4000 in
theorem parse_synonyms_not :
    let ts : List Token := [⟨.keyword .not, "Not", 0⟩, ⟨.symbol .leftParen, "(", 3⟩,
      ⟨.symbol .dollar, "$", 4⟩, ⟨.symbol .equal, "=", 6⟩, ⟨.symbol .tilde, "~", 8⟩,
      ⟨.symbol .rightParen, ")", 9⟩, ⟨.finish, "", 10⟩]
    let us : List Token := [⟨.symbol .bang, "!", 0⟩, ⟨.symbol .leftParen, "(", 1⟩,
      ⟨.symbol .dollar, "$", 2⟩, ⟨.symbol .equalEqual, "==", 3⟩, ⟨.symbol .tilde, "~", 5⟩,
      ⟨.symbol .rightParen, ")", 6⟩, ⟨.finish, "", 7⟩]
    let x : Expr := .parameter 0 (.int .int32)
    let e : Expr := .unary .not (.binary (.compare .eq) x x .boolean)
    Lexer.tokenize "Not($ = ~)" = .ok ts ∧ Lexer.tokenize "!($==~)" = .ok us ∧
      List.Forall₂ Token.Alike ts us ∧
        (Source.parse ⟨"Not($ = ~)", .int .int32, [], true⟩ .empty).1 = .ok e ∧
          (Source.parse ⟨"!($==~)", .int .int32, [], true⟩ .empty).1 = .ok e := by
  intro ts us x e
  have ha : Lexer.tokenize "Not($ = ~)" = .ok ts := rfl
  have hb : Lexer.tokenize "!($==~)" = .ok us := rfl
  have alike : List.Forall₂ Token.Alike ts us := by
    repeat' first
      | exact .nil
      | exact Token.alike_of_kind rfl rfl
      | constructor
  have parsed : (Source.parse ⟨"Not($ = ~)", .int .int32, [], true⟩ .empty).1 = .ok e := rfl
  have same := parse_synonyms ⟨"", .int .int32, [], true⟩ ha hb alike (.refl .empty) e
  exact ⟨ha, hb, alike, parsed, same.1 parsed⟩

end TypedExpr.Source
