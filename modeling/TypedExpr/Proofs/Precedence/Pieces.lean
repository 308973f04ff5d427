import TypedExpr.Proofs.Precedence.Scanning

/-!
# Texts made of pieces

A piece is a text that is one token.  Pieces with spaces between them are read one after the other.

* `Piece` — a piece, with the token that it is.
* `Piece.sign` — the piece of a sign.
* **`Lexer.tokens_pieces`** — the tokens of pieces with spaces between them.
-/

namespace TypedExpr

/-! ## Pieces -/

/-- Kind and text of a token, without its position. -/
structure Shape where
  kind : TokenKind
  text : String
deriving DecidableEq

/-- Kind and text of a token. -/
def Token.shape (t : Token) : Shape := ⟨t.kind, t.text⟩

/-- The token that characters are, if they are one. -/
def Lexeme.shape? (taken : String) : Lexeme → Option Shape
  | plain kind => some ⟨kind, taken⟩
  | literal content => some ⟨.string, content⟩
  | fault _ => none

/-- A text that is one token: it does not start with a blank, and the scanner takes all of it. -/
structure Piece where
  text : String
  token : Shape
  starts : ∃ c cs, text.toList = c :: cs ∧ Text.isBlank c = false
  whole : (Lexeme.scan text.toList).2 = text.length
  read : (Lexeme.scan text.toList).1.shape? text = some token
  proper : token.kind ≠ .finish

namespace Piece

/-- The piece of a sign. -/
def sign (s : Symbol) : Piece where
  text := s.text
  token := ⟨.symbol s, s.text⟩
  starts := by cases s <;> exact ⟨_, _, rfl, rfl⟩
  whole := by cases s <;> rfl
  read := by cases s <;> rfl
  proper := nofun

/-- Pieces with spaces between them. -/
def join (ps : List Piece) : String := " ".intercalate (ps.map text)

/-- The characters of pieces, each behind a space. -/
def spaced (ps : List Piece) : List Char := ps.flatMap fun p => ' ' :: p.text.toList

theorem toList_join (p : Piece) (ps : List Piece) :
    (join (p :: ps)).toList = p.text.toList ++ spaced ps := by
  induction ps generalizing p with
  | nil => simp [join, spaced]
  | cons q ps ih =>
    have tail : (join (q :: ps)).toList = q.text.toList ++ spaced ps := ih q
    simp only [join, List.map_cons, String.intercalate_cons_cons] at tail ⊢
    simp [tail, spaced]

theorem length_le_spaced (ps : List Piece) : ps.length ≤ (spaced ps).length := by
  induction ps with
  | nil => exact Nat.le_refl 0
  | cons p ps ih =>
    have tail : spaced (p :: ps) = ' ' :: (p.text.toList ++ spaced ps) := rfl
    rw [tail, List.length_cons, List.length_cons, List.length_append]
    omega

/-- The scanner takes a piece and leaves the pieces behind it. -/
theorem scan_spaced (p : Piece) (ps : List Piece) :
    Lexeme.scan (p.text.toList ++ spaced ps) = Lexeme.scan p.text.toList := by
  cases ps with
  | nil => rw [spaced, List.flatMap_nil, List.append_nil]
  | cons q ps =>
    obtain ⟨c, cs, hc, -⟩ := p.starts
    have read := p.read
    rw [hc] at read ⊢
    refine Lexeme.scan_append Lexeme.separates_space c cs _ fun cause fault => ?_
    rw [fault] at read
    cases read

end Piece

/-! ## Reading pieces -/

namespace Lexer

/-- The next token is the next piece, perhaps behind a space. -/
theorem next_piece (p : Piece) (ps : List Piece) (position : Nat) {blanks : List Char}
    (hb : blanks = [] ∨ blanks = [' ']) :
    ∃ offset position', Lexer.next ⟨position, blanks ++ (p.text.toList ++ Piece.spaced ps)⟩ =
      (.ok ⟨p.token.kind, p.token.text, offset⟩, ⟨position', Piece.spaced ps⟩) := by
  obtain ⟨c, cs, hc, notBlank⟩ := p.starts
  have skip : Lexer.skipBlanks ⟨position, blanks ++ (p.text.toList ++ Piece.spaced ps)⟩ =
      ⟨position + blanks.length, p.text.toList ++ Piece.spaced ps⟩ := by
    rcases hb with rfl | rfl
    · simp [skipBlanks, advance, hc, notBlank]
    · have blank : Text.isBlank ' ' = true := rfl
      simp [skipBlanks, advance, hc, notBlank, blank]
  have taken : (p.text.toList ++ Piece.spaced ps).take p.text.length = p.text.toList := by
    rw [← String.length_toList]
    exact List.take_left
  have left : (p.text.toList ++ Piece.spaced ps).drop p.text.length = Piece.spaced ps := by
    rw [← String.length_toList]
    exact List.drop_left
  have read := p.read
  have whole := p.whole
  unfold next
  simp only [skip, p.scan_spaced]
  rcases hs : Lexeme.scan p.text.toList with ⟨lexeme, n⟩
  rw [hs] at read whole
  simp only at read whole
  subst whole
  cases lexeme with
  | plain kind =>
    simp only [Lexeme.shape?, Option.some.injEq] at read
    simp only [taken, advance, left, ← read, String.ofList_toList]
    exact ⟨_, _, rfl⟩
  | literal content =>
    simp only [Lexeme.shape?, Option.some.injEq] at read
    simp only [advance, left, ← read]
    exact ⟨_, _, rfl⟩
  | fault cause => cases read

theorem run_succ {l l' : Lexer} {t : Token} (fuel : Nat) (next : l.next = (.ok t, l'))
    (proper : t.kind ≠ .finish) : l.run (fuel + 1) = (t :: (l'.run fuel).1, (l'.run fuel).2) := by
  rw [run, next]
  simp only [if_neg proper]

/-- At the end of the text, the end token is the last one. -/
theorem run_end (position fuel : Nat) :
    run (fuel + 1) ⟨position, []⟩ = ([⟨.finish, "", position⟩], none) := rfl

/-- Pieces are read one after the other up to the end of the text. -/
theorem run_pieces (ps : List Piece) (p : Piece) (position fuel : Nat) {blanks : List Char}
    (hb : blanks = [] ∨ blanks = [' ']) (hf : ps.length + 2 ≤ fuel) :
    ∃ ts finish, run fuel ⟨position, blanks ++ (p.text.toList ++ Piece.spaced ps)⟩ =
        (ts ++ [finish], none) ∧
      ts.map Token.shape = (p :: ps).map Piece.token ∧ finish.kind = .finish := by
  induction ps generalizing p position fuel blanks with
  | nil =>
    obtain ⟨fuel, rfl⟩ := Nat.exists_eq_add_of_le' hf
    obtain ⟨offset, position', next⟩ := next_piece p [] position hb
    refine ⟨[⟨p.token.kind, p.token.text, offset⟩], ⟨.finish, "", position'⟩, ?_, rfl, rfl⟩
    rw [List.length_nil, run_succ (fuel + 1) next p.proper, Piece.spaced, List.flatMap_nil, run_end]
    rfl
  | cons q ps ih =>
    obtain ⟨fuel, rfl⟩ := Nat.exists_eq_add_of_le' (Nat.le_trans (Nat.le_add_left 1 _) hf)
    obtain ⟨offset, position', next⟩ := next_piece p (q :: ps) position hb
    rw [List.length_cons] at hf
    have hf : ps.length + 2 ≤ fuel := by omega
    obtain ⟨ts, finish, run, shapes, last⟩ := ih q position' fuel (Or.inr rfl) hf
    refine ⟨⟨p.token.kind, p.token.text, offset⟩ :: ts, finish, ?_, ?_, last⟩
    · rw [run_succ fuel next p.proper]
      have tail : Piece.spaced (q :: ps) = [' '] ++ (q.text.toList ++ Piece.spaced ps) := rfl
      rw [tail, run]
      rfl
    · rw [List.map_cons, shapes]
      rfl

/-- **Pieces with spaces between them are read one after the other.** -/
theorem tokens_pieces (p : Piece) (ps : List Piece) :
    ∃ ts finish, tokens (Piece.join (p :: ps)) = (ts ++ [finish], none) ∧
      ts.map Token.shape = (p :: ps).map Piece.token ∧ finish.kind = .finish := by
  have characters := Piece.length_le_spaced ps
  have first : 1 ≤ p.text.toList.length := by
    obtain ⟨c, cs, hc, -⟩ := p.starts
    rw [hc]
    exact Nat.le_add_left 1 _
  have fuel : ps.length + 2 ≤ (Piece.join (p :: ps)).length + 1 := by
    rw [← String.length_toList, Piece.toList_join, List.length_append]
    omega
  have read := run_pieces ps p 0 _ (Or.inl rfl) fuel
  rwa [List.nil_append, ← Piece.toList_join] at read

end Lexer

end TypedExpr
