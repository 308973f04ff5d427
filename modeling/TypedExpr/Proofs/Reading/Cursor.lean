import TypedExpr.Proofs.Lexing.Spans

/-!
# Reading tokens on demand

The tokens of a text can be read when they are needed.  A cursor holds the current token and, after
a look at it, the token behind; all other tokens are consumed or still to be read.

* `Cursor.advance`, `Cursor.peek` — the two ways to read a token.
* `Cursor.ahead` — what the lexer would still give.
* `Cursor.upcoming`, `Cursor.all` — the tokens from the current one on, and all tokens.
* **`Cursor.Move.all`** — reading neither loses nor repeats a token.
* `k ≤ k'` — a cursor of the same tokens, further on.
-/

namespace TypedExpr

/-! ## What a lexer gives -/

namespace Lexer

/-- The tokens from the position on, up to the end or to the first failure, and that failure. -/
def remaining (l : Lexer) : List Token × Option LexError := l.run (l.rest.length + 1)

/-- Where calls come to an end, more of them are not needed. -/
theorem run_of_enough {l : Lexer} {fuel fuel' : Nat} (enough : l.rest.length < fuel)
    (enough' : l.rest.length < fuel') : l.run fuel = l.run fuel' := by
  induction fuel generalizing l fuel' with
  | zero => exact absurd enough (Nat.not_lt_zero _)
  | succ fuel ih =>
    obtain ⟨fuel', rfl⟩ := Nat.exists_eq_succ_of_ne_zero (Nat.ne_zero_of_lt enough')
    rw [run, run]
    rcases read : l.next with ⟨_ | t, l'⟩
    · rfl
    · simp only
      split
      next => rfl
      next more =>
        have fewer := length_next_lt read more
        rw [ih (Nat.lt_of_lt_of_le fewer (Nat.le_of_lt_succ enough))
          (Nat.lt_of_lt_of_le fewer (Nat.le_of_lt_succ enough'))]

theorem remaining_of_error {l l' : Lexer} {e : LexError} (read : l.next = (.error e, l')) :
    l.remaining = ([], some e) := by
  rw [remaining, run, read]

theorem remaining_of_ok {l l' : Lexer} {t : Token} (read : l.next = (.ok t, l')) :
    l.remaining =
      if t.kind = .finish then ([t], none) else (t :: l'.remaining.1, l'.remaining.2) := by
  rw [remaining, run, read]
  simp only
  split
  next => rfl
  next more =>
    rw [remaining, run_of_enough (length_next_lt read more) (Nat.lt_succ_self _)]

/-- The tokens of a text are those from its beginning on. -/
theorem tokens_eq_remaining (text : String) : tokens text = (ofText text).remaining := by
  have length : (ofText text).rest.length = text.length := String.length_toList
  rw [tokens, remaining, length]

/-- What a lexer gives behind a token: nothing more behind the end of the text. -/
def behind (t : Token) (l : Lexer) : List Token × Option LexError :=
  if t.kind = .finish then ([], none) else l.remaining

theorem remaining_of_next {l l' : Lexer} {t : Token} (read : l.next = (.ok t, l')) :
    l.remaining = (t :: (behind t l').1, (behind t l').2) := by
  rw [remaining_of_ok read, behind]
  split
  · rfl
  · rfl

end Lexer

/-! ## Cursors -/

/-- A place between the tokens of a text, which are read on demand: where the lexer stands, the
tokens that were left behind, the current token, and the token behind it if it was looked at. -/
structure Cursor where
  lexer : Lexer
  consumed : List Token
  current : Token
  peeked : Option Token
deriving DecidableEq

namespace Cursor

/-- The first token of a text. -/
def start (text : String) : Except LexError Cursor :=
  match (Lexer.ofText text).next with
  | (.ok t, l) => .ok ⟨l, [], t, none⟩
  | (.error e, _) => .error e

/-- The token behind the current one, which is read if it was not looked at before, and where the
lexer stands then. -/
def second (k : Cursor) : Except LexError (Token × Lexer) :=
  match k.peeked with
  | some t => .ok (t, k.lexer)
  | none =>
    match k.lexer.next with
    | (.ok t, l) => .ok (t, l)
    | (.error e, _) => .error e

/-- Leaves the current token behind. -/
def advance (k : Cursor) : Except LexError Cursor :=
  k.second.map fun s => ⟨s.2, k.consumed ++ [k.current], s.1, none⟩

/-- Looks at the token behind the current one. -/
def peek (k : Cursor) : Except LexError (TokenKind × Cursor) :=
  k.second.map fun s => (s.1.kind, ⟨s.2, k.consumed, k.current, some s.1⟩)

/-- The last token that was read. -/
def newest (k : Cursor) : Token := k.peeked.getD k.current

/-- What the lexer would still give, up to the end of the text or to the first failure. -/
def ahead (k : Cursor) : List Token × Option LexError := Lexer.behind k.newest k.lexer

/-- The tokens from the current one on. -/
def upcoming (k : Cursor) : List Token := k.current :: (k.peeked.toList ++ k.ahead.1)

/-- The tokens up to the current one. -/
def seen (k : Cursor) : List Token := k.consumed ++ [k.current]

/-- All tokens, consumed or not, and the failure behind them. -/
def all (k : Cursor) : List Token × Option LexError := (k.consumed ++ k.upcoming, k.ahead.2)

variable {k k' k'' : Cursor} {t : Token} {l : Lexer} {e : LexError} {text : String}

theorem length_seen (k : Cursor) : k.seen.length = k.consumed.length + 1 := List.length_append

theorem current_mem_seen (k : Cursor) : k.current ∈ k.seen :=
  List.mem_append_right _ List.mem_cons_self

/-- The token behind the current one is the first that is still to come. -/
theorem ahead_of_second (more : k.current.kind ≠ .finish) (read : k.second = .ok (t, l)) :
    k.peeked.toList ++ k.ahead.1 = t :: (Lexer.behind t l).1 ∧
      k.ahead.2 = (Lexer.behind t l).2 := by
  unfold second at read
  unfold ahead newest
  cases h : k.peeked with
  | some u =>
    rw [h] at read
    cases read
    exact ⟨rfl, rfl⟩
  | none =>
    rw [h] at read
    rcases found : k.lexer.next with ⟨e | u, l'⟩
    · rw [found] at read
      cases read
    · rw [found] at read
      cases read
      rw [Option.getD_none, Lexer.behind, if_neg more, Lexer.remaining_of_next found]
      exact ⟨rfl, rfl⟩

/-- Where no token can be read, the lexer fails, and there is nothing more to come. -/
theorem ahead_of_fault (more : k.current.kind ≠ .finish) (fault : k.second = .error e) :
    k.peeked = none ∧ k.lexer.next.1 = .error e ∧ k.ahead = ([], some e) := by
  unfold second at fault
  unfold ahead newest
  cases h : k.peeked with
  | some u =>
    rw [h] at fault
    cases fault
  | none =>
    rw [h] at fault
    rcases found : k.lexer.next with ⟨e' | u, l'⟩
    · rw [found] at fault
      cases fault
      rw [Option.getD_none, Lexer.behind, if_neg more, Lexer.remaining_of_error found]
      exact ⟨rfl, rfl, rfl⟩
    · rw [found] at fault
      cases fault

/-! ## Moves -/

theorem advance_eq_ok : k.advance = .ok k' ↔
    ∃ t l, k.second = .ok (t, l) ∧ k' = ⟨l, k.consumed ++ [k.current], t, none⟩ := by
  unfold advance
  rcases k.second with e | ⟨t, l⟩
  · simp [Except.map]
  · simp [Except.map, eq_comm]

theorem peek_eq_ok {kind : TokenKind} : k.peek = .ok (kind, k') ↔
    ∃ t l, k.second = .ok (t, l) ∧ kind = t.kind ∧
      k' = ⟨l, k.consumed, k.current, some t⟩ := by
  unfold peek
  rcases k.second with e | ⟨t, l⟩
  · simp [Except.map]
  · simp [Except.map, eq_comm]

theorem advance_eq_error : k.advance = .error e ↔ k.second = .error e := by
  unfold advance
  rcases k.second with e | ⟨t, l⟩
  · simp [Except.map]
  · simp [Except.map]

theorem peek_eq_error : k.peek = .error e ↔ k.second = .error e := by
  unfold peek
  rcases k.second with e | ⟨t, l⟩
  · simp [Except.map]
  · simp [Except.map]

/-- One way of reading a token.  The end of the text is never left behind, nor looked over. -/
inductive Move : Cursor → Cursor → Prop
  | advance {k k' : Cursor} (more : k.current.kind ≠ .finish) (moved : k.advance = .ok k') :
    Move k k'
  | peek {k k' : Cursor} {kind : TokenKind} (more : k.current.kind ≠ .finish)
    (moved : k.peek = .ok (kind, k')) : Move k k'

/-- What was to come behind the current token is to come from the next one on. -/
theorem upcoming_of_advance (more : k.current.kind ≠ .finish) (moved : k.advance = .ok k') :
    k.upcoming = k.current :: k'.upcoming ∧ k'.ahead.2 = k.ahead.2 := by
  obtain ⟨t, l, read, rfl⟩ := advance_eq_ok.1 moved
  obtain ⟨tokens, fault⟩ := ahead_of_second more read
  rw [upcoming, tokens, fault]
  exact ⟨rfl, rfl⟩

/-- A look changes nothing of what is to come. -/
theorem upcoming_of_peek {kind : TokenKind} (more : k.current.kind ≠ .finish)
    (moved : k.peek = .ok (kind, k')) : k'.upcoming = k.upcoming ∧ k'.ahead.2 = k.ahead.2 := by
  obtain ⟨t, l, read, -, rfl⟩ := peek_eq_ok.1 moved
  obtain ⟨tokens, fault⟩ := ahead_of_second more read
  rw [upcoming, upcoming, tokens, fault]
  exact ⟨rfl, rfl⟩

/-- **Reading neither loses nor repeats a token.** -/
theorem Move.all (move : Move k k') : k'.all = k.all := by
  cases move with
  | advance more moved =>
    obtain ⟨tokens, fault⟩ := upcoming_of_advance more moved
    obtain ⟨t, l, -, rfl⟩ := advance_eq_ok.1 moved
    rw [Cursor.all, Cursor.all, tokens, fault, List.append_assoc]
    rfl
  | peek more moved =>
    obtain ⟨tokens, fault⟩ := upcoming_of_peek more moved
    obtain ⟨t, l, -, -, rfl⟩ := peek_eq_ok.1 moved
    rw [Cursor.all, Cursor.all, tokens, fault]

/-! ## The order of cursors -/

/-- A cursor of the same tokens that is not further on. -/
instance : Preorder Cursor where
  le k k' := k.seen <+: k'.seen ∧ k'.all = k.all
  le_refl k := ⟨List.prefix_refl _, rfl⟩
  le_trans _ _ _ h h' := ⟨h.1.trans h'.1, h'.2.trans h.2⟩

theorem seen_subset (le : k ≤ k') : k.seen ⊆ k'.seen := le.1.subset

theorem fault_eq (le : k ≤ k') : k'.ahead.2 = k.ahead.2 := by
  show k'.all.2 = k.all.2
  rw [le.2]

theorem length_upcoming (le : k ≤ k') : k'.consumed.length + k'.upcoming.length =
    k.consumed.length + k.upcoming.length := by
  have tokens := congrArg (List.length ∘ Prod.fst) le.2
  simpa only [Function.comp_apply, Cursor.all, List.length_append] using tokens

theorem consumed_le (le : k ≤ k') : k.consumed.length ≤ k'.consumed.length := by
  have length := le.1.length_le
  rwa [length_seen, length_seen, Nat.add_le_add_iff_right] at length

theorem lt_of_consumed (le : k ≤ k') (more : k.consumed.length < k'.consumed.length) : k < k' :=
  lt_of_le_not_ge le fun back => Nat.not_lt.2 (consumed_le back) more

/-- Further on, more tokens are consumed. -/
theorem consumed_lt (lt : k < k') : k.consumed.length < k'.consumed.length := by
  -- With as many consumed tokens, each cursor would be a cursor that is not behind the other.
  refine Nat.lt_of_le_of_ne (consumed_le lt.le) fun same => lt.not_ge ?_
  have seen : k.seen = k'.seen := lt.le.1.eq_of_length (by rw [length_seen, length_seen, same])
  exact ⟨seen ▸ List.prefix_refl _, lt.le.2.symm⟩

/-- What was consumed in between starts with the token that was the current one. -/
theorem exists_consumed (lt : k < k') : ∃ ts, k'.consumed = k.consumed ++ k.current :: ts := by
  have length := consumed_lt lt
  have front : k.seen <+: k'.consumed := List.prefix_of_prefix_length_le lt.le.1
    (List.prefix_append _ _) (by rw [length_seen]; exact length)
  obtain ⟨ts, whole⟩ := front
  exact ⟨ts, by rw [← whole, seen, List.append_assoc, List.singleton_append]⟩

theorem upcoming_le (le : k ≤ k') : k'.upcoming.length ≤ k.upcoming.length := by
  have total := length_upcoming le
  have consumed := consumed_le le
  omega

theorem upcoming_lt (lt : k < k') : k'.upcoming.length < k.upcoming.length := by
  have total := length_upcoming lt.le
  have consumed := consumed_lt lt
  omega

theorem upcoming_pos (k : Cursor) : 0 < k.upcoming.length := Nat.succ_pos _

/-- A token that was left behind leads further on. -/
theorem lt_of_advance (more : k.current.kind ≠ .finish) (moved : k.advance = .ok k') : k < k' := by
  have tokens := (Move.advance more moved).all
  obtain ⟨t, l, -, rfl⟩ := advance_eq_ok.1 moved
  refine lt_of_consumed ⟨List.prefix_append _ _, tokens⟩ ?_
  rw [List.length_append]
  exact Nat.lt_succ_self _

theorem le_of_peek {kind : TokenKind} (more : k.current.kind ≠ .finish)
    (moved : k.peek = .ok (kind, k')) : k ≤ k' := by
  have tokens := (Move.peek more moved).all
  obtain ⟨t, l, -, -, rfl⟩ := peek_eq_ok.1 moved
  exact ⟨List.prefix_refl _, tokens⟩

/-! ## Cursors of a text -/

/-- The tokens, consumed or not, are those of the text, in which the lexer stands.  The token behind
the end was not looked at. -/
structure InText (text : String) (k : Cursor) : Prop where
  all : k.all = Lexer.tokens text
  stands : Lexer.StandsIn text k.lexer
  looked : ∀ t, k.peeked = some t → k.current.kind ≠ .finish

theorem standsIn_of_second (stands : Lexer.StandsIn text k.lexer) (read : k.second = .ok (t, l)) :
    Lexer.StandsIn text l := by
  unfold second at read
  cases h : k.peeked with
  | some u =>
    rw [h] at read
    cases read
    exact stands
  | none =>
    have next := stands.next.1
    rw [h] at read
    rcases found : k.lexer.next with ⟨e | u, l'⟩
    · rw [found] at read
      cases read
    · rw [found] at read next
      cases read
      exact next

theorem InText.move (inside : InText text k) (move : Move k k') : InText text k' := by
  have tokens := move.all.trans inside.all
  cases move with
  | advance more moved =>
    obtain ⟨t, l, read, rfl⟩ := advance_eq_ok.1 moved
    exact ⟨tokens, standsIn_of_second inside.stands read, fun _ none => nomatch none⟩
  | peek more moved =>
    obtain ⟨t, l, read, -, rfl⟩ := peek_eq_ok.1 moved
    exact ⟨tokens, standsIn_of_second inside.stands read, fun _ _ => more⟩

/-- At the end of the text, all tokens were read. -/
theorem InText.finished (inside : InText text k) (last : k.current.kind = .finish) :
    k.peeked = none ∧ k.ahead = ([], none) ∧ Lexer.tokens text = (k.seen, none) := by
  have unread : k.peeked = none := by
    cases h : k.peeked with
    | some t => exact absurd last (inside.looked t h)
    | none => rfl
  have nothing : k.ahead = ([], none) := by
    rw [ahead, newest, unread, Option.getD_none, Lexer.behind, if_pos last]
  refine ⟨unread, nothing, ?_⟩
  rw [← inside.all]
  simp only [Cursor.all, upcoming, seen, unread, nothing]
  rfl

/-- At the beginning, all tokens of the text are to come. -/
theorem inText_start (started : start text = .ok k) : InText text k ∧ k.consumed = [] := by
  have next := (Lexer.standsIn_ofText text).next.1
  unfold start at started
  rcases found : (Lexer.ofText text).next with ⟨e | t, l⟩
  · rw [found] at started
    cases started
  · rw [found] at started next
    cases started
    refine ⟨⟨?_, next, fun _ none => nomatch none⟩, rfl⟩
    rw [Lexer.tokens_eq_remaining, Lexer.remaining_of_next found]
    rfl

/-- There is no cursor if the lexer rejects the first lexeme. -/
theorem next_of_start (failed : start text = .error e) :
    ∃ l, (Lexer.ofText text).next = (.error e, l) := by
  unfold start at failed
  rcases found : (Lexer.ofText text).next with ⟨e' | t, l⟩
  · rw [found] at failed
    cases failed
    exact ⟨l, rfl⟩
  · rw [found] at failed
    cases failed

/-- Where the first token cannot be read, there is none. -/
theorem tokens_of_start (failed : start text = .error e) : Lexer.tokens text = ([], some e) := by
  obtain ⟨l, found⟩ := next_of_start failed
  rw [Lexer.tokens_eq_remaining, Lexer.remaining_of_error found]

end Cursor

end TypedExpr
