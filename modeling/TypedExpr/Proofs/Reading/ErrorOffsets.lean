import TypedExpr.OrderingKey
import TypedExpr.Proofs.Lexing.Literals
import TypedExpr.Proofs.Reading.Conservation

/-!
# Where errors are

The position of every error lies in the text.  It is where the lexer rejects a lexeme, or it is that
of a token that was read before; the grammar has no other positions at hand.  Only a text that is an
expression of an unexpected type is reported at its beginning.

* `Lexer.Rejects` — the lexer finds a lexeme that is no token.
* `Cursor.Locates` — where an error is, among what was read.
* `Source.Blames` — what a run on a text blames for its error.
* **`Source.blames_of_run`** — every error of the grammar has such a place.
* **`Source.error_offsets`** — and so has every error of compilation.
-/

namespace TypedExpr

open Binder

/-! ## Tokens and rejected lexemes -/

namespace Lexer

variable {text : String} {l l' : Lexer} {t : Token} {e : LexError}

/-- Behind the blanks, no token starts but the lexeme for which the error is. -/
structure Rejects (l : Lexer) (e : LexError) : Prop where
  next : l.next.1 = .error e
  offset : e.offset = l.skipBlanks.position
  lexeme : (Lexeme.scan l.skipBlanks.rest).1 = .fault e.cause

theorem rejects_of_next (failed : l.next.1 = .error e) : l.Rejects e := by
  have read := failed
  unfold Lexer.next at failed
  simp only at failed
  rcases found : Lexeme.scan l.skipBlanks.rest with ⟨lexeme, n⟩
  rw [found] at failed
  cases lexeme with
  | plain kind => cases failed
  | literal content => cases failed
  | fault cause =>
    obtain rfl := Except.error.inj failed
    exact ⟨read, rfl, congrArg Prod.fst found⟩

/-- A rejected lexeme starts in the text. -/
theorem Rejects.offset_le (rejected : l.Rejects e) (stands : StandsIn text l) :
    e.offset ≤ text.length := by
  obtain ⟨-, passes, -⟩ := stands.next
  rw [rejected.offset]
  exact passes.takes.trans passes.le

/-- A token starts in the text. -/
theorem StandsIn.offset_le (stands : StandsIn text l) (read : l.next.1 = .ok t) :
    t.offset ≤ text.length := by
  obtain ⟨-, passes, gives⟩ := stands.next
  rw [read] at gives
  have inside := passes.takes.trans passes.le
  cases gives with
  | token proper offset => exact offset ▸ inside
  | finish => exact inside

/-- Every token comes from a call in the text. -/
theorem Delivers.exists_next {ts : List Token} {fault : Option LexError} (h : Delivers l ts fault)
    (stands : StandsIn text l) (among : t ∈ ts) : ∃ l', StandsIn text l' ∧ l'.next.1 = .ok t := by
  induction h with
  | fault => cases among
  | @finish l _ u read =>
    obtain rfl := List.mem_singleton.1 among
    exact ⟨l, stands, congrArg Prod.fst read⟩
  | @token l l' u _ _ read _ _ ih =>
    rcases List.mem_cons.1 among with rfl | among
    · exact ⟨l, stands, congrArg Prod.fst read⟩
    · have after := stands.next.1
      rw [read] at after
      exact ih after among

theorem exists_next (among : t ∈ (tokens text).1) : ∃ l, StandsIn text l ∧ l.next.1 = .ok t :=
  (tokens_delivers text).1.exists_next (standsIn_ofText text) among

end Lexer

/-! ## The errors at a cursor -/

namespace Cursor

/-- An error at a cursor is at a token up to the current one, at a lexeme that the lexer rejects, or
at an integer whose number has more than 64 bits. -/
inductive Locates (k : Cursor) : CompileError → Prop
  | token {t : Token} (seen : t ∈ k.seen) (cause : ParseCause) :
    Locates k (.ofCause cause t.offset)
  | rejected {e : LexError} (more : k.current.kind ≠ .finish) (unread : k.peeked = none)
    (rejected : k.lexer.Rejects e) : Locates k (.lex e)
  | overflow {t : Token} (seen : t ∈ k.seen) (kind : t.kind = .integer)
    (large : 0x10000000000000000 ≤ Grammar.integerNumber t.text) :
    Locates k (.lex ⟨.invalidNumber t.text, t.offset⟩)

variable {text : String} {k : Cursor} {t : Token} {e : CompileError}

/-- The tokens that were read are tokens of the text. -/
theorem InText.exists_next (inside : InText text k) (seen : t ∈ k.seen) :
    ∃ l, Lexer.StandsIn text l ∧ l.next.1 = .ok t := by
  refine Lexer.exists_next ?_
  rw [← inside.all]
  rcases List.mem_append.1 seen with before | current
  · exact List.mem_append_left _ before
  · obtain rfl := List.mem_singleton.1 current
    exact List.mem_append_right _ List.mem_cons_self

/-- **An error that is explained has its place**: real numbers have values, and integers have them
if they are small enough. -/
theorem Explains.locates (h : k.Explains e) (inside : InText text k) : k.Locates e := by
  cases h with
  | token cause known =>
    obtain ⟨t, seen, rfl⟩ := known
    exact .token seen cause
  | fault more failed =>
    obtain ⟨unread, rejected, -⟩ := ahead_of_fault more failed
    exact .rejected more unread (Lexer.rejects_of_next rejected)
  | integer seen kind noValue =>
    exact .overflow seen kind (Grammar.integerValue?_eq_none.1 noValue)
  | real seen kind noValue =>
    obtain ⟨l, -, read⟩ := inside.exists_next seen
    obtain ⟨v, value⟩ := Grammar.exists_realValue (Lexer.next_isReal read kind)
    rw [value] at noValue
    cases noValue

theorem Locates.offset_le (h : k.Locates e) (inside : InText text k) : e.offset ≤ text.length := by
  cases h with
  | token seen cause =>
    obtain ⟨l, stands, read⟩ := inside.exists_next seen
    exact stands.offset_le read
  | rejected more unread rejected => exact rejected.offset_le inside.stands
  | overflow seen kind large =>
    obtain ⟨l, stands, read⟩ := inside.exists_next seen
    exact stands.offset_le read

end Cursor

/-! ## The errors of a text -/

namespace Source

section

variable {format : GuidFormat} {α β : Type} {source : Source} {b : Binder α} {w : Workspace}
  {e : CompileError}

/-- For its error, a part of the grammar blames the first lexeme of the text, which is rejected, or
a place that was reached when the text was read from token to token. -/
inductive Blames (source : Source) (b : Binder α) (w : Workspace) : CompileError → Prop
  | first {e : LexError} (rejected : (Lexer.ofText source.text).Rejects e) :
    Blames source b w (.lex e)
  | later {e : CompileError} {k : Cursor} {ks : List Cursor} {s' : Reader}
    (started : Cursor.start source.text = .ok k)
    (pulled : Pulls (source.bounded source.count) b ⟨k, w⟩ ks (.error e) s')
    (inside : s'.cursor.InText source.text) (located : s'.cursor.Locates e) : Blames source b w e

theorem Blames.offset_le (h : source.Blames b w e) : e.offset ≤ source.text.length := by
  cases h with
  | first rejected => exact rejected.offset_le (Lexer.standsIn_ofText _)
  | later started pulled inside located => exact located.offset_le inside

/-- **An error of the grammar has a place that was reached.** -/
theorem blames_of_run (h : ∀ k, Goes k b b) (failed : (source.run b w).1 = .error e) :
    source.Blames b w e := by
  cases started : Cursor.start source.text with
  | error e' =>
    rw [run_of_fault started] at failed
    obtain rfl := Except.error.inj failed
    obtain ⟨l, found⟩ := Cursor.next_of_start started
    exact .first (Lexer.rejects_of_next (congrArg Prod.fst found))
  | ok k =>
    obtain ⟨ks, s', pulled, -, -, inside, meets⟩ := exists_pulls started (h k) w
    have explained := meets.error e failed
    rw [failed] at pulled
    exact .later started pulled inside (explained.locates inside)

theorem blames_of_parse (failed : (source.parse w).1 = .error e) :
    source.Blames Grammar.whole w e :=
  blames_of_run (fun k => (Grammar.whole_takes k).mono fun _ _ _ _ => trivial) failed

theorem blames_of_parseOrdering (failed : (source.parseOrdering w).1 = .error e) :
    source.Blames Grammar.ordering w e :=
  blames_of_run (fun k => (Grammar.ordering_takes k).mono fun _ _ _ _ => trivial) failed

/-- The whole text is an expression, which is refused for its type; the position is the
beginning. -/
def Mistyped (source : Source) (w : Workspace) (expected : Ty) (refused : Expr → Prop)
    (e : CompileError) : Prop :=
  ∃ x, (source.parse w).1 = .ok x ∧ refused x ∧ e = .ofCause (.typeMismatch expected.text x.ty) 0

theorem Mistyped.offset_le {expected : Ty} {refused : Expr → Prop}
    (h : source.Mistyped w expected refused e) : e.offset ≤ source.text.length := by
  obtain ⟨x, -, -, rfl⟩ := h
  exact Nat.zero_le _

/-- A predicate fails where its text does, or it is no truth value. -/
theorem error_of_compilePredicate (failed : (source.compilePredicate w).1 = .error e) :
    (source.parse w).1 = .error e ∨ source.Mistyped w .boolean (·.ty ≠ .boolean) e := by
  unfold compilePredicate at failed
  unfold Mistyped
  generalize source.parse w = r at failed ⊢
  rcases of_bind_eq_error failed with parsing | ⟨x, parsed, failed⟩
  · exact Or.inl parsing
  · split at failed
    next => cases failed
    next other => exact Or.inr ⟨x, parsed, other, (Except.error.inj failed).symm⟩

/-- A projection fails where its text does, or it cannot be brought to the wanted type. -/
theorem error_of_compileProjection {target? : Option Ty}
    (failed : (source.compileProjection target? w).1 = .error e) :
    (source.parse w).1 = .error e ∨ ∃ t, target? = some t ∧ source.Mistyped w t
      (·.promote? (source.parse w).2.registry.schema t true = none) e := by
  unfold compileProjection at failed
  unfold Mistyped
  generalize source.parse w = r at failed ⊢
  rcases of_bind_eq_error failed with parsing | ⟨x, parsed, failed⟩
  · exact Or.inl parsing
  · cases target? with
    | none => cases failed
    | some t =>
      refine Or.inr ⟨t, rfl, x, parsed, ?_⟩
      simp only at failed
      split at failed
      next => cases failed
      next unfit => exact ⟨unfit, (Except.error.inj failed).symm⟩

theorem error_of_compileOrdering (failed : (OrderingKey.compile source w).1 = .error e) :
    (source.parseOrdering w).1 = .error e := by
  unfold OrderingKey.compile at failed
  generalize source.parseOrdering w = r at failed ⊢
  obtain ⟨result, w'⟩ := r
  cases result with
  | ok clauses => cases failed
  | error e' => exact congrArg Except.error (Except.error.inj failed)

/-- **Errors are in the text, and at what was read.**

An error of the grammar is at the start of a lexeme that the lexer rejects, at an integer of more
than 64 bits, or at a token that was read before the error.  Only the two checks of the type of a
whole text report its beginning. -/
theorem error_offsets (source : Source) (w : Workspace) :
    (∀ e, (source.parse w).1 = .error e →
      e.offset ≤ source.text.length ∧ source.Blames Grammar.whole w e) ∧
    (∀ e, (source.parseOrdering w).1 = .error e →
      e.offset ≤ source.text.length ∧ source.Blames Grammar.ordering w e) ∧
    (∀ e, (source.compilePredicate w).1 = .error e → e.offset ≤ source.text.length ∧
      (source.Blames Grammar.whole w e ∨ source.Mistyped w .boolean (·.ty ≠ .boolean) e)) ∧
    (∀ target? e, (source.compileProjection target? w).1 = .error e →
      e.offset ≤ source.text.length ∧ (source.Blames Grammar.whole w e ∨
        ∃ t, target? = some t ∧ source.Mistyped w t
          (·.promote? (source.parse w).2.registry.schema t true = none) e)) ∧
    ∀ e, (OrderingKey.compile source w).1 = .error e →
      e.offset ≤ source.text.length ∧ source.Blames Grammar.ordering w e := by
  have parse {e : CompileError} (failed : (source.parse w).1 = .error e) :
      e.offset ≤ source.text.length ∧ source.Blames Grammar.whole w e :=
    ⟨(blames_of_parse failed).offset_le, blames_of_parse failed⟩
  have ordering {e : CompileError} (failed : (source.parseOrdering w).1 = .error e) :
      e.offset ≤ source.text.length ∧ source.Blames Grammar.ordering w e :=
    ⟨(blames_of_parseOrdering failed).offset_le, blames_of_parseOrdering failed⟩
  refine ⟨fun e => parse, fun e => ordering, fun e failed => ?_, fun target? e failed => ?_,
    fun e failed => ordering (error_of_compileOrdering failed)⟩
  · rcases error_of_compilePredicate failed with parsing | mistyped
    · exact (parse parsing).imp_right Or.inl
    · exact ⟨mistyped.offset_le, Or.inr mistyped⟩
  · rcases error_of_compileProjection failed with parsing | ⟨t, given, mistyped⟩
    · exact (parse parsing).imp_right Or.inl
    · exact ⟨mistyped.offset_le, Or.inr ⟨t, given, mistyped⟩⟩

/-- A number behind a parenthesis that is not closed. -/
def openParenthesis : Source := ⟨"(1", .object, [], true⟩

/-- The closing parenthesis is expected at the end. -/
def closeMissing : CompileError := .ofCause (.unexpectedToken "')'" "end of expression") 2

/-- A number. -/
def plainNumber : Source := ⟨"1", .object, [], true⟩

/-- It is no truth value. -/
def noTruth : CompileError := .ofCause (.typeMismatch "Boolean" (.int .int32)) 0

end

/-- A missing parenthesis is reported at the end of the text, and an unexpected type at the
beginning. -/
theorem error_offsets_parenthesis :
    openParenthesis.Blames Grammar.whole .empty closeMissing ∧
    openParenthesis.Blames Grammar.ordering .empty closeMissing ∧
    closeMissing.offset ≤ openParenthesis.text.length ∧
    (plainNumber.Blames Grammar.whole .empty noTruth ∨
      plainNumber.Mistyped .empty .boolean (·.ty ≠ .boolean) noTruth) ∧
    noTruth.offset ≤ plainNumber.text.length := by
  obtain ⟨parse, ordering, -, -, keys⟩ := error_offsets openParenthesis .empty
  obtain ⟨-, -, predicate, projection, -⟩ := error_offsets plainNumber .empty
  exact ⟨(parse closeMissing rfl).2, (ordering closeMissing rfl).2, (keys closeMissing rfl).1,
    (predicate noTruth rfl).2, (projection (some .boolean) noTruth rfl).1⟩

end Source

end TypedExpr
