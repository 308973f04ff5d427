import TypedExpr.Proofs.Precedence.Parsing
import TypedExpr.Proofs.Reading.Grammar

/-!
# No token is lost or repeated

The grammar reads a text from token to token.  At every moment the tokens that were consumed, the
current one, the one that was looked at and those that the lexer would still give are the tokens of
the text.  Every rule and every repetition of the grammar takes a token, so that the number of
tokens bounds them; and what gives a result was read to its end.

* `Cursor.Conserves` — the tokens of a text at one moment.
* `Grammar.Routine`, `Grammar.Iteration` — the rules, and the single rounds of all repetitions.
* `Source.ReadsOnDemand`, `Source.Spends` — what a whole run does, and a single rule.
* `Source.within` — the same with other bounds.
* **`Source.parse_conserves`** — all of it, for every text.
-/

namespace TypedExpr

open Binder

/-! ## Single moments -/

namespace Cursor

/-- What was consumed, the current token, the one that was looked at, and what the lexer would still
give are all tokens of the text, and the failure behind them. -/
structure Conserves (text : String) (k : Cursor) : Prop where
  tokens : k.consumed ++ k.current :: (k.peeked.toList ++ k.ahead.1) = (Lexer.tokens text).1
  fault : k.ahead.2 = (Lexer.tokens text).2

/-- The current token is the end of the text, and nothing is left to read. -/
structure Finished (text : String) (k : Cursor) : Prop where
  last : k.current.kind = .finish
  unread : k.peeked = none ∧ k.ahead = ([], none)
  consumed : Lexer.tokens text = (k.consumed ++ [k.current], none)

variable {text : String} {k : Cursor}

theorem InText.conserves (inside : InText text k) : k.Conserves text :=
  ⟨congrArg Prod.fst inside.all, by rw [← inside.all]; rfl⟩

theorem InText.of_finish (inside : InText text k) (last : k.current.kind = .finish) :
    k.Finished text := by
  obtain ⟨unread, nothing, consumed⟩ := inside.finished last
  exact ⟨last, ⟨unread, nothing⟩, consumed⟩

end Cursor

/-! ## Rules and repetitions -/

namespace Grammar

variable {format : GuidFormat}

/-- The rules of the grammar, and where they are entered: the rules for numbers and names at such a
token, and the others anywhere, with the position of a token that was read before. -/
inductive Routine : {α : Type} → (Cursor → Prop) → Binder α → Prop
  | whole : Routine (fun _ => True) whole
  | ordering : Routine (fun _ => True) ordering
  | expression : Routine (fun _ => True) anyExpression
  | conditional : Routine (fun _ => True) (conditional anyExpression)
  | disjunction : Routine (fun _ => True) (disjunction anyExpression)
  | conjunction : Routine (fun _ => True) (conjunction anyExpression)
  | equality : Routine (fun _ => True) (equality anyExpression)
  | membership (item : Expr) (offset : Nat) :
    Routine (·.Known offset) (membership anyExpression item offset)
  | relational : Routine (fun _ => True) (relational anyExpression)
  | additive : Routine (fun _ => True) (additive anyExpression)
  | multiplicative : Routine (fun _ => True) (multiplicative anyExpression)
  | unary : Routine (fun _ => True) (unary anyExpression)
  | primary : Routine (fun _ => True) (primary anyExpression)
  | primaryStart : Routine (fun _ => True) (primaryStart anyExpression)
  | integer : Routine (·.current.kind = .integer) (numberLiteral integerValue?)
  | real : Routine (·.current.kind = .real) (numberLiteral realValue?)
  | identifier : Routine (·.current.kind = .identifier) (identifier anyExpression)
  | typeAccess (ty : Ty) (name : String) (offset : Nat) :
    Routine (·.Known offset) (typeAccess anyExpression ty name offset)
  | memberOrCall (target : Expr) : Routine (fun _ => True) (memberOrCall anyExpression target)
  | methodCall (target : Expr) (name : String) (offset : Nat) :
    Routine (·.Known offset) (methodCall anyExpression target name offset)
  | sequenceCall (target : Expr) (item : Ty) (m : SequenceMethod) (offset : Nat) :
    Routine (·.Known offset) (sequenceCall anyExpression target item m offset)
  | lambdaBody (item : Ty) : Routine (fun _ => True) (lambdaBody anyExpression item)
  | choice (offset : Nat) : Routine (·.Known offset) (choice anyExpression offset)
  | projection : Routine (fun _ => True) (projection anyExpression)
  | indexer (target : Expr) : Routine (fun _ => True) (indexer anyExpression target)
  | argumentList : Routine (fun _ => True) (argumentList anyExpression)

/-- The rounds of the repetitions of the grammar, and for which of their values there was one. -/
inductive Iteration : {α : Type} → (Cursor → Prop) → Binder α → (α → Prop) → Prop
  | sign (signs : List (UnaryOp × Nat)) :
    Iteration (KnownSigns · signs) (signStep signs) (·.isSome = true)
  | suffix (e : Expr) :
    Iteration (fun _ => True) (suffixStep anyExpression e) (·.isSome = true)
  | product (left : Expr) : Iteration (fun _ => True)
    (binaryStep multiplicativeOp? (unary anyExpression) left) (·.isSome = true)
  | sum (left : Expr) : Iteration (fun _ => True)
    (binaryStep additiveOp? (multiplicative anyExpression) left) (·.isSome = true)
  | relation (left : Expr) : Iteration (fun _ => True)
    (binaryStep relationalOp? (additive anyExpression) left) (·.isSome = true)
  | equality (left : Expr) :
    Iteration (fun _ => True) (equalityStep anyExpression left) (·.isSome = true)
  | conjunct (left : Expr) : Iteration (fun _ => True)
    (binaryStep andOp? (Grammar.equality anyExpression) left) (·.isSome = true)
  | disjunct (left : Expr) : Iteration (fun _ => True)
    (binaryStep orOp? (conjunction anyExpression) left) (·.isSome = true)
  | listItem (es : List Expr) :
    Iteration (fun _ => True) (do return (← anyExpression) :: es) fun _ => True
  | field (fields : List (String × Expr)) :
    Iteration (fun _ => True) (projectionField anyExpression fields) fun _ => True
  | clause (clauses : List (Expr × Bool)) :
    Iteration (fun _ => True) (orderingClause clauses) fun _ => True

variable {α : Type} {k : Cursor} {entry : Cursor → Prop} {b : Binder α} {counts : α → Prop}

/-- Expressions take a token wherever they are read. -/
theorem anyExpression_reads [GuidFormat] (k : Cursor) : Reads k anyExpression anyExpression := by
  intro k' _
  rw [anyExpression_eq]
  exact anyExpressionOr_takes _ _

theorem anyExpression_supplies [GuidFormat] (k : Cursor) : Supplies k anyExpression anyExpression :=
  fun k' lt => anyExpression_reads k k' lt.le

/-- **The whole text is read up to its end.** -/
theorem whole_takes (k : Cursor) :
    Proceeds k whole whole fun k' _ => k < k' ∧ k'.current.kind = .finish :=
  wholeOf_takes (anyExpression_reads k k (le_refl k))

theorem ordering_takes (k : Cursor) :
    Proceeds k ordering ordering fun k' _ => k < k' ∧ k'.current.kind = .finish :=
  orderingOf_takes (anyExpression_reads k)

/-- Every rule takes a token. -/
theorem Routine.takes (h : Routine entry b) (entered : entry k) : Takes k b b := by
  have reads := anyExpression_reads k
  have inside := anyExpression_supplies k
  cases h with
  | whole => exact (whole_takes k).mono fun _ _ _ all => all.1
  | ordering => exact (ordering_takes k).mono fun _ _ _ all => all.1
  | expression => exact reads k (le_refl k)
  | conditional => exact conditional_takes inside
  | disjunction => exact disjunction_takes inside
  | conjunction => exact conjunction_takes inside
  | equality => exact equality_takes inside
  | membership item offset => exact membership_takes inside item entered
  | relational => exact relational_takes inside
  | additive => exact additive_takes inside
  | multiplicative => exact multiplicative_takes inside
  | unary => exact unary_takes inside
  | primary => exact primary_takes inside
  | primaryStart => exact primaryStart_takes inside
  | integer => exact integerLiteral_takes entered
  | real => exact realLiteral_takes entered
  | identifier => exact identifier_takes inside (by rw [entered]; nofun)
  | typeAccess ty name offset => exact typeAccess_takes inside ty name entered
  | memberOrCall target => exact memberOrCall_takes inside target
  | methodCall target name offset => exact methodCall_takes inside target name entered
  | sequenceCall target item m offset => exact sequenceCall_takes inside target item m entered
  | lambdaBody item => exact lambdaBody_takes reads item
  | choice offset => exact choice_takes inside entered
  | projection => exact projection_takes inside
  | indexer target => exact indexer_takes inside target
  | argumentList => exact argumentList_takes inside

/-- Every round of a repetition takes a token. -/
theorem Iteration.proceeds (h : Iteration entry b counts) (entered : entry k) :
    Proceeds k b b fun k' a => counts a → k < k' := by
  have reads := anyExpression_reads k
  have inside := anyExpression_supplies k
  have step {α : Type} {I : Cursor → α → Prop} {a : α} {x : Binder (Option α)}
      (steps : Steps I k a x x) : Proceeds k x x fun k' b? => b?.isSome = true → k < k' :=
    steps.mono fun _ _ _ => And.left
  cases h with
  | sign signs => exact step (signStep_steps entered)
  | suffix e => exact step (suffixStep_steps inside e)
  | product left =>
    exact step (binaryStep_steps rfl (fun _ le => unary_takes (inside.mono le)) left)
  | sum left =>
    exact step (binaryStep_steps rfl (fun _ le => multiplicative_takes (inside.mono le)) left)
  | relation left =>
    exact step (binaryStep_steps rfl (fun _ le => additive_takes (inside.mono le)) left)
  | equality left => exact step (equalityStep_steps inside left)
  | conjunct left =>
    exact step (binaryStep_steps rfl (fun _ le => equality_takes (inside.mono le)) left)
  | disjunct left =>
    exact step (binaryStep_steps rfl (fun _ le => conjunction_takes (inside.mono le)) left)
  | listItem es => exact (listItem_takes reads es).mono fun _ _ _ lt _ => lt
  | field fields => exact (projectionField_takes reads fields).mono fun _ _ _ lt _ => lt
  | clause clauses =>
    exact (orderingClauseOf_takes (reads k (le_refl k)) clauses).mono fun _ _ _ lt _ => lt

end Grammar

/-! ## Whole texts -/

namespace Source

section

variable {format : GuidFormat} {α : Type} {source : Source} {k : Cursor} {w : Workspace}

/-- What stays the same while the text is read, with a number that bounds repetitions and
nesting. -/
def bounded (source : Source) (bound : Nat) : BindContext :=
  { source.context bound with fault := (Lexer.tokens source.text).2 }

/-- What a part of the grammar makes of the tokens of the text, within other bounds. -/
def within (source : Source) (bound : Nat) (b : Binder α) (w : Workspace) :
    Except CompileError α × Workspace :=
  let (result, s) := b (source.bounded bound) ⟨(Lexer.tokens source.text).1, w⟩
  (result, s.workspace)

/-- The number of tokens of the text. -/
def count (source : Source) : Nat := (Lexer.tokens source.text).1.length

/-- A part of the grammar reads the text on demand: from token to token, where no token is lost or
repeated, and to its end if there is a result. -/
def ReadsOnDemand (source : Source) (b : Binder α) (k : Cursor) (w : Workspace) : Prop :=
  ∃ ks s', Pulls (source.bounded source.count) b ⟨k, w⟩ ks (source.run b w).1 s' ∧
    s'.workspace = (source.run b w).2 ∧ (∀ q ∈ k :: ks, q.Conserves source.text) ∧
    ∀ a, (source.run b w).1 = .ok a → s'.cursor.Finished source.text

/-- From a cursor, a part of the grammar reads on demand, and a value that counts has consumed the
current token, and perhaps more of them. -/
def Spends (source : Source) (b : Binder α) (k : Cursor) (counts : α → Prop) : Prop :=
  ∀ w, ∃ ks r s', Pulls (source.bounded source.count) b ⟨k, w⟩ ks r s' ∧
    b (source.bounded source.count) ⟨k.upcoming, w⟩ = (r, s'.state) ∧
    (∀ q ∈ ks, q.Conserves source.text) ∧
    ∀ a, r = .ok a → counts a → ∃ ts, s'.cursor.consumed = k.consumed ++ k.current :: ts

theorem upcoming_of_start (started : Cursor.start source.text = .ok k) :
    k.upcoming = (Lexer.tokens source.text).1 ∧ k.ahead.2 = (Lexer.tokens source.text).2 := by
  obtain ⟨inside, fresh⟩ := Cursor.inText_start started
  have tokens := inside.conserves.tokens
  rw [fresh] at tokens
  exact ⟨tokens, inside.conserves.fault⟩

/-- A text whose first token cannot be read is not looked at. -/
theorem run_of_fault {e : LexError} (failed : Cursor.start source.text = .error e)
    (b : Binder α) (w : Workspace) : source.run b w = (.error (.lex e), w) := by
  rw [run, Cursor.tokens_of_start failed]

/-- A text is read within the number of its tokens. -/
theorem run_eq_within (started : Cursor.start source.text = .ok k) (b : Binder α)
    (w : Workspace) : source.run b w = source.within source.count b w := by
  obtain ⟨tokens, -⟩ := upcoming_of_start started
  unfold run within bounded count
  rcases read : Lexer.tokens source.text with ⟨_ | ⟨t, ts⟩, fault⟩
  · rw [read] at tokens
    cases tokens
  · rfl

theorem fits (inside : k.InText source.text) {bound : Nat} (enough : source.count ≤ bound) :
    (source.bounded bound).Fits k := by
  have conserves := inside.conserves
  refine ⟨conserves.fault.symm, le_trans ?_ enough⟩
  rw [count, ← conserves.tokens, List.length_append]
  exact Nat.le_add_left _ _

variable {b b' : Binder α} {Q : Cursor → α → Prop}

/-- What goes from token to token is the run on the text, and stays in the text. -/
theorem exists_pulls (started : Cursor.start source.text = .ok k) (h : Proceeds k b b' Q)
    (w : Workspace) : ∃ ks s',
      Pulls (source.bounded source.count) b ⟨k, w⟩ ks (source.run b w).1 s' ∧
      s'.workspace = (source.run b w).2 ∧ (∀ q ∈ k :: ks, q.InText source.text) ∧
      s'.cursor.InText source.text ∧
      Meets (source.run b w).1 (Q s'.cursor) s'.cursor.Explains := by
  obtain ⟨inside, -⟩ := Cursor.inText_start started
  have fits := fits inside (le_refl source.count)
  obtain ⟨ks, r, s', run, -, -, meets⟩ := h _ _ w fits fits.enough
  obtain ⟨others, last⟩ := run.path.inText inside
  have same := (run.sound fits.fault).1
  have result : source.run b w = (r, s'.workspace) := by
    rw [run_eq_within started, within, ← (upcoming_of_start started).1]
    exact congrArg (fun p => (p.1, p.2.workspace)) same
  rw [result]
  exact ⟨ks, s', run, rfl, List.forall_mem_cons.2 ⟨inside, others⟩, last, meets⟩

/-- **What goes from token to token reads the text on demand.** -/
theorem readsOnDemand (started : Cursor.start source.text = .ok k)
    (h : Proceeds k b b' fun k' _ => k < k' ∧ k'.current.kind = .finish) :
    source.ReadsOnDemand b k w := by
  obtain ⟨ks, s', run, workspace, inside, last, meets⟩ := exists_pulls started h w
  exact ⟨ks, s', run, workspace, fun q among => (inside q among).conserves,
    fun a ok => last.of_finish (meets.ok a ok).2⟩

theorem spends (inside : k.InText source.text) {counts : α → Prop}
    (h : Proceeds k b b' fun k' a => counts a → k < k') : source.Spends b k counts := by
  intro w
  have fits := fits inside (le_refl source.count)
  obtain ⟨ks, r, s', run, -, -, meets⟩ := h _ _ w fits fits.enough
  obtain ⟨others, -⟩ := run.path.inText inside
  exact ⟨ks, r, s', run, (run.sound fits.fault).1, fun q among => (others q among).conserves,
    fun a ok counted => Cursor.exists_consumed (meets.ok a ok counted)⟩

/-- **Where the grammar goes, bounds do not matter.** -/
theorem within_eq_run (started : Cursor.start source.text = .ok k) (h : Proceeds k b b' Q)
    {bound : Nat} (enough : source.count ≤ bound) :
    source.within bound b' w = source.run b w := by
  obtain ⟨inside, -⟩ := Cursor.inText_start started
  have fits' := fits inside (le_refl source.count)
  have other := fits inside enough
  obtain ⟨ks, r, s', run, run', -, -⟩ := h _ bound w fits' other.enough
  rw [run_eq_within started, within, within, ← (upcoming_of_start started).1]
  have first := (run.sound fits'.fault).1
  have second := (run'.sound other.fault).1
  exact congrArg (fun p => (p.1, p.2.workspace)) (second.trans first.symm)

/-- **The grammar neither loses nor repeats a token**, on any text.

If the first token can be read, the whole text is read on demand, every rule and every round of a
repetition consumes a token before it gives a value, and any bounds that are not less than the
number of tokens give the same result, whatever is read below the deepest nesting. -/
theorem parse_conserves (source : Source) (w : Workspace) :
    (∀ e, Cursor.start source.text = .error e → Lexer.tokens source.text = ([], some e) ∧
      source.parse w = (.error (.lex e), w) ∧ source.parseOrdering w = (.error (.lex e), w)) ∧
    ∀ k, Cursor.start source.text = .ok k →
      source.ReadsOnDemand Grammar.whole k w ∧ source.ReadsOnDemand Grammar.ordering k w ∧
      (∀ {α : Type} {entry} {b : Binder α}, Grammar.Routine entry b →
        ∀ q, q.InText source.text → entry q → source.Spends b q fun _ => True) ∧
      (∀ {α : Type} {entry} {b : Binder α} {counts}, Grammar.Iteration entry b counts →
        ∀ q, q.InText source.text → entry q → source.Spends b q counts) ∧
      ∀ bound, source.count ≤ bound → ∀ last,
        source.within bound (Grammar.wholeOf (Grammar.anyExpressionOr last)) w = source.parse w ∧
        source.within bound (Grammar.orderingOf (Grammar.anyExpressionOr last)) w =
          source.parseOrdering w := by
  refine ⟨fun e failed => ?_, fun k started => ?_⟩
  · exact ⟨Cursor.tokens_of_start failed, run_of_fault failed _ w, run_of_fault failed _ w⟩
  -- The second part of the grammar has any ending, and is only run within the other bounds.
  have reads (last : Binder Expr) (k' : Cursor) :
      Takes k' Grammar.anyExpression (Grammar.anyExpressionOr last) := by
    rw [Grammar.anyExpression_eq]
    exact Grammar.anyExpressionOr_takes _ _
  have whole (last : Binder Expr) := Grammar.wholeOf_takes (reads last k)
  have ordering (last : Binder Expr) :=
    Grammar.orderingOf_takes fun k' (_ : k ≤ k') => reads last k'
  refine ⟨readsOnDemand started (Grammar.whole_takes k),
    readsOnDemand started (Grammar.ordering_takes k), ?_, ?_, ?_⟩
  · intro α entry b routine q inside entered
    exact spends inside ((routine.takes entered).mono fun _ _ _ lt _ => lt)
  · intro α entry b counts round q inside entered
    exact spends inside (round.proceeds entered)
  · intro bound enough last
    exact ⟨within_eq_run started (whole last) enough, within_eq_run started (ordering last) enough⟩

/-- A number in parentheses. -/
def parenthesizedNumber : Source := ⟨"(1)", .object, [], true⟩

/-- The cursor at its opening parenthesis. -/
def atParenthesis : Cursor := ⟨⟨1, ['1', ')']⟩, [], ⟨.symbol .leftParen, "(", 0⟩, none⟩

end

/-- A primary and a candidate consume the parenthesis, and with a nesting of a thousand levels there
is no other result. -/
theorem parse_conserves_parenthesized :
    parenthesizedNumber.ReadsOnDemand Grammar.whole atParenthesis .empty ∧
    parenthesizedNumber.Spends (Grammar.primary Grammar.anyExpression) atParenthesis
      (fun _ => True) ∧
    parenthesizedNumber.Spends (do return (← Grammar.anyExpression) :: []) atParenthesis
      (fun _ => True) ∧
    parenthesizedNumber.within 1000
      (Grammar.wholeOf (Grammar.anyExpressionOr (unexpected "nothing"))) .empty =
        parenthesizedNumber.parse .empty := by
  have started : Cursor.start parenthesizedNumber.text = .ok atParenthesis := by decide +kernel
  obtain ⟨whole, -, routines, rounds, bounds⟩ :=
    (parse_conserves parenthesizedNumber .empty).2 atParenthesis started
  have inside := (Cursor.inText_start started).1
  exact ⟨whole, routines .primary _ inside trivial, rounds (.listItem []) _ inside trivial,
    (bounds 1000 (by decide +kernel) _).1⟩

end Source

end TypedExpr
