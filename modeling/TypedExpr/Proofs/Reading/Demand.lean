import TypedExpr.Proofs.Precedence.Offsets
import TypedExpr.Proofs.Precedence.Running
import TypedExpr.Proofs.Reading.Cursor

/-!
# The grammar on demand

The grammar works on the list of all tokens.  The same can be done with a cursor, from token to
token: `Binder.Pulls` says what a part of the grammar does there, and which cursors it goes through.

Two texts of the grammar that differ in their bounds only, in the number of repetitions and in what
is below the deepest nesting, go the same way from cursor to cursor as long as the bounds are not
less than the number of tokens to come.  For then every repetition and every nesting takes a token
of its own.

* `Binder.Pulls`, **`Binder.Pulls.sound`** — a run on demand, and the run on the list of tokens.
* `Cursor.Path` — the cursors that a run goes through.
* `Cursor.Explains` — where the errors at a cursor are.
* `Binder.Proceeds`, `Binder.Takes` — where a part of the grammar goes, whatever the bounds are.
* **`Binder.chain_proceeds`**, **`Binder.separated_takes`** — repetitions end by themselves.
-/

namespace TypedExpr

variable {format : GuidFormat}

/-! ## Runs on demand -/

/-- A cursor and the workspace. -/
structure Reader [GuidFormat] where
  cursor : Cursor
  workspace : Workspace

/-- The same with the list of tokens to come. -/
def Reader.state [GuidFormat] (s : Reader) : BindState := ⟨s.cursor.upcoming, s.workspace⟩

namespace Binder

/-- From a reader, the part of the grammar goes through some cursors, one for each token that is
left behind or looked at, and has a result. -/
inductive Pulls : {α : Type} → BindContext → Binder α → Reader → List Cursor →
    Except CompileError α → Reader → Prop
  | pure {α : Type} {c : BindContext} {s : Reader} (a : α) : Pulls c (pure a) s [] (.ok a) s
  | throw {α : Type} {c : BindContext} {s : Reader} (e : CompileError) :
    Pulls c (throw e : Binder α) s [] (.error e) s
  | bind {α β : Type} {c : BindContext} {x : Binder α} {f : α → Binder β} {s s' s'' : Reader}
    {ks ks' : List Cursor} {a : α} {r : Except CompileError β} (first : Pulls c x s ks (.ok a) s')
    (rest : Pulls c (f a) s' ks' r s'') : Pulls c (x >>= f) s (ks ++ ks') r s''
  | fails {α β : Type} {c : BindContext} {x : Binder α} {f : α → Binder β} {s s' : Reader}
    {ks : List Cursor} {e : CompileError} (first : Pulls c x s ks (.error e) s') :
    Pulls c (x >>= f) s ks (.error e) s'
  | inScope {α : Type} {c : BindContext} {x : Binder α} {s s' : Reader} {ks : List Cursor}
    {r : Except CompileError α} (t : Ty) (alias? : Option String)
    (inside : Pulls { c with scope := c.scope.push t alias? } x s ks r s') :
    Pulls c (inScope t alias? x) s ks r s'
  | read {c : BindContext} {s : Reader} : Pulls c read s [] (.ok c) s
  | current {c : BindContext} {s : Reader} : Pulls c current s [] (.ok s.cursor.current) s
  | advance {c : BindContext} {s : Reader} {k : Cursor} (more : s.cursor.current.kind ≠ .finish)
    (moved : s.cursor.advance = .ok k) :
    Pulls c advance s [k] (.ok s.cursor.current) { s with cursor := k }
  | advanceFault {c : BindContext} {s : Reader} {e : LexError}
    (more : s.cursor.current.kind ≠ .finish) (failed : s.cursor.advance = .error e) :
    Pulls c advance s [] (.error (.lex e)) s
  | peekKind {c : BindContext} {s : Reader} {k : Cursor} {kind : TokenKind}
    (more : s.cursor.current.kind ≠ .finish) (moved : s.cursor.peek = .ok (kind, k)) :
    Pulls c peekKind s [k] (.ok kind) { s with cursor := k }
  | peekFault {c : BindContext} {s : Reader} {e : LexError}
    (more : s.cursor.current.kind ≠ .finish) (failed : s.cursor.peek = .error e) :
    Pulls c peekKind s [] (.error (.lex e)) s
  | schema {c : BindContext} {s : Reader} :
    Pulls c schema s [] (.ok s.workspace.registry.schema) s
  | members {c : BindContext} {s : Reader} (t : Ty) :
    Pulls c (members t) s [] (.ok (s.workspace.members t).1)
      { s with workspace := (s.workspace.members t).2 }
  | findType? {c : BindContext} {s : Reader} (name : String) :
    Pulls c (findType? name) s []
      (.ok ((s.workspace.findType name c.scope.base.ty).1.or (Ty.predefined? name)))
      { s with workspace := (s.workspace.findType name c.scope.base.ty).2 }
  | anonymousRecord {c : BindContext} {s : Reader} (fields : List (String × Ty)) :
    Pulls c (anonymousRecord fields) s []
      (.ok ⟨.anonymous s.workspace.nextAnonymous,
        s!"AnonymousType{s.workspace.nextAnonymous}", fields, .structural, false⟩)
      { s with workspace :=
        { s.workspace with nextAnonymous := s.workspace.nextAnonymous + 1 } }

/-- A token that cannot be read on demand is the failure behind the list of tokens. -/
theorem fault_of_second {k : Cursor} {e : LexError} {c : BindContext} {w : Workspace}
    (fault : c.fault = k.ahead.2) (more : k.current.kind ≠ .finish)
    (failed : k.second = .error e) :
    Binder.advance c ⟨k.upcoming, w⟩ = (.error (.lex e), ⟨k.upcoming, w⟩) ∧
      Binder.peekKind c ⟨k.upcoming, w⟩ = (.error (.lex e), ⟨k.upcoming, w⟩) := by
  obtain ⟨unread, -, last⟩ := Cursor.ahead_of_fault more failed
  have single : k.upcoming = [k.current] := by
    rw [Cursor.upcoming, unread, last]
    rfl
  rw [last] at fault
  obtain ⟨scope, params, contextKeywords, _, tokenCount⟩ := c
  obtain rfl := fault
  rw [single]
  exact ⟨rfl, rfl⟩

/-- **What is done on demand is done on the list of tokens.** -/
theorem Pulls.sound {α : Type} {c : BindContext} {x : Binder α} {s s' : Reader}
    {ks : List Cursor} {r : Except CompileError α} (h : Pulls c x s ks r s') :
    c.fault = s.cursor.ahead.2 →
      x c s.state = (r, s'.state) ∧ s'.cursor.ahead.2 = s.cursor.ahead.2 := by
  -- What lies behind the tokens to come never changes, and is the failure that the context knows.
  induction h with
  | pure | throw | read | current | schema | members | findType? | anonymousRecord =>
    intro
    exact ⟨rfl, rfl⟩
  | bind _ _ ih ih' =>
    intro fault
    obtain ⟨first, same⟩ := ih fault
    obtain ⟨rest, same'⟩ := ih' (fault.trans same.symm)
    refine ⟨?_, same'.trans same⟩
    rw [bind_apply, first]
    exact rest
  | fails _ ih =>
    intro fault
    obtain ⟨first, same⟩ := ih fault
    exact ⟨by rw [bind_apply, first], same⟩
  | inScope t alias? _ ih => exact ih
  | advance more moved =>
    intro
    obtain ⟨tokens, same⟩ := Cursor.upcoming_of_advance more moved
    exact ⟨by rw [Reader.state, tokens]; rfl, same⟩
  | advanceFault more failed =>
    intro fault
    exact ⟨(fault_of_second fault more (Cursor.advance_eq_error.1 failed)).1, rfl⟩
  | @peekKind c s k kind more moved =>
    intro
    obtain ⟨tokens, same⟩ := Cursor.upcoming_of_peek more moved
    obtain ⟨t, l, -, rfl, rfl⟩ := Cursor.peek_eq_ok.1 moved
    refine ⟨?_, same⟩
    rw [Reader.state, Reader.state, tokens]
    rw [← tokens]
    rfl
  | peekFault more failed =>
    intro fault
    exact ⟨(fault_of_second fault more (Cursor.peek_eq_error.1 failed)).2, rfl⟩

end Binder

/-! ## The cursors of a run -/

namespace Cursor

/-- One cursor after the other, up to the last one. -/
inductive Path : Cursor → List Cursor → Cursor → Prop
  | nil {k : Cursor} : Path k [] k
  | cons {k k₁ k' : Cursor} {ks : List Cursor} (move : Move k k₁) (rest : Path k₁ ks k') :
    Path k (k₁ :: ks) k'

variable {k k' k'' : Cursor} {ks ks' : List Cursor}

theorem Path.append (h : Path k ks k') (h' : Path k' ks' k'') : Path k (ks ++ ks') k'' := by
  induction h with
  | nil => exact h'
  | cons move _ ih => exact .cons move (ih h')

/-- **All cursors on the way hold the tokens of one text.** -/
theorem Path.inText {text : String} (h : Path k ks k') (inside : InText text k) :
    (∀ q ∈ ks, InText text q) ∧ InText text k' := by
  induction h with
  | nil => exact ⟨List.forall_mem_nil _, inside⟩
  | cons move _ ih =>
    obtain ⟨others, last⟩ := ih (inside.move move)
    exact ⟨List.forall_mem_cons.2 ⟨inside.move move, others⟩, last⟩

end Cursor

theorem Binder.Pulls.path {α : Type} {c : BindContext} {x : Binder α} {s s' : Reader}
    {ks : List Cursor} {r : Except CompileError α} (h : Pulls c x s ks r s') :
    Cursor.Path s.cursor ks s'.cursor := by
  induction h with
  | pure | throw | read | current | schema | members | findType? | anonymousRecord => exact .nil
  | advanceFault | peekFault => exact .nil
  | bind _ _ ih ih' => exact ih.append ih'
  | fails _ ih => exact ih
  | inScope _ _ _ ih => exact ih
  | advance more moved => exact .cons (.advance more moved) .nil
  | peekKind more moved => exact .cons (.peek more moved) .nil

/-! ## Errors -/

namespace Cursor

/-- The position is that of a token that was read. -/
def Known (k : Cursor) (offset : Nat) : Prop := ∃ t ∈ k.seen, t.offset = offset

/-- Where an error comes from: from a token that was read, from a token that cannot be read, or
from a number that was read and has no value. -/
inductive Explains (k : Cursor) : CompileError → Prop
  | token {offset : Nat} (cause : ParseCause) (known : k.Known offset) :
    Explains k (.ofCause cause offset)
  | fault {e : LexError} (more : k.current.kind ≠ .finish) (failed : k.second = .error e) :
    Explains k (.lex e)
  | integer {t : Token} (seen : t ∈ k.seen) (kind : t.kind = .integer)
    (noValue : Grammar.integerValue? t.text = none) :
    Explains k (.lex ⟨.invalidNumber t.text, t.offset⟩)
  | real {t : Token} (seen : t ∈ k.seen) (kind : t.kind = .real)
    (noValue : Grammar.realValue? t.text = none) :
    Explains k (.lex ⟨.invalidNumber t.text, t.offset⟩)

variable {k k' : Cursor} {offset : Nat}

theorem Known.mono (known : k.Known offset) (le : k ≤ k') : k'.Known offset := by
  obtain ⟨t, seen, place⟩ := known
  exact ⟨t, seen_subset le seen, place⟩

theorem known_current (k : Cursor) : k.Known k.current.offset := ⟨_, k.current_mem_seen, rfl⟩

end Cursor

/-! ## Whatever the bounds are -/

/-- What lies behind the tokens to come is known, and no more tokens are to come than are
counted. -/
structure BindContext.Fits (c : BindContext) (k : Cursor) : Prop where
  fault : c.fault = k.ahead.2
  enough : k.upcoming.length ≤ c.tokenCount

theorem BindContext.Fits.mono {c : BindContext} {k k' : Cursor} (h : c.Fits k) (le : k ≤ k') :
    c.Fits k' :=
  ⟨h.fault.trans (Cursor.fault_eq le).symm, (Cursor.upcoming_le le).trans h.enough⟩

namespace Binder

variable {α β : Type} {k k' k₀ : Cursor}

/-- From the cursor, both parts of the grammar go the same way and have the same result, also if
the second one counts the tokens differently.  A value and the cursor behind it lie in `Q`, and an
error is explained. -/
def Proceeds [GuidFormat] (k : Cursor) (x y : Binder α) (Q : Cursor → α → Prop) : Prop :=
  ∀ (c : BindContext) (m : Nat) (w : Workspace), c.Fits k → k.upcoming.length ≤ m →
    ∃ ks r s', Pulls c x ⟨k, w⟩ ks r s' ∧ Pulls { c with tokenCount := m } y ⟨k, w⟩ ks r s' ∧
      k ≤ s'.cursor ∧ Meets r (Q s'.cursor) s'.cursor.Explains

/-- Besides, a value has taken at least one token. -/
abbrev Takes (k : Cursor) (x y : Binder α) : Prop := Proceeds k x y fun k' _ => k < k'

/-- Nothing more is said. -/
abbrev Goes (k : Cursor) (x y : Binder α) : Prop := Proceeds k x y fun _ _ => True

namespace Proceeds

variable {x y : Binder α} {Q Q' : Cursor → α → Prop} {R : Cursor → β → Prop}

theorem mono (h : Proceeds k x y Q) (weaker : ∀ k' a, k ≤ k' → Q k' a → Q' k' a) :
    Proceeds k x y Q' := by
  intro c m w fits enough
  obtain ⟨ks, r, s', run, run', le, meets⟩ := h c m w fits enough
  exact ⟨ks, r, s', run, run', le, meets.mono (fun a => weaker _ a le) fun _ => id⟩

/-- What takes a token here, takes one from an earlier cursor on. -/
theorem after (h : Takes k x y) (le : k₀ ≤ k) : Proceeds k x y fun k' _ => k₀ < k' :=
  h.mono fun _ _ _ lt => le.trans_lt lt

/-- Where a token was taken before, nothing more has to be. -/
theorem later (h : Proceeds k x y Q) (lt : k₀ < k) : Proceeds k x y fun k' _ => k₀ < k' :=
  h.mono fun _ _ le _ => lt.trans_le le

theorem pure {a : α} (h : Q k a) : Proceeds k (pure a) (pure a) Q :=
  fun _ _ w _ _ => ⟨[], .ok a, ⟨k, w⟩, .pure a, .pure a, le_refl k, meets_ok.2 h⟩

theorem bind {f g : α → Binder β} (hx : Proceeds k x y Q)
    (rest : ∀ k' a, k ≤ k' → Q k' a → Proceeds k' (f a) (g a) R) :
    Proceeds k (x >>= f) (y >>= g) R := by
  intro c m w fits enough
  obtain ⟨ks, r, ⟨k', w'⟩, run, run', le, meets⟩ := hx c m w fits enough
  cases r with
  | ok a =>
    obtain ⟨ks', r', s', more, more', le', meets'⟩ := rest k' a le (meets_ok.1 meets) c m w'
      (fits.mono le) ((Cursor.upcoming_le le).trans enough)
    exact ⟨_, r', s', run.bind more, run'.bind more', le.trans le', meets'⟩
  | error e =>
    exact ⟨ks, .error e, _, run.fails, run'.fails, le, meets_error.2 (meets_error.1 meets)⟩

theorem ite {p : Prop} {_ : Decidable p} {x' y' : Binder α} (hx : p → Proceeds k x y Q)
    (hx' : ¬ p → Proceeds k x' y' Q) :
    Proceeds k (if p then x else x') (if p then y else y') Q := by
  split
  next h => exact hx h
  next h => exact hx' h

end Proceeds

/-! ## Errors and the context -/

section Rules

variable {Q : Cursor → α → Prop} {R : Cursor → β → Prop} {offset : Nat}

theorem throw_proceeds {e : CompileError} (h : k.Explains e) :
    Proceeds k (throw e : Binder α) (throw e) Q :=
  fun _ _ w _ _ => ⟨[], .error e, ⟨k, w⟩, .throw e, .throw e, le_refl k, meets_error.2 h⟩

theorem fail_proceeds (cause : ParseCause) (known : k.Known offset) :
    Proceeds k (fail cause offset : Binder α) (fail cause offset) Q :=
  throw_proceeds (.token cause known)

/-- A rule of binding is right, or its error is at its position. -/
theorem lift_proceeds {r : Except CompileError α} (moves : Binding.Moves offset offset r r)
    (known : k.Known offset) (h : ∀ a, Q k a) : Proceeds k (liftM r) (liftM r) Q := by
  cases r with
  | ok a => exact .pure (h a)
  | error e =>
    obtain ⟨cause, rfl⟩ := moves.cause e rfl
    exact fail_proceeds cause known

theorem inScope_proceeds {x y : Binder α} (t : Ty) (alias? : Option String)
    (h : Proceeds k x y Q) : Proceeds k (inScope t alias? x) (inScope t alias? y) Q := by
  intro c m w fits enough
  obtain ⟨ks, r, s', run, run', le, meets⟩ :=
    h { c with scope := c.scope.push t alias? } m w ⟨fits.fault, fits.enough⟩ enough
  exact ⟨ks, r, s', run.inScope t alias?, .inScope t alias? run', le, meets⟩

theorem Proceeds.read_bind {f g : BindContext → Binder β}
    (rest : ∀ c m, Proceeds k (f c) (g { c with tokenCount := m }) R) :
    Proceeds k (read >>= f) (read >>= g) R := by
  intro c m w fits enough
  obtain ⟨ks, r, s', run, run', le, meets⟩ := rest c m c m w fits enough
  exact ⟨ks, r, s', .bind .read run, .bind .read run', le, meets⟩

theorem Pulls.tokenCount {c : BindContext} {s : Reader} :
    Pulls c tokenCount s [] (.ok c.tokenCount) s :=
  .bind .read (.pure c.tokenCount)

/-- Both counts are large enough. -/
theorem Proceeds.tokenCount_bind {f g : Nat → Binder β} (rest : ∀ n m, k.upcoming.length ≤ n →
      k.upcoming.length ≤ m → Proceeds k (f n) (g m) R) :
    Proceeds k (tokenCount >>= f) (tokenCount >>= g) R := by
  intro c m w fits enough
  obtain ⟨ks, r, s', run, run', le, meets⟩ :=
    rest c.tokenCount m fits.enough enough c m w fits enough
  exact ⟨ks, r, s', .bind .tokenCount run, .bind .tokenCount run', le, meets⟩

end Rules

/-! ## Tokens -/

section Tokens

variable {R : Cursor → β → Prop}

theorem Proceeds.current_bind {f g : Token → Binder β}
    (rest : Proceeds k (f k.current) (g k.current) R) :
    Proceeds k (current >>= f) (current >>= g) R := by
  intro c m w fits enough
  obtain ⟨ks, r, s', run, run', le, meets⟩ := rest c m w fits enough
  exact ⟨ks, r, s', .bind .current run, .bind .current run', le, meets⟩

theorem unexpected_proceeds (expected : String) :
    Proceeds k (unexpected expected : Binder β) (unexpected expected) R :=
  .current_bind (fail_proceeds _ k.known_current)

theorem Pulls.isKind {c : BindContext} {s : Reader} (kind : TokenKind) :
    Pulls c (isKind kind) s [] (.ok (s.cursor.current.kind == kind)) s :=
  .bind .current (.pure _)

theorem Proceeds.isKind_bind {f g : Bool → Binder β} (kind : TokenKind)
    (rest : Proceeds k (f (k.current.kind == kind)) (g (k.current.kind == kind)) R) :
    Proceeds k (isKind kind >>= f) (isKind kind >>= g) R := by
  intro c m w fits enough
  obtain ⟨ks, r, s', run, run', le, meets⟩ := rest c m w fits enough
  exact ⟨ks, r, s', .bind (.isKind kind) run, .bind (.isKind kind) run', le, meets⟩

/-- A choice by the current token. -/
theorem ifKind_proceeds {x y x' y' : Binder β} (kind : TokenKind)
    (is : k.current.kind = kind → Proceeds k x y R)
    (isNot : k.current.kind ≠ kind → Proceeds k x' y' R) :
    Proceeds k (isKind kind >>= fun b => if b then x else x')
      (isKind kind >>= fun b => if b then y else y') R :=
  .isKind_bind kind (.ite (fun h => is (eq_of_beq h)) fun h => isNot (mt beq_iff_eq.2 h))

/-- The current token, which is not the end, is left behind; what was looked at is next. -/
theorem advance_proceeds (more : k.current.kind ≠ .finish) :
    Proceeds k advance advance fun k' t => k < k' ∧ t = k.current ∧
      k'.consumed = k.consumed ++ [k.current] ∧ ∀ u, k.peeked = some u → k'.current = u := by
  intro c m w fits enough
  rcases moved : k.advance with e | k'
  · refine ⟨[], .error (.lex e), ⟨k, w⟩, .advanceFault more moved, .advanceFault more moved,
      le_refl k, meets_error.2 (.fault more (Cursor.advance_eq_error.1 moved))⟩
  · have lt := Cursor.lt_of_advance more moved
    refine ⟨[k'], .ok k.current, ⟨k', w⟩, .advance more moved, .advance more moved, lt.le,
      meets_ok.2 ⟨lt, rfl, ?_⟩⟩
    obtain ⟨t, l, read, rfl⟩ := Cursor.advance_eq_ok.1 moved
    refine ⟨rfl, fun u looked => ?_⟩
    rw [Cursor.second, looked] at read
    cases read
    rfl

theorem Proceeds.advance_bind {f g : Token → Binder β} (more : k.current.kind ≠ .finish)
    (rest : ∀ k', k < k' → Proceeds k' (f k.current) (g k.current) R) :
    Proceeds k (advance >>= f) (advance >>= g) R :=
  (advance_proceeds more).bind fun k' _ _ ⟨lt, same, _⟩ => same ▸ rest k' lt

/-- A look at the token behind the current one. -/
theorem Proceeds.peekKind_bind {f g : TokenKind → Binder β} (more : k.current.kind ≠ .finish)
    (rest : ∀ k' u, k ≤ k' → k'.current = k.current → k'.peeked = some u →
      Proceeds k' (f u.kind) (g u.kind) R) : Proceeds k (peekKind >>= f) (peekKind >>= g) R := by
  intro c m w fits enough
  rcases moved : k.peek with e | ⟨kind, k'⟩
  · exact ⟨[], .error (.lex e), ⟨k, w⟩, .fails (.peekFault more moved),
      .fails (.peekFault more moved), le_refl k,
      meets_error.2 (.fault more (Cursor.peek_eq_error.1 moved))⟩
  · have le := Cursor.le_of_peek more moved
    obtain ⟨u, l, -, rfl, rfl⟩ := Cursor.peek_eq_ok.1 moved
    obtain ⟨ks, r, s', run, run', le', meets⟩ :=
      rest _ u le rfl rfl c m w (fits.mono le) ((Cursor.upcoming_le le).trans enough)
    exact ⟨_, r, s', .bind (.peekKind more moved) run, .bind (.peekKind more moved) run',
      le.trans le', meets⟩

theorem Proceeds.expect_bind {f g : Token → Binder β} {kind : TokenKind} (proper : kind ≠ .finish)
    (rest : ∀ k', k < k' → Proceeds k' (f k.current) (g k.current) R) :
    Proceeds k (expect kind >>= f) (expect kind >>= g) R := by
  have token : Proceeds k (expect kind) (expect kind) fun k' t => k < k' ∧ t = k.current := by
    refine ifKind_proceeds kind (fun is => ?_) fun _ => unexpected_proceeds _
    refine (advance_proceeds ?_).mono fun _ _ _ ⟨lt, same, _⟩ => ⟨lt, same⟩
    rwa [is]
  exact token.bind fun k' _ _ ⟨lt, same⟩ => same ▸ rest k' lt

theorem Proceeds.expectIdentifier_bind {f g : Token → Binder β}
    (rest : ∀ k', k < k' → Proceeds k' (f k.current) (g k.current) R) :
    Proceeds k (expectIdentifier >>= f) (expectIdentifier >>= g) R :=
  .expect_bind nofun rest

/-- Behind the whole text, the current token is its end. -/
theorem Proceeds.expectEnd_bind {f g : Unit → Binder β}
    (rest : k.current.kind = .finish → Proceeds k (f ()) (g ()) R) :
    Proceeds k (expectEnd >>= f) (expectEnd >>= g) R := by
  have found : Proceeds k expectEnd expectEnd fun k' _ => k' = k ∧ k.current.kind = .finish :=
    ifKind_proceeds .finish (fun is => .pure ⟨rfl, is⟩) fun _ => unexpected_proceeds _
  refine found.bind ?_
  rintro k' _ _ ⟨rfl, is⟩
  exact rest is

end Tokens

/-! ## Steps that read no token -/

/-- The part of the grammar stays at the cursor and does not fail. -/
def Quiet [GuidFormat] (x : Binder α) : Prop := ∀ k, Proceeds k x x fun k' _ => k' = k

namespace Quiet

variable {x : Binder α} {R : Cursor → β → Prop}

theorem bind {f g : α → Binder β} (h : Quiet x) (rest : ∀ a, Proceeds k (f a) (g a) R) :
    Proceeds k (x >>= f) (x >>= g) R := by
  refine (h k).bind ?_
  rintro k' a - rfl
  exact rest a

theorem pure (a : α) : Quiet (Pure.pure a) := fun _ => .pure rfl

theorem seq {f : α → Binder β} (h : Quiet x) (rest : ∀ a, Quiet (f a)) : Quiet (x >>= f) :=
  fun k => h.bind fun a => rest a k

/-- A step that changes the workspace only. -/
theorem of_pulls (value : BindContext → Workspace → α) (after : BindContext → Workspace → Workspace)
    (same : ∀ c m w, value { c with tokenCount := m } w = value c w)
    (same' : ∀ c m w, after { c with tokenCount := m } w = after c w)
    (run : ∀ c s, Pulls c x s [] (.ok (value c s.workspace))
      { s with workspace := after c s.workspace }) : Quiet x := by
  intro k c m w _ _
  refine ⟨[], .ok (value c w), ⟨k, after c w⟩, run c ⟨k, w⟩, ?_, le_refl k, meets_ok.2 rfl⟩
  have second := run { c with tokenCount := m } ⟨k, w⟩
  rwa [same, same'] at second

end Quiet

theorem quiet_schema : Quiet schema :=
  .of_pulls (fun _ w => w.registry.schema) (fun _ w => w) (fun _ _ _ => rfl) (fun _ _ _ => rfl)
    fun _ _ => .schema

theorem quiet_scope : Quiet scope :=
  .of_pulls (fun c _ => c.scope) (fun _ w => w) (fun _ _ _ => rfl) (fun _ _ _ => rfl)
    fun c _ => .bind .read (.pure c.scope)

theorem quiet_members (t : Ty) : Quiet (members t) :=
  .of_pulls (fun _ w => (w.members t).1) (fun _ w => (w.members t).2) (fun _ _ _ => rfl)
    (fun _ _ _ => rfl) fun _ _ => .members t

theorem quiet_findType? (name : String) : Quiet (findType? name) :=
  .of_pulls (fun c w => (w.findType name c.scope.base.ty).1.or (Ty.predefined? name))
    (fun c w => (w.findType name c.scope.base.ty).2) (fun _ _ _ => rfl) (fun _ _ _ => rfl)
    fun _ _ => .findType? name

theorem quiet_anonymousRecord (fields : List (String × Ty)) : Quiet (anonymousRecord fields) :=
  .of_pulls
    (fun _ w => ⟨.anonymous w.nextAnonymous, s!"AnonymousType{w.nextAnonymous}", fields,
      .structural, false⟩)
    (fun _ w => { w with nextAnonymous := w.nextAnonymous + 1 }) (fun _ _ _ => rfl)
    (fun _ _ _ => rfl) fun _ _ => .anonymousRecord fields

theorem quiet_findMember? (t : Ty) (name : String) : Quiet (findMember? t name) :=
  (quiet_members t).seq fun _ => .pure _

theorem quiet_findMethods (t : Ty) (name : String) : Quiet (findMethods t name) :=
  (quiet_members t).seq fun _ => .pure _

/-- A rule of binding stays at the cursor. -/
theorem bound_proceeds {rule : Schema → Except CompileError α} {offset : Nat}
    {Q : Cursor → α → Prop} (moves : ∀ s, Binding.Moves offset offset (rule s) (rule s))
    (known : k.Known offset) (h : ∀ a, Q k a) : Proceeds k (bound rule) (bound rule) Q :=
  quiet_schema.bind fun s => lift_proceeds (moves s) known h

/-! ## Repetition -/

section Repetition

variable {I : Cursor → α → Prop}

/-- What a step of a chain does: it keeps an invariant, and takes a token if the chain goes on. -/
def Steps (I : Cursor → α → Prop) (k : Cursor) (a : α) (x y : Binder (Option α)) : Prop :=
  Proceeds k x y fun k' b? => (b?.isSome = true → k < k') ∧ I k' (b?.getD a)

theorem chainFrom_proceeds {step step' : α → Binder (Option α)}
    (steps : ∀ k' a, k ≤ k' → I k' a → Steps I k' a (step a) (step' a)) {k' : Cursor} {a : α}
    (le : k ≤ k') (start : I k' a) {n m : Nat} (enough : k'.upcoming.length ≤ n)
    (enough' : k'.upcoming.length ≤ m) :
    Proceeds k' (chainFrom step n a) (chainFrom step' m a) I := by
  induction n generalizing k' a m with
  | zero => exact absurd enough (Nat.not_le_of_lt k'.upcoming_pos)
  | succ n ih =>
    obtain ⟨m, rfl⟩ := Nat.exists_eq_succ_of_ne_zero
      (Nat.ne_zero_of_lt (Nat.lt_of_lt_of_le k'.upcoming_pos enough'))
    refine (steps k' a le start).bind fun k₁ b? le₁ ⟨more, kept⟩ => ?_
    cases b? with
    | some b =>
      -- The step took a token, so that both bounds are large enough for the steps that follow.
      have fewer := Cursor.upcoming_lt (more rfl)
      exact ih (le.trans le₁) kept (by omega) (by omega)
    | none => exact .pure kept

/-- **A chain whose steps take tokens ends by itself**, whatever the bounds are. -/
theorem chain_proceeds {step step' : α → Binder (Option α)} {a : α}
    (steps : ∀ k' a, k ≤ k' → I k' a → Steps I k' a (step a) (step' a)) (start : I k a) :
    Proceeds k (chain step a) (chain step' a) I :=
  .tokenCount_bind fun _ _ enough enough' =>
    chainFrom_proceeds steps (le_refl k) start enough enough'

theorem separatedFrom_takes {item item' : α → Binder α}
    (items : ∀ k' a, k ≤ k' → Takes k' (item a) (item' a)) {k' : Cursor} (a : α) (le : k ≤ k')
    {n m : Nat} (enough : k'.upcoming.length ≤ n) (enough' : k'.upcoming.length ≤ m) :
    Takes k' (separatedFrom item n a) (separatedFrom item' m a) := by
  induction n generalizing k' a m with
  | zero => exact absurd enough (Nat.not_le_of_lt k'.upcoming_pos)
  | succ n ih =>
    obtain ⟨m, rfl⟩ := Nat.exists_eq_succ_of_ne_zero
      (Nat.ne_zero_of_lt (Nat.lt_of_lt_of_le k'.upcoming_pos enough'))
    refine (items k' a le).bind fun k₁ b _ lt₁ => ?_
    refine ifKind_proceeds _ (fun comma => ?_) fun _ => .pure lt₁
    refine .advance_bind (by rw [comma]; nofun) fun k₂ lt₂ => ?_
    have fewer := Cursor.upcoming_lt (lt₁.trans lt₂)
    exact (ih b (le.trans (lt₁.trans lt₂).le) (by omega) (by omega)).after (lt₁.trans lt₂).le

/-- **Items that take tokens come to an end by themselves**, whatever the bounds are. -/
theorem separated_takes {item item' : α → Binder α}
    (items : ∀ k' a, k ≤ k' → Takes k' (item a) (item' a)) (a : α) :
    Takes k (separated item a) (separated item' a) :=
  .tokenCount_bind fun _ _ enough enough' =>
    separatedFrom_takes items a (le_refl k) enough enough'

/-- Steps for the entries of a list, which stay at the cursor. -/
theorem foldlM_proceeds {step : β → α → Binder β} {as : List α} {Q : Cursor → β → Prop}
    (steps : ∀ b, ∀ a ∈ as, Proceeds k (step b a) (step b a) fun k' _ => k' = k)
    (h : ∀ b, Q k b) (b : β) : Proceeds k (as.foldlM step b) (as.foldlM step b) Q := by
  induction as generalizing b with
  | nil => exact .pure (h b)
  | cons a as ih =>
    rw [List.foldlM_cons]
    refine (steps b a List.mem_cons_self).bind ?_
    rintro k' b' - rfl
    exact ih (fun b a among => steps b a (List.mem_cons_of_mem _ among)) b'

end Repetition

end Binder

end TypedExpr
