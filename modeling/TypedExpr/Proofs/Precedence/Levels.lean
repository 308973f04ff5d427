import TypedExpr.Proofs.Precedence.Atoms
import TypedExpr.Proofs.Precedence.Offsets

/-!
# Levels of the grammar

The levels of the grammar by number, and how each reads the pieces of an operand whose own level is
known.

* `Grammar.level`, `Grammar.levelStep` — the rule of a level, and one more operator of it.
* `Follows`, `Ends` — what may stand behind the operand of a level.
* `Reads`, `Spans`, `Signed` — a rule reads pieces; it reads them and is ready for one more
  operator; it reads them behind signs.
* **`Reads.descend`** — what a level reads, the looser levels read.
* `Spans.binary`, `Signed.unary`, `reads_conditional`, `reads_parenthesized` — one more operator.
-/

namespace TypedExpr

variable {format : GuidFormat}

/-! ## Rules by number -/

namespace Grammar

open Binder

/-- The rule of a level, from the conditional up to the primaries. -/
def level (inner : Binder Expr) : Nat → Binder Expr
  | 0 => conditional inner
  | 1 => disjunction inner
  | 2 => conjunction inner
  | 3 => equality inner
  | 4 => relational inner
  | 5 => additive inner
  | 6 => multiplicative inner
  | 7 => unary inner
  | _ => primary inner

/-- The binary operators of a level. -/
def levelOp? : Nat → TokenKind → Option BinaryOp
  | 1 => orOp?
  | 2 => andOp?
  | 3 => equalityOp?
  | 4 => relationalOp?
  | 5 => additiveOp?
  | 6 => multiplicativeOp?
  | _ => fun _ => none

/-- One more operator of a level. -/
def levelStep (inner : Binder Expr) (n : Nat) (left : Expr) : Binder (Option Expr) :=
  if n = 3 then equalityStep inner left
  else binaryStep (levelOp? n) (level inner (n + 1)) left

/-- A level of binary operators reads an operand of the next level, and operators behind it. -/
theorem level_eq {n : Nat} (inner : Binder Expr) (h₁ : 1 ≤ n) (h₆ : n ≤ 6) :
    level inner n = (do
      let left ← level inner (n + 1)
      chain (levelStep inner n) left) := by
  match n with
  | 1 | 2 | 3 | 4 | 5 | 6 => rfl

end Grammar

namespace BinaryOp

theorem level_bounds (op : BinaryOp) : 1 ≤ op.level ∧ op.level ≤ 6 := by
  cases op with
  | concat => decide
  | _ op => cases op <;> decide

/-- No operator is written like a bracket or a dot. -/
theorem sign_ne (op : BinaryOp) :
    op.sign ≠ .leftParen ∧ op.sign ≠ .leftBracket ∧ op.sign ≠ .dot ∧ op.sign ≠ .question := by
  cases op with
  | concat => decide
  | _ op => cases op <;> decide

/-- The operator that a sign is read as at its level.  Joining texts is written as a sum. -/
theorem levelOp?_sign (op : BinaryOp) :
    ∃ op', Grammar.levelOp? op.level (.symbol op.sign) = some op' ∧ ∀ s l r o,
      Binding.binary s op' l r o = Binding.binary s op l r o := by
  cases op with
  | concat => exact ⟨_, rfl, fun _ _ _ _ => rfl⟩
  | _ op => cases op <;> exact ⟨_, rfl, fun _ _ _ _ => rfl⟩

/-- A looser operator is none of a tighter level. -/
theorem levelOp?_sign_of_lt (op : BinaryOp) {n : Nat} (h : op.level < n) :
    Grammar.levelOp? n (.symbol op.sign) = none := by
  match n with
  | 0 => cases h
  | 1 | 2 | 3 | 4 | 5 | 6 =>
    cases op with
    | concat => revert h; decide
    | _ op => cases op <;> revert h <;> decide
  | _ + 7 => rfl

end BinaryOp

/-! ## What follows an operand -/

/-- The kind of a token that may stand behind an operand of a level: a looser binary operator, the
sign of a conditional, or the end of what the operand is in. -/
inductive Follows (n : Nat) : TokenKind → Prop
  | finish : Follows n .finish
  | rightParen : Follows n (.symbol .rightParen)
  | colon : Follows n (.symbol .colon)
  | question (h : 1 ≤ n) : Follows n (.symbol .question)
  | operator (op : BinaryOp) (h : op.level < n) : Follows n (.symbol op.sign)

namespace Follows

variable {n m : Nat} {k : TokenKind}

theorem mono (h : Follows n k) (le : n ≤ m) : Follows m k := by
  cases h with
  | finish => exact .finish
  | rightParen => exact .rightParen
  | colon => exact .colon
  | question h => exact .question (Nat.le_trans h le)
  | operator op h => exact .operator op (Nat.lt_of_lt_of_le h le)

/-- What follows an operand starts no call, no index and no member, and is no membership. -/
theorem ne (h : Follows n k) : k ≠ .symbol .leftParen ∧ k ≠ .symbol .leftBracket ∧
    k ≠ .symbol .dot ∧ k ≠ .keyword .isIn := by
  cases h with
  | operator op =>
    have hne := op.sign_ne
    simp [hne]
  | _ => simp

theorem ne_question (h : Follows 0 k) : k ≠ .symbol .question := by
  cases h with
  | question h => cases h
  | operator op h => cases h
  | _ => simp

/-- What follows an operand of a level is no operator of the level. -/
theorem levelOp?_eq (h : Follows n k) : Grammar.levelOp? n k = none := by
  cases h with
  | operator op h => exact op.levelOp?_sign_of_lt h
  | _ =>
    match n with
    | 0 | 1 | 2 | 3 | 4 | 5 | 6 => rfl
    | _ + 7 => rfl

end Follows

/-- At the kind of token, nothing of the level goes on. -/
structure Passes (l : Nat) (k : TokenKind) : Prop where
  op : Grammar.levelOp? l k = none
  isIn : l = 3 → k ≠ .keyword .isIn
  question : l = 0 → k ≠ .symbol .question

instance (l : Nat) (k : TokenKind) : Decidable (Passes l k) :=
  decidable_of_iff (Grammar.levelOp? l k = none ∧ (l = 3 → k ≠ .keyword .isIn) ∧
    (l = 0 → k ≠ .symbol .question)) ⟨fun h => ⟨h.1, h.2.1, h.2.2⟩, fun h => ⟨h.1, h.2, h.3⟩⟩

/-- At the kind of token, nothing of the level or of a tighter one goes on. -/
structure Ends (n : Nat) (k : TokenKind) : Prop where
  dot : k ≠ .symbol .dot
  leftBracket : k ≠ .symbol .leftBracket
  passes (l : Nat) : n ≤ l → Passes l k

theorem Ends.mono {n m : Nat} {k : TokenKind} (h : Ends n k) (le : n ≤ m) : Ends m k where
  dot := h.dot
  leftBracket := h.leftBracket
  passes l hl := h.passes l (Nat.le_trans le hl)

/-- There are no operators but those of the first levels. -/
theorem passes_of_le {l : Nat} (h : 7 ≤ l) (k : TokenKind) : Passes l k := by
  obtain ⟨i, rfl⟩ := Nat.exists_eq_add_of_le' h
  exact ⟨rfl, by omega, by omega⟩

/-- Only finitely many levels have to be looked at. -/
instance (n : Nat) (k : TokenKind) : Decidable (Ends n k) :=
  decidable_of_iff (k ≠ .symbol .dot ∧ k ≠ .symbol .leftBracket ∧ ∀ l < 7, n ≤ l → Passes l k)
    ⟨fun h => ⟨h.1, h.2.1, fun l hl => (Nat.lt_or_ge l 7).elim (fun small => h.2.2 l small hl)
      fun large => passes_of_le large k⟩, fun h => ⟨h.1, h.2, fun l _ => h.3 l⟩⟩

theorem Follows.ends {n : Nat} {k : TokenKind} (h : Follows n k) : Ends n k where
  dot := h.ne.2.2.1
  leftBracket := h.ne.2.1
  passes l hl := by
    refine ⟨(h.mono hl).levelOp?_eq, fun _ => h.ne.2.2.2, ?_⟩
    rintro rfl
    obtain rfl := Nat.le_zero.1 hl
    exact h.ne_question

/-! ## Reading operands -/

open Binder Grammar

/-- Whatever follows an operand of the level, the rule reads the pieces, gives the expression, and
leaves what follows behind. -/
def Reads (c : BindContext) (s : Schema) (x : Binder Expr) (n : Nat) (ps : List Piece) (e : Expr) :
    Prop :=
  ∀ ts next rest w, ts.map Token.shape = ps.map Piece.token → Follows n next.kind →
    w.registry.schema = s →
    ∃ w', w'.registry.schema = s ∧ Runs c x ⟨ts ++ next :: rest, w⟩ e ⟨next :: rest, w'⟩

/-- The rule of the level reads the pieces and is at the expression then, ready for one more
operator of the level.  It has taken at most one step for each piece. -/
def Spans (c : BindContext) (s : Schema) (inner : Binder Expr) (n : Nat) (ps : List Piece)
    (e : Expr) : Prop :=
  ∀ ts next rest w, ts.map Token.shape = ps.map Piece.token → Follows (n + 1) next.kind →
    w.registry.schema = s →
    ∃ fuel w', w'.registry.schema = s ∧ c.tokenCount ≤ fuel + ps.length ∧
      level inner n c ⟨ts ++ next :: rest, w⟩ =
        chainFrom (levelStep inner n) fuel e c ⟨next :: rest, w'⟩

/-- Behind signs that were read already, the rule of unary operators reads the pieces, and applies
the signs to the expression. -/
def Signed (c : BindContext) (s : Schema) (inner : Binder Expr) (ps : List Piece) (e : Expr) :
    Prop :=
  ∀ fuel signs e' ts next rest w, ps.length ≤ fuel →
    (∀ tokens w, w.registry.schema = s →
      Runs c (signs.foldlM applySign e) ⟨tokens, w⟩ e' ⟨tokens, w⟩) →
    ts.map Token.shape = ps.map Piece.token → Follows 7 next.kind → w.registry.schema = s →
    ∃ w', w'.registry.schema = s ∧
      Runs c (do
        let signs ← chainFrom signStep fuel signs
        let e ← primary inner
        signs.foldlM applySign e) ⟨ts ++ next :: rest, w⟩ e' ⟨next :: rest, w'⟩

variable {c : BindContext} {s : Schema} {inner x : Binder Expr} {n : Nat} {ps qs : List Piece}
  {a b e : Expr} {t : Token} {rest : List Token} {w : Workspace}

/-! ### Binary operators -/

/-- There is no further step where no operator of the level follows. -/
theorem levelStep_ends (h : Passes n t.kind) (left : Expr) :
    Runs c (levelStep inner n left) ⟨t :: rest, w⟩ none ⟨t :: rest, w⟩ := by
  have step : Runs c (binaryStep (levelOp? n) (level inner (n + 1)) left) ⟨t :: rest, w⟩ none
      ⟨t :: rest, w⟩ := by
    refine runs_current.bind ?_
    rw [h.op]
    exact .pure
  unfold levelStep
  split
  next three =>
    subst three
    refine (runs_isKind _).bind ?_
    rw [if_neg (by simp [h.isIn rfl])]
    exact step
  next => exact step

/-- An operand of the next level is one of the level, ready for an operator. -/
theorem Reads.spans (h : Reads c s (level inner (n + 1)) (n + 1) ps e) (h₁ : 1 ≤ n) (h₆ : n ≤ 6) :
    Spans c s inner n ps e := by
  intro ts next rest w shapes follows schema
  obtain ⟨w', schema', run⟩ := h ts next rest w shapes follows schema
  refine ⟨c.tokenCount, w', schema', Nat.le_add_right _ _, ?_⟩
  rw [level_eq inner h₁ h₆, run.bind_eq]
  exact runs_tokenCount.bind_eq

/-- Operands and operators are read, if no further operator of the level follows. -/
theorem Spans.reads (h : Spans c s inner n ps e) : Reads c s (level inner n) n ps e := by
  intro ts next rest w shapes follows schema
  obtain ⟨fuel, w', schema', -, run⟩ :=
    h ts next rest w shapes (follows.mono (Nat.le_succ n)) schema
  have passes := follows.ends.passes n (Nat.le_refl n)
  exact ⟨w', schema', run.trans (chainFrom_ends (levelStep_ends passes e) fuel)⟩

/-- One more operator of a level with its right operand. -/
theorem levelStep_runs {op : BinaryOp} {ts : List Token} {next : Token}
    (sign : t.kind = .symbol op.sign)
    (right : Reads c s (level inner (op.level + 1)) (op.level + 1) qs b)
    (bound : Binding.binary s op a b 0 = .ok e) (shapes : ts.map Token.shape = qs.map Piece.token)
    (follows : Follows (op.level + 1) next.kind) (schema : w.registry.schema = s) :
    ∃ w', w'.registry.schema = s ∧ Runs c (levelStep inner op.level a)
      ⟨t :: (ts ++ next :: rest), w⟩ (some e) ⟨next :: rest, w'⟩ := by
  obtain ⟨w', schema', run⟩ := right ts next rest w shapes follows schema
  obtain ⟨op', read, same⟩ := op.levelOp?_sign
  have step : Runs c (binaryStep (levelOp? op.level) (level inner (op.level + 1)) a)
      ⟨t :: (ts ++ next :: rest), w⟩ (some e) ⟨next :: rest, w'⟩ := by
    refine runs_current.bind ?_
    rw [sign, read]
    refine (runs_advance_append ts).bind (run.bind ?_)
    have moved : Binding.binary s op' a b t.offset = .ok e := by
      rw [same]
      exact (Binding.binary_moves op).ok e bound
    exact (runs_bound (schema' ▸ moved)).bind .pure
  refine ⟨w', schema', ?_⟩
  unfold levelStep
  split
  next three =>
    refine (runs_isKind _).bind ?_
    rw [sign, if_neg (by simp)]
    rw [three] at step
    exact step
  next => exact step

/-- An operand on the left, an operator of its level, and an operand of the next level. -/
theorem Spans.binary {op : BinaryOp} (left : Spans c s inner op.level ps a)
    (right : Reads c s (level inner (op.level + 1)) (op.level + 1) qs b)
    (bound : Binding.binary s op a b 0 = .ok e)
    (fits : (ps ++ Piece.sign op.sign :: qs).length ≤ c.tokenCount) :
    Spans c s inner op.level (ps ++ Piece.sign op.sign :: qs) e := by
  intro ts next rest w shapes follows schema
  rw [List.map_append, List.map_cons] at shapes
  obtain ⟨us, vs, rfl, left_shapes, shapes⟩ := List.map_eq_append_iff.1 shapes
  obtain ⟨t, vs, rfl, sign, right_shapes⟩ := List.map_eq_cons_iff.1 shapes
  have kind : t.kind = .symbol op.sign := congrArg Shape.kind sign
  have operator : Follows (op.level + 1) t.kind := kind ▸ .operator op (Nat.lt_succ_self _)
  obtain ⟨fuel, w₁, schema₁, enough, run⟩ :=
    left us t (vs ++ next :: rest) w left_shapes operator schema
  rw [List.length_append, List.length_cons] at fits
  obtain ⟨fuel, rfl⟩ : ∃ f, fuel = f + 1 := ⟨fuel - 1, by omega⟩
  obtain ⟨w₂, schema₂, step⟩ := levelStep_runs kind right bound right_shapes follows schema₁
  refine ⟨fuel, w₂, schema₂, ?_, ?_⟩
  · rw [List.length_append, List.length_cons]
    omega
  · rw [List.append_assoc, List.cons_append, run]
    exact chainFrom_step fuel step

/-! ### Conditionals -/

/-- A test without branches behind it is an expression of its own. -/
theorem Reads.conditional (h : Reads c s (level inner 1) 1 ps e) :
    Reads c s (level inner 0) 0 ps e := by
  intro ts next rest w shapes follows schema
  obtain ⟨w', schema', run⟩ := h ts next rest w shapes (follows.mono (Nat.zero_le 1)) schema
  refine ⟨w', schema', Runs.bind (a := headToken (ts ++ next :: rest)) rfl (run.bind ?_)⟩
  refine (runs_isSymbol _).bind ?_
  rw [if_neg (by simp [follows.ne_question])]
  exact .pure

/-- What a level reads, the looser levels read. -/
theorem Reads.descend {k : Nat} (h : Reads c s (level inner (n + k)) (n + k) ps e)
    (hk : n + k ≤ 7) : Reads c s (level inner n) n ps e := by
  induction k with
  | zero => exact h
  | succ k ih =>
    rw [← Nat.add_assoc] at h hk
    have hk : n + k ≤ 6 := Nat.le_of_succ_le_succ hk
    refine ih ?_ (Nat.le_succ_of_le hk)
    rcases Nat.eq_zero_or_pos (n + k) with zero | pos
    · rw [zero] at h ⊢
      exact h.conditional
    · exact (h.spans pos hk).reads

/-- A test with its branches. -/
theorem reads_conditional {rs : List Piece} {test : Expr}
    (condition : Reads c s (level inner 1) 1 ps test) (whenTrue : Reads c s inner 0 qs a)
    (whenFalse : Reads c s inner 0 rs b) (bound : Binding.conditional s test a b 0 = .ok e) :
    Reads c s (level inner 0) 0
      (ps ++ Piece.sign .question :: (qs ++ Piece.sign .colon :: rs)) e := by
  intro ts next rest w shapes follows schema
  simp only [List.map_append, List.map_cons] at shapes
  obtain ⟨us, vs, rfl, testShapes, shapes⟩ := List.map_eq_append_iff.1 shapes
  obtain ⟨question, vs, rfl, questionShape, shapes⟩ := List.map_eq_cons_iff.1 shapes
  obtain ⟨vs, ws, rfl, trueShapes, shapes⟩ := List.map_eq_append_iff.1 shapes
  obtain ⟨colon, ws, rfl, colonShape, falseShapes⟩ := List.map_eq_cons_iff.1 shapes
  have questionKind : question.kind = .symbol .question := congrArg Shape.kind questionShape
  have colonKind : colon.kind = .symbol .colon := congrArg Shape.kind colonShape
  obtain ⟨w₁, schema₁, run₁⟩ := condition us question (vs ++ colon :: (ws ++ next :: rest)) w
    testShapes (questionKind ▸ .question (Nat.le_refl 1)) schema
  obtain ⟨w₂, schema₂, run₂⟩ := whenTrue vs colon (ws ++ next :: rest) w₁ trueShapes
    (colonKind ▸ .colon) schema₁
  obtain ⟨w₃, schema₃, run₃⟩ := whenFalse ws next rest w₂ falseShapes follows schema₂
  simp only [List.append_assoc, List.cons_append]
  refine ⟨w₃, schema₃, Runs.bind (a := headToken _) rfl (run₁.bind ?_)⟩
  refine (runs_isSymbol _).bind ?_
  rw [questionKind, beq_self_eq_true, if_pos rfl]
  refine (runs_advance_append vs).bind (run₂.bind ?_)
  refine (runs_expect colonKind ws).bind (run₃.bind ?_)
  exact runs_bound (schema₃ ▸ Binding.conditional_moves.ok e bound)

/-! ### Signs -/

/-- A primary stands behind signs. -/
theorem Reads.signed (h : Reads c s (primary inner) 8 ps e)
    (head : ∀ p ∈ ps.head?, unaryOp? p.token.kind = none) (nonempty : ps ≠ []) :
    Signed c s inner ps e := by
  intro fuel signs e' ts next rest w _ apply shapes follows schema
  obtain ⟨w', schema', run⟩ := h ts next rest w shapes (follows.mono (Nat.le_succ 7)) schema
  obtain ⟨p, ps, rfl⟩ := List.exists_cons_of_ne_nil nonempty
  obtain ⟨t, ts, rfl, shape, -⟩ := List.map_eq_cons_iff.1 shapes
  have kind : t.kind = p.token.kind := congrArg Shape.kind shape
  have noSign : Runs c (signStep signs) ⟨t :: (ts ++ next :: rest), w⟩ none
      ⟨t :: (ts ++ next :: rest), w⟩ := by
    refine runs_current.bind ?_
    rw [kind, head p rfl]
    exact .pure
  exact ⟨w', schema', (chainFrom_ends noSign fuel).bind (run.bind (apply _ _ schema'))⟩

/-- One more sign in front of an operand that stands behind signs. -/
theorem Signed.unary {op : UnaryOp} (h : Signed c s inner ps a)
    (bound : OperatorTree.bindUnary s op a = .ok e) :
    Signed c s inner (Piece.sign op.sign :: ps) e := by
  intro fuel signs e' ts next rest w enough apply shapes follows schema
  obtain ⟨t, ts, rfl, shape, shapes⟩ := List.map_eq_cons_iff.1 shapes
  have kind : t.kind = .symbol op.sign := congrArg Shape.kind shape
  obtain ⟨fuel, rfl⟩ : ∃ f, fuel = f + 1 := ⟨fuel - 1, by rw [List.length_cons] at enough; omega⟩
  have step : Runs c (signStep signs) ⟨t :: (ts ++ next :: rest), w⟩
      (some ((op, t.offset) :: signs)) ⟨ts ++ next :: rest, w⟩ := by
    refine runs_current.bind ?_
    have read : unaryOp? t.kind = some op := by
      rw [kind]
      cases op <;> rfl
    rw [read]
    exact (runs_advance_append ts).bind .pure
  have sign (tokens : List Token) (w : Workspace) (schema : w.registry.schema = s) :
      Runs c (applySign a (op, t.offset)) ⟨tokens, w⟩ e ⟨tokens, w⟩ := by
    cases op with
    | negate => exact runs_bound (schema ▸ Binding.negate_moves.ok e bound)
    | not => exact runs_bound (schema ▸ Binding.complement_moves.ok e bound)
  obtain ⟨w', schema', run⟩ := h fuel ((op, t.offset) :: signs) e' ts next rest w
    (Nat.le_of_succ_le_succ enough)
    (fun tokens w schema => (sign tokens w schema).bind (apply tokens w schema)) shapes follows
    schema
  refine ⟨w', schema', ?_⟩
  rw [Runs, Binder.bind_apply] at run ⊢
  rw [List.cons_append, chainFrom_step fuel step]
  exact run

/-- An operand behind no further signs. -/
theorem Signed.reads (h : Signed c s inner ps e) (fits : ps.length ≤ c.tokenCount) :
    Reads c s (level inner 7) 7 ps e := by
  intro ts next rest w shapes follows schema
  obtain ⟨w', schema', run⟩ := h c.tokenCount [] e ts next rest w fits
    (fun _ _ _ => .pure) shapes follows schema
  refine ⟨w', schema', ?_⟩
  have chained : chain signStep [] c ⟨ts ++ next :: rest, w⟩ =
      chainFrom signStep c.tokenCount [] c ⟨ts ++ next :: rest, w⟩ := runs_tokenCount.bind_eq
  rw [Runs, Binder.bind_apply] at run
  rw [Runs, level, Grammar.unary, Binder.bind_apply, chained]
  exact run

/-! ### Primaries -/

/-- What follows an operand is no part of a primary. -/
theorem suffixStep_ends (h : Ends n t.kind) (left : Expr) :
    Runs c (suffixStep inner left) ⟨t :: rest, w⟩ none ⟨t :: rest, w⟩ := by
  refine runs_current.bind ?_
  split
  next dot => exact absurd dot h.dot
  next bracket => exact absurd bracket h.leftBracket
  next => exact .pure

/-- An atom is a primary. -/
theorem reads_atom {atom : Atom} (found : atomExpr? c s atom.token = some e) :
    Reads c s (primary inner) 8 [atom.toPiece] e := by
  intro ts next rest w shapes follows schema
  obtain ⟨t, ts, rfl, shape, shapes⟩ := List.map_eq_cons_iff.1 shapes
  obtain rfl := List.map_eq_nil_iff.1 shapes
  have kind : t.kind = atom.token.kind := congrArg Shape.kind shape
  have start : Yields c (primaryStart inner) ⟨t :: next :: rest, w⟩ (next :: rest)
      (atomExpr? c w.registry.schema t.shape) :=
    primaryStart_yields (kind ▸ atom.atomic) follows.ne.1 follows.ne.2.2.1
  rw [shape, schema, found] at start
  obtain ⟨w', schema', run⟩ := start
  exact ⟨w', schema'.trans schema, run.bind (chain_ends (suffixStep_ends follows.ends e))⟩

/-- An expression in parentheses is a primary. -/
theorem reads_parenthesized (h : Reads c s inner 0 ps e) :
    Reads c s (primary inner) 8 (OperatorTree.enclose true ps) e := by
  intro ts next rest w shapes follows schema
  obtain ⟨left, ts, rfl, leftShape, shapes⟩ := List.map_eq_cons_iff.1 shapes
  rw [List.map_append] at shapes
  obtain ⟨ts, us, rfl, inside, last⟩ := List.map_eq_append_iff.1 shapes
  obtain ⟨right, us, rfl, rightShape, none⟩ := List.map_eq_cons_iff.1 last
  obtain rfl := List.map_eq_nil_iff.1 none
  have leftKind : left.kind = .symbol .leftParen := congrArg Shape.kind leftShape
  have rightKind : right.kind = .symbol .rightParen := congrArg Shape.kind rightShape
  obtain ⟨w', schema', run⟩ := h ts right (next :: rest) w inside (rightKind ▸ .rightParen) schema
  simp only [List.cons_append, List.append_assoc, List.nil_append]
  refine ⟨w', schema', Runs.bind ?_ (chain_ends (suffixStep_ends follows.ends e))⟩
  refine runs_current.bind ?_
  rw [leftKind]
  refine (runs_advance_append ts).bind (run.bind ?_)
  exact (runs_expect rightKind []).bind .pure

end TypedExpr
