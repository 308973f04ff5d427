import TypedExpr.Proofs.Precedence.Levels

/-!
# Parsing of operator trees

A tree that is written with the parentheses that it needs is read as that tree, so that the text is
bound to what the tree is bound to.

* `OperandAt` — pieces that a level reads as an operand, in all the ways that it uses operands.
* `OperatorTree.operand` — by induction over trees, their pieces are operands of their own level.
* **`OperatorTree.parse_render`** — the text of a tree is bound to the expression of the tree.
-/

namespace TypedExpr

open Binder Grammar

section

variable {format : GuidFormat} {c : BindContext} {s : Schema} {inner : Binder Expr} {n m d : Nat}
  {ps : List Piece} {e : Expr} {source : Source} {w : Workspace}

/-! ## Operands -/

/-- The level reads the pieces: as a whole, in front of operators of the level, and behind signs. -/
structure OperandAt (c : BindContext) (s : Schema) (inner : Binder Expr) (n : Nat) (ps : List Piece)
    (e : Expr) : Prop where
  reads : Reads c s (level inner n) n ps e
  spans : 1 ≤ n → n ≤ 6 → Spans c s inner n ps e
  signed : 7 ≤ n → Signed c s inner ps e

/-- **An operand of a level is an operand of every looser level.** -/
theorem OperandAt.lower (h : OperandAt c s inner n ps e) (hn : n ≤ 8) (le : m ≤ n)
    (fits : ps.length ≤ c.tokenCount) : OperandAt c s inner m ps e := by
  have reads {k : Nat} (hk : k ≤ n) : Reads c s (level inner k) k ps e := by
    rcases Nat.eq_or_lt_of_le hk with rfl | lt
    · exact h.reads
    · rcases Nat.lt_or_ge n 7 with small | large
      · obtain ⟨j, rfl⟩ := Nat.exists_eq_add_of_le hk
        exact h.reads.descend (Nat.le_of_lt small)
      · have unary := (h.signed large).reads fits
        obtain ⟨j, hj⟩ := Nat.exists_eq_add_of_le (Nat.le_of_lt_succ (Nat.lt_of_lt_of_le lt hn))
        rw [hj] at unary
        exact unary.descend (Nat.le_of_eq hj.symm)
  refine ⟨reads le, ?_, ?_⟩
  · intro h₁ h₆
    rcases Nat.eq_or_lt_of_le le with rfl | lt
    · exact h.spans h₁ h₆
    · exact (reads lt).spans h₁ h₆
  · intro h₇
    exact h.signed (Nat.le_trans h₇ le)

/-- An atom is no sign. -/
theorem unaryOp?_of_isAtom {k : TokenKind} (h : k.isAtom = true) : unaryOp? k = none := by
  unfold TokenKind.isAtom at h
  split at h <;> first | rfl | cases h

/-- A primary that is not a sign is an operand. -/
theorem Reads.operand (h : Reads c s (primary inner) 8 ps e)
    (head : ∀ p ∈ ps.head?, unaryOp? p.token.kind = none) (nonempty : ps ≠ []) :
    OperandAt c s inner 8 ps e :=
  ⟨h, fun _ h₆ => absurd h₆ (by decide), fun _ => h.signed head nonempty⟩

namespace OperatorTree

variable {t : OperatorTree}

theorem level_le (t : OperatorTree) : t.level ≤ 8 := by
  cases t with
  | leaf a => exact Nat.le_refl 8
  | unary op x => exact Nat.le_succ 7
  | binary op l r => exact Nat.le_trans op.level_bounds.2 (by decide)
  | conditional test x y => exact Nat.zero_le 8

/-- Wherever its pieces fit in, the tree is an operand of its own level. -/
def IsOperand (source : Source) (w : Workspace) (c : BindContext) (t : OperatorTree) : Prop :=
  ∀ d e, t.pieces.length ≤ d → d ≤ c.tokenCount → t.fold source w = .ok e →
    OperandAt c w.registry.schema (expression d) t.level t.pieces e

/-- A tree is an expression inside of brackets or of a branch. -/
theorem IsOperand.reads_expression (h : t.IsOperand source w c) (fits : t.pieces.length + 1 ≤ d)
    (hd : d ≤ c.tokenCount + 1) (fold : t.fold source w = .ok e) :
    Reads c w.registry.schema (expression d) 0 t.pieces e := by
  obtain ⟨d, rfl⟩ : ∃ k, d = k + 1 := ⟨d - 1, by omega⟩
  have hd : d ≤ c.tokenCount := Nat.le_of_succ_le_succ hd
  have fits : t.pieces.length ≤ d := Nat.le_of_succ_le_succ fits
  exact ((h d e fits hd fold).lower t.level_le (Nat.zero_le _) (Nat.le_trans fits hd)).reads

/-- A tree, in parentheses if it needs them, is an operand of a level. -/
theorem IsOperand.enclose (h : t.IsOperand source w c) (hn : n ≤ 8)
    (fits : (enclose (t.level < n) t.pieces).length ≤ d) (hd : d ≤ c.tokenCount)
    (fold : t.fold source w = .ok e) :
    OperandAt c w.registry.schema (expression d) n (OperatorTree.enclose (t.level < n) t.pieces)
      e := by
  by_cases needed : t.level < n
  · rw [decide_eq_true needed] at fits ⊢
    have inside : t.pieces.length + 1 ≤ d := by
      simp only [OperatorTree.enclose, if_true, List.length_cons, List.length_append] at fits
      omega
    have primary := reads_parenthesized
      (h.reads_expression inside (Nat.le_succ_of_le hd) fold)
    have bracket : ∀ p ∈ (OperatorTree.enclose true t.pieces).head?,
        unaryOp? p.token.kind = none := by
      rintro _ ⟨⟩
      rfl
    exact (primary.operand bracket nofun).lower (Nat.le_refl 8) hn (Nat.le_trans fits hd)
  · rw [decide_eq_false needed] at fits ⊢
    exact (h d e fits hd fold).lower t.level_le (Nat.le_of_not_lt needed) (Nat.le_trans fits hd)

/-- **The pieces of a tree are an operand of its level.** -/
theorem operand (leaves : ∀ (a : Atom) e, (leaf a).fold source w = .ok e →
      atomExpr? c w.registry.schema a.token = some e) (t : OperatorTree) :
    t.IsOperand source w c := by
  induction t with
  | leaf a =>
    intro d e fits hd fold
    have atom : Reads c w.registry.schema (primary (expression d)) 8 [a.toPiece] e :=
      reads_atom (leaves a e fold)
    refine atom.operand ?_ nofun
    rintro _ ⟨⟩
    exact unaryOp?_of_isAtom a.atomic
  | unary op x ih =>
    intro d e fits hd fold
    obtain ⟨a, foldX, bound⟩ := exists_of_bind_eq_ok fold
    rw [pieces, List.length_cons] at fits
    have operand := ih.enclose (n := 7) (by decide) (Nat.le_of_succ_le fits) hd foldX
    have signed := (operand.signed (Nat.le_refl 7)).unary bound
    exact ⟨signed.reads (Nat.le_trans fits hd), fun _ (h₆ : 7 ≤ 6) => absurd h₆ (by decide),
      fun _ => signed⟩
  | binary op l r ihl ihr =>
    intro d e fits hd fold
    obtain ⟨a, foldL, fold⟩ := exists_of_bind_eq_ok fold
    obtain ⟨b, foldR, bound⟩ := exists_of_bind_eq_ok fold
    obtain ⟨h₁, h₆⟩ := op.level_bounds
    have total := Nat.le_trans fits hd
    rw [pieces, List.length_append, List.length_cons] at fits
    have left := ihl.enclose (Nat.le_trans h₆ (by decide)) (by omega) hd foldL
    have right := ihr.enclose (n := op.level + 1) (by omega) (by omega) hd foldR
    have spans := (left.spans h₁ h₆).binary right.reads bound total
    exact ⟨spans.reads, fun _ _ => spans, fun h₇ => absurd (Nat.le_trans h₇ h₆) (by decide)⟩
  | conditional test x y ihc ihx ihy =>
    intro d e fits hd fold
    obtain ⟨v, foldC, fold⟩ := exists_of_bind_eq_ok fold
    obtain ⟨a, foldX, fold⟩ := exists_of_bind_eq_ok fold
    obtain ⟨b, foldY, bound⟩ := exists_of_bind_eq_ok fold
    simp only [pieces, List.length_append, List.length_cons] at fits
    have condition := ihc.enclose (n := 1) (by decide) (by omega) hd foldC
    have whenTrue := ihx.reads_expression (by omega) (Nat.le_succ_of_le hd) foldX
    have whenFalse := ihy.reads_expression (by omega) (Nat.le_succ_of_le hd) foldY
    exact ⟨reads_conditional condition.reads whenTrue whenFalse bound, nofun, nofun⟩

end OperatorTree

/-! ## Texts -/

namespace Source

variable {a : Atom}

/-- What stays the same while the text of a source is read that has a number of tokens. -/
def context (source : Source) (count : Nat) : BindContext :=
  ⟨.ofElement source.element, source.params, source.contextKeywords, none, count⟩

theorem parse_eq {tokens : List Token} (h : Lexer.tokens source.text = (tokens, none)) :
    (source.parse w).1 = (whole (source.context tokens.length) ⟨tokens, w⟩).1 := by
  unfold parse run
  rw [h]
  cases tokens <;> rfl

/-- The tokens of pieces with spaces between them, and how many there are. -/
theorem tokens_join (text : source.text = Piece.join ps) (nonempty : ps ≠ []) :
    ∃ ts finish, ts.map Token.shape = ps.map Piece.token ∧ finish.kind = .finish ∧
      (source.parse w).1 = (whole (source.context (ps.length + 1)) ⟨ts ++ [finish], w⟩).1 := by
  obtain ⟨p, ps, rfl⟩ := List.exists_cons_of_ne_nil nonempty
  obtain ⟨ts, finish, tokens, shapes, last⟩ := Lexer.tokens_pieces p ps
  have length : (ts ++ [finish]).length = (p :: ps).length + 1 := by
    rw [List.length_append, List.length_singleton, ← List.length_map Token.shape, shapes,
      List.length_map]
  refine ⟨ts, finish, shapes, last, ?_⟩
  rw [← length]
  exact parse_eq (text ▸ tokens)

/-- A text is parsed if its pieces are read as an expression. -/
theorem parse_of_reads (text : source.text = Piece.join ps) (nonempty : ps ≠ [])
    (h : Reads (source.context (ps.length + 1)) w.registry.schema (expression (ps.length + 2)) 0
      ps e) :
    (source.parse w).1 = .ok e := by
  obtain ⟨ts, finish, shapes, last, parse⟩ := tokens_join (w := w) text nonempty
  obtain ⟨w', -, run⟩ := h ts finish [] w shapes (last ▸ .finish) rfl
  have all : Runs (source.context (ps.length + 1)) whole ⟨ts ++ [finish], w⟩ e ⟨[finish], w'⟩ :=
    (runs_tokenCount.bind run).bind ((runs_expectEnd last).bind .pure)
  rw [parse, all]

/-- Where no primary starts with a token that is no sign, no expression does. -/
theorem level_fails {t : Token} {rest : List Token}
    (h : Fails c (primaryStart inner) ⟨t :: rest, w⟩) (noSign : unaryOp? t.kind = none) (n : Nat) :
    Fails c (level inner n) ⟨t :: rest, w⟩ := by
  match n with
  | 0 => exact Runs.fails_bind (a := t) rfl ((level_fails h noSign 1).bind _)
  | 1 | 2 | 3 | 4 | 5 | 6 =>
    rw [level_eq inner (by decide) (by decide)]
    exact (level_fails h noSign _).bind _
  | 7 =>
    have signs : Runs c (signStep []) ⟨t :: rest, w⟩ none ⟨t :: rest, w⟩ := by
      refine runs_current.bind ?_
      rw [noSign]
      exact .pure
    exact (chain_ends signs).fails_bind ((level_fails h noSign 8).bind _)
  | _ + 8 => exact h.bind _
termination_by 8 - n

theorem join_atom (text : source.text = a.text) : source.text = Piece.join [a.toPiece] := by
  rw [text, Piece.join, List.map_singleton, String.intercalate_singleton]

/-- The text of an atom is parsed as what the atom is bound to. -/
theorem parse_atom (text : source.text = a.text)
    (found : atomExpr? (source.context 2) w.registry.schema a.token = some e) :
    (source.parse w).1 = .ok e := by
  have atom : Reads (source.context 2) w.registry.schema (primary (expression 2)) 8 [a.toPiece] e :=
    reads_atom found
  have noSign : ∀ p ∈ [a.toPiece].head?, unaryOp? p.token.kind = none := by
    rintro _ ⟨⟩
    exact unaryOp?_of_isAtom a.atomic
  have operand := (atom.operand noSign nofun).lower (Nat.le_refl 8) (Nat.zero_le 8) (Nat.le_succ 1)
  exact parse_of_reads (join_atom text) nofun operand.reads

/-- The text of an atom that is bound to nothing is not parsed. -/
theorem parse_atom_fails (text : source.text = a.text)
    (found : atomExpr? (source.context 2) w.registry.schema a.token = none) :
    ∃ error, (source.parse w).1 = .error error := by
  obtain ⟨ts, finish, shapes, last, parse⟩ := tokens_join (w := w) (join_atom text) nofun
  obtain ⟨t, ts, rfl, shape, shapes⟩ := List.map_eq_cons_iff.1 shapes
  obtain rfl := List.map_eq_nil_iff.1 shapes
  have kind : t.kind = a.token.kind := congrArg Shape.kind shape
  have start : Yields (source.context 2) (primaryStart (expression 2)) ⟨[t, finish], w⟩ [finish]
      (atomExpr? (source.context 2) w.registry.schema t.shape) :=
    primaryStart_yields (kind ▸ a.atomic) (by rw [last]; nofun) (by rw [last]; nofun)
  rw [shape, found] at start
  have fails : Fails (source.context 2) whole ⟨[t, finish], w⟩ :=
    (runs_tokenCount.fails_bind (level_fails start (kind ▸ unaryOp?_of_isAtom a.atomic) 0)).bind _
  obtain ⟨error, s, run⟩ := fails
  exact ⟨error, parse.trans (congrArg Prod.fst run)⟩

/-- The text of an atom is parsed as what the atom is bound to, or not at all. -/
theorem atomExpr?_of_parse (count : Nat) (text : source.text = a.text)
    (h : (source.parse w).1 = .ok e) :
    atomExpr? (source.context count) w.registry.schema a.token = some e := by
  cases found : atomExpr? (source.context 2) w.registry.schema a.token with
  | some e' =>
    rw [parse_atom text found] at h
    exact found.trans (congrArg some (Except.ok.inj h))
  | none =>
    obtain ⟨error, failed⟩ := parse_atom_fails text found
    rw [failed] at h
    cases h

end Source

end

namespace OperatorTree

section

variable {format : GuidFormat} {source : Source} {w : Workspace} {e : Expr}

theorem pieces_ne_nil (t : OperatorTree) : t.pieces ≠ [] := by
  cases t with
  | leaf a => exact nofun
  | unary op x => exact nofun
  | binary op l r => exact List.append_ne_nil_of_right_ne_nil _ nofun
  | conditional test x y => exact List.append_ne_nil_of_right_ne_nil _ nofun

/-- **Precedence and associativity.** The text of a tree, with parentheses only where the levels of
its operators need them, is parsed as what the tree itself is bound to. -/
theorem parse_render (t : OperatorTree) (fold : t.fold source w = .ok e) :
    (({ source with text := t.render } : Source).parse w).1 = .ok e := by
  have leaves (a : Atom) (e : Expr) (leaf : (leaf a).fold source w = .ok e) :
      atomExpr? (source.context (t.pieces.length + 1)) w.registry.schema a.token = some e := by
    have parsed : (({ source with text := a.text } : Source).parse w).1 = .ok e := leaf
    have found := Source.atomExpr?_of_parse (t.pieces.length + 1) rfl parsed
    exact found
  have operand : t.IsOperand source w (source.context (t.pieces.length + 1)) := operand leaves t
  exact Source.parse_of_reads rfl t.pieces_ne_nil
    (operand.reads_expression (Nat.le_succ _) (Nat.le_refl _) fold)

end

set_option maxRecDepth 4000 in
theorem parse_render_conditional :
    let item := leaf (.sign .dollar rfl)
    let root := leaf (.sign .tilde rfl)
    let product := binary (.arithmetic .mul) root (binary (.arithmetic .add) item root)
    let tree := conditional (binary (.compare .lt) item product) (unary .negate item) root
    let x : Expr := .parameter 0 (.int .int32)
    let sum : Expr := .binary (.arithmetic .add) x x (.int .int32)
    let test : Expr := .binary (.compare .lt) x
      (.binary (.arithmetic .mul) x sum (.int .int32)) .boolean
    let e : Expr := .conditional test (.unary .negate x) x
    tree.fold ⟨"", .int .int32, [], true⟩ .empty = .ok e ∧
      tree.render = "$ < ~ * ( $ + ~ ) ? - $ : ~" ∧
      (Source.parse ⟨"$ < ~ * ( $ + ~ ) ? - $ : ~", .int .int32, [], true⟩ .empty).1 = .ok e := by
  intro item root product tree x sum test e
  have fold : tree.fold ⟨"", .int .int32, [], true⟩ .empty = .ok e := rfl
  have text : tree.render = "$ < ~ * ( $ + ~ ) ? - $ : ~" := rfl
  have parsed := parse_render tree fold
  rw [text] at parsed
  exact ⟨fold, text, parsed⟩

end OperatorTree

end TypedExpr
