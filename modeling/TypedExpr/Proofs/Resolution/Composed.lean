import TypedExpr.Compile
import TypedExpr.Proofs.Precedence.Running

/-!
# What the grammar is made of

Every rule of the grammar is made of a few steps, one after the other: it reads the tokens, the
scope and the schema, moves on by a token, looks up members and names, and numbers a record.  What
holds of these steps holds of the whole grammar.

* `Binder.Composed` — made of these steps.
* `Grammar.expression_composed`, `Grammar.ordering_composed` — the grammar is.
* **`Binder.Composed.leadsTo`** — where the steps lead, the whole grammar leads.
* `Binder.Composed.suffix` — the tokens behind a part of the grammar are the last ones before it.
-/

namespace TypedExpr

variable {format : GuidFormat}

namespace Binder

variable {α β : Type}

/-- The part of the grammar is made of steps. -/
inductive Composed : {α : Type} → Binder α → Prop
  | pure {α : Type} (a : α) : Composed (pure a : Binder α)
  | bind {α β : Type} {x : Binder α} {f : α → Binder β} (first : Composed x)
      (rest : ∀ a, Composed (f a)) : Composed (x >>= f)
  | throw {α : Type} (e : CompileError) : Composed (throw e : Binder α)
  | inScope {α : Type} {x : Binder α} (t : Ty) (alias? : Option String) (inside : Composed x) :
      Composed (inScope t alias? x)
  | read : Composed read
  | current : Composed current
  | advance : Composed advance
  | peekKind : Composed peekKind
  | schema : Composed schema
  | members (t : Ty) : Composed (members t)
  | findType? (name : String) : Composed (findType? name)
  | anonymousRecord (fields : List (String × Ty)) : Composed (anonymousRecord fields)

namespace Composed

/-! ## Steps of the binder -/

theorem lift (r : Except CompileError α) : Composed (liftM r : Binder α) := by
  cases r with
  | ok a => exact .pure a
  | error e => exact .throw e

theorem map {x : Binder α} (f : α → β) (h : Composed x) : Composed (f <$> x) := by
  rw [map_eq_pure_bind]
  exact h.bind fun a => .pure (f a)

theorem tokenCount : Composed Binder.tokenCount := .bind .read fun c => .pure c.tokenCount

theorem scope : Composed Binder.scope := .bind .read fun c => .pure c.scope

theorem fail (cause : ParseCause) (offset : Nat) : Composed (Binder.fail cause offset : Binder α) :=
  .throw _

theorem unexpected (expected : String) : Composed (Binder.unexpected expected : Binder α) :=
  .bind .current fun _ => .fail _ _

theorem isKind (kind : TokenKind) : Composed (Binder.isKind kind) :=
  .bind .current fun _ => .pure _

theorem isSymbol (sign : Symbol) : Composed (Binder.isSymbol sign) := isKind _

theorem ite {p : Prop} {_ : Decidable p} {x y : Binder α} (hx : Composed x) (hy : Composed y) :
    Composed (if p then x else y) := by
  split
  · exact hx
  · exact hy

theorem expect (kind : TokenKind) : Composed (Binder.expect kind) :=
  .bind (isKind kind) fun _ => .ite .advance (unexpected _)

theorem expectIdentifier : Composed Binder.expectIdentifier := expect _

theorem expectEnd : Composed Binder.expectEnd :=
  .bind (isKind .finish) fun _ => .ite (.pure ()) (unexpected _)

theorem bound (rule : Schema → Except CompileError α) : Composed (Binder.bound rule) :=
  .bind .schema fun s => .lift (rule s)

theorem findMember? (t : Ty) (name : String) : Composed (Binder.findMember? t name) :=
  .bind (.members t) fun _ => .pure _

theorem findMethods (t : Ty) (name : String) : Composed (Binder.findMethods t name) :=
  .bind (.members t) fun _ => .pure _

/-! ## Repetition -/

theorem chainFrom {step : α → Binder (Option α)} (h : ∀ a, Composed (step a)) :
    ∀ fuel a, Composed (Binder.chainFrom step fuel a)
  | 0, a => .pure a
  | fuel + 1, a => by
    refine .bind (h a) fun b? => ?_
    cases b? with
    | some b => exact chainFrom h fuel b
    | none => exact .pure a

theorem chain {step : α → Binder (Option α)} (h : ∀ a, Composed (step a)) (a : α) :
    Composed (Binder.chain step a) :=
  .bind tokenCount fun fuel => chainFrom h fuel a

theorem separatedFrom {item : α → Binder α} (h : ∀ a, Composed (item a)) :
    ∀ fuel a, Composed (Binder.separatedFrom item fuel a)
  | 0, a => .pure a
  | fuel + 1, a =>
    .bind (h a) fun b => .bind (isSymbol .comma) fun _ =>
      .ite (.bind .advance fun _ => separatedFrom h fuel b) (.pure b)

theorem separated {item : α → Binder α} (h : ∀ a, Composed (item a)) (a : α) :
    Composed (Binder.separated item a) :=
  .bind tokenCount fun fuel => separatedFrom h fuel a

theorem foldlM {step : β → α → Binder β} (h : ∀ b a, Composed (step b a)) :
    ∀ (as : List α) (b : β), Composed (as.foldlM step b)
  | [], b => .pure b
  | a :: as, b => by
    rw [List.foldlM_cons]
    exact .bind (h b a) fun b => foldlM h as b

/-! ## Where steps lead -/

/-- The last token is not left, and where a token cannot be read behind it, that is an error. -/
theorem advance_last {ts : List Token} (last : ts.length < 2) (c : BindContext) (w : Workspace) :
    Binder.advance c ⟨ts, w⟩ =
      (c.fault.elim (.ok (headToken ts)) fun e => .error (.lex e), ⟨ts, w⟩) := by
  rcases c with ⟨scope, params, contextKeywords, _ | e, tokenCount⟩ <;>
    match ts, last with
    | [], _ => rfl
    | [t], _ => rfl

theorem peekKind_last {ts : List Token} (last : ts.length < 2) (c : BindContext) (w : Workspace) :
    Binder.peekKind c ⟨ts, w⟩ =
      (c.fault.elim (.ok .finish) fun e => .error (.lex e), ⟨ts, w⟩) := by
  rcases c with ⟨scope, params, contextKeywords, _ | e, tokenCount⟩ <;>
    match ts, last with
    | [], _ => rfl
    | [t], _ => rfl

/-- Some tokens are the last ones, or there are two of them. -/
theorem last_or_cons (ts : List Token) :
    ts.length < 2 ∨ ∃ t u rest, ts = t :: u :: rest := by
  match ts with
  | [] => exact Or.inl (by decide)
  | [_] => exact Or.inl (by simp)
  | t :: u :: rest => exact Or.inr ⟨t, u, rest, rfl⟩

/-- A relation of states in which every state stands to the one that a step leaves behind. -/
structure Leads (R : BindState → BindState → Prop) : Prop where
  refl (s : BindState) : R s s
  trans {s t u : BindState} : R s t → R t u → R s u
  advance {t u : Token} {rest : List Token} {w : Workspace} :
    R ⟨t :: u :: rest, w⟩ ⟨u :: rest, w⟩
  members {ts : List Token} {w : Workspace} (t : Ty) : R ⟨ts, w⟩ ⟨ts, (w.members t).2⟩
  findType {ts : List Token} {w : Workspace} (name : String) (context : Ty) :
    R ⟨ts, w⟩ ⟨ts, (w.findType name context).2⟩
  numbers {ts : List Token} {w : Workspace} :
    R ⟨ts, w⟩ ⟨ts, { w with nextAnonymous := w.nextAnonymous + 1 }⟩

/-- **Where every step leads, the whole leads**, whether it fails or not. -/
theorem leadsTo {R : BindState → BindState → Prop} (steps : Leads R) {x : Binder α}
    (h : Composed x) (c : BindContext) (s : BindState) : R s (x c s).2 := by
  induction h generalizing c s with
  | pure | throw | read | current | schema => exact steps.refl s
  | @bind _ _ x f _ _ first rest =>
    rw [bind_apply]
    have front := first c s
    rcases run : x c s with ⟨e | a, t⟩
    · rwa [run] at front
    · rw [run] at front
      exact steps.trans front (rest a c t)
  | inScope t alias? _ inside => exact inside _ s
  | advance =>
    obtain last | ⟨t, u, rest, h⟩ := last_or_cons s.tokens
    · rw [advance_last last]
      exact steps.refl s
    · obtain ⟨_, w⟩ := s
      subst h
      exact steps.advance
  | peekKind =>
    obtain last | ⟨t, u, rest, h⟩ := last_or_cons s.tokens
    · rw [peekKind_last last]
      exact steps.refl s
    · obtain ⟨_, w⟩ := s
      subst h
      exact steps.refl _
  | members t => exact steps.members t
  | findType? name => exact steps.findType name c.scope.base.ty
  | anonymousRecord => exact steps.numbers

/-- What is left behind are the last ones of the tokens, and at least one. -/
theorem suffix {x : Binder α} (h : Composed x) (c : BindContext)
    (s : BindState) : (x c s).2.tokens <:+ s.tokens ∧ (s.tokens ≠ [] → (x c s).2.tokens ≠ []) :=
  leadsTo (R := fun s t => t.tokens <:+ s.tokens ∧ (s.tokens ≠ [] → t.tokens ≠ []))
    { refl := fun _ => ⟨List.suffix_rfl, id⟩
      trans := fun h h' => ⟨h'.1.trans h.1, h'.2 ∘ h.2⟩
      advance := ⟨List.suffix_cons _ _, fun _ => List.cons_ne_nil _ _⟩
      members := fun _ => ⟨List.suffix_rfl, id⟩
      findType := fun _ _ => ⟨List.suffix_rfl, id⟩
      numbers := ⟨List.suffix_rfl, id⟩ } h c s

end Composed

/-- The tokens that a part of the grammar leaves behind. -/
theorem Runs.suffix {x : Binder α} {c : BindContext} {s t : BindState} {a : α}
    (run : Runs c x s a t) (h : Composed x) :
    t.tokens <:+ s.tokens ∧ (s.tokens ≠ [] → t.tokens ≠ []) := by
  have left := h.suffix c s
  rwa [run] at left

end Binder

namespace Grammar

open Binder

variable {inner : Binder Expr}

/-! ## Members and calls -/

theorem numberLiteral_composed (value? : String → Option Value) :
    Composed (numberLiteral value?) := by
  refine .bind .advance fun t => ?_
  split
  · exact .pure _
  · exact .throw _

theorem parentReference_composed (keyword : String) (offset : Nat) :
    Composed (parentReference keyword offset) := by
  refine .bind .scope fun s => ?_
  split
  · exact .pure _
  · exact .fail _ _

theorem isCallable_composed (t : Ty) (name : String) : Composed (isCallable t name) :=
  .ite (.pure _) (.bind (.findMethods t name) fun _ => .pure _)

theorem expressionList_composed (hi : Composed inner) : Composed (expressionList inner) :=
  .bind (.separated (fun _ => .bind hi fun _ => .pure _) []) fun _ => .pure _

theorem argumentList_composed (hi : Composed inner) : Composed (argumentList inner) := by
  refine .bind (.expect _) fun _ => .bind (.isSymbol _) fun _ => ?_
  have close (args : List Expr) : Composed (do
      let _ ← expect (.symbol .rightParen)
      return args) := .bind (.expect _) fun _ => .pure _
  exact .ite (.bind (.pure _) close) (.bind (expressionList_composed hi) close)

theorem lambdaName?_composed : Composed lambdaName? := by
  refine .bind (.isKind _) fun _ => .ite (.bind .peekKind fun _ => .ite ?_ (.pure _)) (.pure _)
  exact .bind .advance fun _ => .bind .advance fun _ => .pure _

theorem lambdaBody_composed (hi : Composed inner) (item : Ty) : Composed (lambdaBody inner item) :=
  .bind lambdaName?_composed fun name => .inScope item name hi

theorem sequenceValue_composed (hi : Composed inner) (target : Expr) (item : Ty)
    (m : SequenceMethod) (offset : Nat) :
    Composed (sequenceValue inner target item m offset) := by
  refine .bind hi fun e => .bind .schema fun s => ?_
  split
  · exact .pure _
  · exact .fail _ _

theorem sequenceResult_composed (target : Expr) (item : Ty) (m : SequenceMethod)
    (lambda argument : Option Expr) (offset : Nat) :
    Composed (sequenceResult target item m lambda argument offset) := by
  refine .bind .scope fun s => ?_
  simp only
  split
  · exact .ite (.bind (.fail _ _) fun _ => .bind .schema fun _ => .pure _)
      (.bind .schema fun _ => .pure _)
  · exact .bind .schema fun _ => .pure _

theorem sequenceCall_composed (hi : Composed inner) (target : Expr) (item : Ty)
    (m : SequenceMethod) (offset : Nat) : Composed (sequenceCall inner target item m offset) := by
  refine .bind (.expect _) fun _ => .bind .current fun t => ?_
  have close (parts : Option Expr × Option Expr) : Composed (do
      let _ ← expect (.symbol .rightParen)
      sequenceResult target item m parts.1 parts.2 t.offset) :=
    .bind (.expect _) fun _ => sequenceResult_composed _ _ _ _ _ _
  have body := lambdaBody_composed hi item
  cases m.argument with
  | none => exact .bind (.pure _) close
  | value => exact .bind (sequenceValue_composed hi _ _ _ _) fun _ => .bind (.pure _) close
  | lambda => exact .bind body fun _ => .bind (.pure _) close
  | optionalLambda =>
    refine .bind (.isSymbol _) fun _ => .ite ?_ ?_
    · exact .bind (.pure _) close
    · exact .bind body fun _ => .bind (.pure _) close

theorem overloadedCall_composed (target : Expr) (name : String) (methods : List Method)
    (args : List Expr) (offset : Nat) :
    Composed (overloadedCall target name methods args offset) := by
  refine .bind .schema fun s => ?_
  split
  · exact .pure _
  · exact .fail _ _
  · exact .fail _ _

theorem methodCall_composed (hi : Composed inner) (target : Expr) (name : String)
    (offset : Nat) : Composed (methodCall inner target name offset) := by
  unfold methodCall
  split
  · exact sequenceCall_composed hi _ _ _ _
  · exact .bind (.findMethods _ _) fun _ => .bind (argumentList_composed hi) fun _ =>
      overloadedCall_composed _ _ _ _ _

theorem memberOrCall_composed (hi : Composed inner) (target : Expr) :
    Composed (memberOrCall inner target) := by
  refine .bind .expectIdentifier fun t => .bind (.isSymbol _) fun _ => .ite ?_ ?_
  · exact methodCall_composed hi _ _ _
  · refine .bind (.findMember? _ _) fun m? => ?_
    split
    · exact .pure _
    · exact .fail _ _

theorem indexer_composed (hi : Composed inner) (target : Expr) :
    Composed (indexer inner target) := by
  refine .bind (.expect _) fun _ => .bind hi fun _ => .bind (.expect _) fun _ => ?_
  refine .bind .schema fun s => ?_
  split
  · exact .pure _
  · exact .fail _ _

/-! ## Names -/

theorem typeAccess_composed (hi : Composed inner) (ty : Ty) (name : String) (offset : Nat) :
    Composed (typeAccess inner ty name offset) := by
  refine .bind .current fun t => ?_
  split
  · refine .bind .advance fun _ => .bind .expectIdentifier fun _ => ?_
    refine .bind (.findMember? _ _) fun m? => ?_
    split
    · exact .pure _
    · exact .fail _ _
  · refine .bind (argumentList_composed hi) fun args => ?_
    split
    · exact .bound _
    · exact .fail _ _
  · exact .unexpected _

theorem choice_composed (hi : Composed inner) (offset : Nat) : Composed (choice inner offset) := by
  refine .bind (argumentList_composed hi) fun args => ?_
  split
  · exact .bound _
  · exact .bind .scope fun _ => .fail _ _

theorem contextKeyword_composed (name : String) (offset : Nat) :
    Composed (contextKeyword name offset) := by
  refine .ite ?_ (.ite ?_ (.ite ?_ (.pure _)))
  · exact .bind .scope fun _ => .pure _
  · exact .bind (parentReference_composed _ _) fun _ => .pure _
  · exact .bind .scope fun _ => .pure _

theorem implicitMember_composed (hi : Composed inner) (name : String) (offset : Nat) :
    Composed (implicitMember inner name offset) := by
  refine .bind .scope fun s => .bind (.isSymbol _) fun _ => .ite ?_ ?_
  · refine .bind (isCallable_composed _ _) fun _ => .ite ?_ (.pure _)
    exact .bind (methodCall_composed hi _ _ _) fun _ => .pure _
  · exact .bind (.findMember? _ _) fun _ => .pure _

theorem memberOrType_composed (hi : Composed inner) (name : String) (offset : Nat) :
    Composed (memberOrType inner name offset) := by
  refine .bind (implicitMember_composed hi _ _) fun e? => ?_
  split
  · exact .pure _
  · refine .bind (.findType? _) fun t? => ?_
    split
    · exact typeAccess_composed hi _ _ _
    · split
      · exact .fail _ _
      · exact .fail _ _

theorem plainName_composed (hi : Composed inner) (name : String) (offset : Nat) :
    Composed (plainName inner name offset) := by
  refine .bind (.isSymbol _) fun _ => .ite (choice_composed hi offset) ?_
  refine .bind .scope fun s => ?_
  split
  · exact .pure _
  · exact memberOrType_composed hi _ _

theorem identifier_composed (hi : Composed inner) : Composed (identifier inner) := by
  refine .bind .advance fun t => .bind .read fun c => ?_
  have plain := plainName_composed hi t.text t.offset
  refine .ite (.bind (contextKeyword_composed _ _) fun e? => ?_) plain
  split
  · exact .pure _
  · exact plain

/-! ## Projections -/

theorem fieldName_composed (e : Expr) : Composed (fieldName e) := by
  refine .bind (.isKind _) fun _ => .ite ?_ ?_
  · exact .bind .advance fun _ => .bind .expectIdentifier fun _ => .pure _
  · refine .bind .scope fun s => ?_
    split
    · exact .pure _
    · exact .unexpected _

theorem projectionField_composed (hi : Composed inner) (fields : List (String × Expr)) :
    Composed (projectionField inner fields) :=
  .bind .current fun _ => .bind hi fun e => .bind (fieldName_composed e) fun _ =>
    .ite (.fail _ _) (.pure _)

theorem projection_composed (hi : Composed inner) : Composed (projection inner) :=
  .bind (.expect _) fun _ => .bind (.expect _) fun _ =>
    .bind (.separated (projectionField_composed hi) []) fun _ => .bind (.expect _) fun _ =>
      .bind (.anonymousRecord _) fun _ => .pure _

/-! ## Primaries -/

theorem literal_composed (v : Value) : Composed (literal v) := .bind .advance fun _ => .pure _

theorem parenthesized_composed (hi : Composed inner) : Composed (parenthesized inner) :=
  .bind .advance fun _ => .bind hi fun _ => .bind (.expect _) fun _ => .pure _

theorem primaryStart_composed (hi : Composed inner) : Composed (primaryStart inner) := by
  refine .bind .current fun t => ?_
  split
  · exact numberLiteral_composed _
  · exact numberLiteral_composed _
  · exact literal_composed _
  · exact literal_composed _
  · exact literal_composed _
  · exact literal_composed _
  · exact .bind .advance fun _ => .bind .read fun _ => .lift _
  · exact .bind .advance fun _ => .bind .scope fun _ => .pure _
  · exact .bind .advance fun _ => parentReference_composed _ _
  · exact .bind .advance fun _ => .bind .scope fun _ => .pure _
  · exact parenthesized_composed hi
  · exact projection_composed hi
  · exact identifier_composed hi
  · exact .unexpected _

theorem suffixStep_composed (hi : Composed inner) (e : Expr) : Composed (suffixStep inner e) := by
  refine .bind .current fun t => ?_
  split
  · exact .bind .advance fun _ => .bind (memberOrCall_composed hi e) fun _ => .pure _
  · exact .bind (indexer_composed hi e) fun _ => .pure _
  · exact .pure _

theorem primary_composed (hi : Composed inner) : Composed (primary inner) :=
  .bind (primaryStart_composed hi) fun e => .chain (suffixStep_composed hi) e

/-! ## Operators -/

theorem signStep_composed (signs : List (UnaryOp × Nat)) : Composed (signStep signs) := by
  refine .bind .current fun t => ?_
  split
  · exact .bind .advance fun _ => .pure _
  · exact .pure _

theorem applySign_composed (e : Expr) (sign : UnaryOp × Nat) : Composed (applySign e sign) := by
  unfold applySign
  split
  · exact .bound _
  · exact .bound _

theorem unary_composed (hi : Composed inner) : Composed (unary inner) :=
  .bind (.chain signStep_composed []) fun signs => .bind (primary_composed hi) fun e =>
    .foldlM applySign_composed signs e

theorem binaryStep_composed (op? : TokenKind → Option BinaryOp) {operand : Binder Expr}
    (h : Composed operand) (left : Expr) : Composed (binaryStep op? operand left) := by
  refine .bind .current fun t => ?_
  split
  · exact .bind .advance fun _ => .bind h fun _ => .bind (.bound _) fun _ => .pure _
  · exact .pure _

theorem binaryLevel_composed (op? : TokenKind → Option BinaryOp) {operand : Binder Expr}
    (h : Composed operand) : Composed (binaryLevel op? operand) :=
  .bind h fun left => .chain (binaryStep_composed op? h) left

theorem relational_composed (hi : Composed inner) : Composed (relational inner) :=
  binaryLevel_composed _ (binaryLevel_composed _ (binaryLevel_composed _ (unary_composed hi)))

theorem membership_composed (hi : Composed inner) (item : Expr) (offset : Nat) :
    Composed (membership inner item offset) := by
  refine .bind (.isSymbol _) fun _ => .ite ?_ ?_
  · refine .bind .advance fun _ => .bind (expressionList_composed hi) fun es => ?_
    refine .bind (.expect _) fun _ => ?_
    simp only
    split
    · exact .bound _
    · refine .bind (.bound _) fun e? => ?_
      split
      · exact .pure _
      · exact .unexpected _
  · exact .bind (relational_composed hi) fun _ => .bound _

theorem equalityStep_composed (hi : Composed inner) (left : Expr) :
    Composed (equalityStep inner left) := by
  refine .bind (.isKind _) fun _ => .ite ?_ ?_
  · exact .bind .advance fun _ => .bind (membership_composed hi _ _) fun _ => .pure _
  · exact binaryStep_composed _ (relational_composed hi) left

theorem equality_composed (hi : Composed inner) : Composed (equality inner) :=
  .bind (relational_composed hi) fun left => .chain (equalityStep_composed hi) left

theorem disjunction_composed (hi : Composed inner) : Composed (disjunction inner) :=
  binaryLevel_composed _ (binaryLevel_composed _ (equality_composed hi))

theorem conditional_composed (hi : Composed inner) : Composed (conditional inner) := by
  refine .bind .current fun _ => .bind (disjunction_composed hi) fun _ => ?_
  refine .bind (.isSymbol _) fun _ => .ite ?_ (.pure _)
  exact .bind .advance fun _ => .bind hi fun _ => .bind (.expect _) fun _ => .bind hi fun _ =>
    .bound _

/-! ## Expressions -/

/-- **Expressions are made of steps.** -/
theorem expression_composed : ∀ depth, Composed (expression depth)
  | 0 => .unexpected _
  | depth + 1 => conditional_composed (expression_composed depth)

theorem anyExpression_composed : Composed anyExpression :=
  .bind .tokenCount fun n => expression_composed (n + 1)

theorem whole_composed : Composed whole :=
  .bind anyExpression_composed fun _ => .bind .expectEnd fun _ => .pure _

theorem direction_composed : Composed direction := by
  refine .bind .current fun t => .ite ?_ (.ite ?_ (.pure _))
  · exact .bind .advance fun _ => .pure _
  · exact .bind .advance fun _ => .pure _

theorem orderingClause_composed (clauses : List (Expr × Bool)) :
    Composed (orderingClause clauses) := by
  refine .bind .current fun t => .bind anyExpression_composed fun e => ?_
  have close : Composed (do
      let descending ← direction
      return clauses ++ [(e, descending)]) := .bind direction_composed fun _ => .pure _
  exact .ite (.bind (.fail _ _) fun _ => close) close

/-- **Ordering keys are made of steps.** -/
theorem ordering_composed : Composed ordering :=
  .bind (.separated orderingClause_composed []) fun _ => .bind .expectEnd fun _ => .pure _

end Grammar

end TypedExpr
