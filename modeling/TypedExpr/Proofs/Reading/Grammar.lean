import TypedExpr.Proofs.Reading.Demand

/-!
# Where the rules of the grammar go

Every rule takes at least one token before it gives an expression, and takes one before it reads an
expression inside of brackets, of a lambda or of a branch.  Its errors are at tokens that were read.

* `Grammar.Supplies`, `Grammar.Reads` — what the argument `inner` of each rule has to do.
* `Grammar.conditional_takes`, … — the rules, from the tightest to the loosest.
* `Grammar.expressionOr` — expressions with any ending below the deepest nesting.
* **`Grammar.expressionOr_takes`** — the deepest nesting is never left.
* **`Grammar.wholeOf_takes`**, **`Grammar.orderingOf_takes`** — whole texts.
-/

namespace TypedExpr.Grammar

variable {format : GuidFormat}

open Binder

variable {inner inner' : Binder Expr} {k k₀ : Cursor} {offset : Nat}

/-- Behind a token, expressions are read that take a token. -/
def Supplies (k : Cursor) (inner inner' : Binder Expr) : Prop :=
  ∀ k', k < k' → Takes k' inner inner'

/-- From the cursor on, expressions are read that take a token. -/
def Reads (k : Cursor) (x y : Binder Expr) : Prop := ∀ k', k ≤ k' → Takes k' x y

theorem Supplies.mono (hi : Supplies k₀ inner inner') (le : k₀ ≤ k) : Supplies k inner inner' :=
  fun k' lt => hi k' (le.trans_lt lt)

theorem Supplies.reads (hi : Supplies k₀ inner inner') (lt : k₀ < k) : Reads k inner inner' :=
  fun k' le => hi k' (lt.trans_le le)

theorem Reads.mono {x y : Binder Expr} (h : Reads k₀ x y) (le : k₀ ≤ k) : Reads k x y :=
  fun k' le' => h k' (le.trans le')

/-! ## Literals -/

/-- A number is left behind, and it has a value or explains why not. -/
theorem numberLiteral_takes {value? : String → Option Value} (more : k.current.kind ≠ .finish)
    (explains : ∀ k' : Cursor, k.current ∈ k'.seen → value? k.current.text = none →
      k'.Explains (.lex ⟨.invalidNumber k.current.text, k.current.offset⟩)) :
    Takes k (numberLiteral value?) (numberLiteral value?) := by
  refine .advance_bind more fun k₁ lt => ?_
  cases h : value? k.current.text with
  | some v => exact .pure lt
  | none => exact throw_proceeds (explains k₁ (Cursor.seen_subset lt.le k.current_mem_seen) h)

theorem integerLiteral_takes (kind : k.current.kind = .integer) :
    Takes k (numberLiteral integerValue?) (numberLiteral integerValue?) :=
  numberLiteral_takes (by rw [kind]; nofun) fun _ seen => .integer seen kind

theorem realLiteral_takes (kind : k.current.kind = .real) :
    Takes k (numberLiteral realValue?) (numberLiteral realValue?) :=
  numberLiteral_takes (by rw [kind]; nofun) fun _ seen => .real seen kind

theorem literal_takes (v : Value) (more : k.current.kind ≠ .finish) :
    Takes k (literal v) (literal v) :=
  .advance_bind more fun _ lt => .pure lt

/-! ## Members and calls -/

theorem parentReference_goes (keyword : String) (known : k.Known offset) :
    Goes k (parentReference keyword offset) (parentReference keyword offset) := by
  refine quiet_scope.bind fun s => ?_
  cases s.parent? with
  | some e => exact .pure trivial
  | none => exact fail_proceeds _ known

theorem quiet_isCallable (t : Ty) (name : String) : Quiet (isCallable t name) :=
  fun _ => .ite (fun _ => .pure rfl) fun _ => (quiet_findMethods t name).bind fun _ => .pure rfl

theorem listItem_takes (hi : Reads k inner inner') (es : List Expr) :
    Takes k (do return (← inner) :: es) (do return (← inner') :: es) :=
  (hi k (le_refl k)).bind fun _ _ _ lt => .pure lt

theorem expressionList_takes (hi : Reads k inner inner') :
    Takes k (expressionList inner) (expressionList inner') :=
  (separated_takes (fun _ es le => listItem_takes (hi.mono le) es) []).bind
    fun _ _ _ lt => .pure lt

theorem argumentList_takes (hi : Supplies k inner inner') :
    Takes k (argumentList inner) (argumentList inner') := by
  refine .expect_bind nofun fun k₁ lt₁ => ?_
  have close {k₂ : Cursor} (lt₂ : k < k₂) (args : List Expr) : Proceeds k₂
      (do let _ ← expect (.symbol .rightParen); return args)
      (do let _ ← expect (.symbol .rightParen); return args) fun k' _ => k < k' :=
    .expect_bind nofun fun k₃ lt₃ => .pure (lt₂.trans lt₃)
  refine ifKind_proceeds _ (fun _ => close lt₁ []) fun _ => ?_
  exact (expressionList_takes (hi.reads lt₁)).bind fun k₂ es le _ => close (lt₁.trans_le le) es

theorem lambdaName?_goes : Goes k lambdaName? lambdaName? := by
  refine ifKind_proceeds _ (fun name => ?_) fun _ => .pure trivial
  refine .peekKind_bind (by rw [name]; nofun) fun k₁ u le same looked => ?_
  refine .ite (fun arrow => ?_) fun _ => .pure trivial
  refine (advance_proceeds (by rw [same, name]; nofun)).bind fun k₂ t _ passed => ?_
  -- The arrow was looked at, so it is the current token behind the name.
  have next : k₂.current.kind = .symbol .arrow := by rw [passed.2.2.2 u looked, arrow]
  exact .advance_bind (by rw [next]; nofun) fun _ _ => .pure trivial

theorem lambdaBody_takes (hi : Reads k inner inner') (item : Ty) :
    Takes k (lambdaBody inner item) (lambdaBody inner' item) :=
  lambdaName?_goes.bind fun k₁ name le _ =>
    inScope_proceeds item name ((hi k₁ le).after le)

theorem sequenceValue_takes (hi : Reads k inner inner') (target : Expr) (item : Ty)
    (m : SequenceMethod) (known : k.Known offset) :
    Takes k (sequenceValue inner target item m offset)
      (sequenceValue inner' target item m offset) := by
  refine (hi k (le_refl k)).bind fun k₁ e le lt => quiet_schema.bind fun s => ?_
  split
  · exact .pure lt
  · exact fail_proceeds _ (known.mono le)

theorem sequenceResult_goes (target : Expr) (item : Ty) (m : SequenceMethod)
    (lambda argument : Option Expr) (known : k.Known offset) :
    Goes k (sequenceResult target item m lambda argument offset)
      (sequenceResult target item m lambda argument offset) := by
  refine quiet_scope.bind fun s => ?_
  simp only
  split
  · exact .ite (fun _ => (fail_proceeds _ known : Goes k _ _).bind fun _ _ _ _ =>
      quiet_schema.bind fun _ => .pure trivial) fun _ => quiet_schema.bind fun _ => .pure trivial
  · exact quiet_schema.bind fun _ => .pure trivial

theorem sequenceCall_takes (hi : Supplies k inner inner') (target : Expr) (item : Ty)
    (m : SequenceMethod) (known : k.Known offset) :
    Takes k (sequenceCall inner target item m offset)
      (sequenceCall inner' target item m offset) := by
  refine .expect_bind nofun fun k₁ lt₁ => .current_bind ?_
  have close {k₂ : Cursor} (le : k₁ ≤ k₂) (parts : Option Expr × Option Expr) : Proceeds k₂
      (do
        let _ ← expect (.symbol .rightParen)
        sequenceResult target item m parts.1 parts.2 k₁.current.offset)
      (do
        let _ ← expect (.symbol .rightParen)
        sequenceResult target item m parts.1 parts.2 k₁.current.offset) fun k' _ => k < k' :=
    .expect_bind nofun fun k₃ lt₃ => (sequenceResult_goes target item m _ _
      (k₁.known_current.mono (le.trans lt₃.le))).later (lt₁.trans_le (le.trans lt₃.le))
  have body := lambdaBody_takes (hi.reads lt₁) item
  have given (parts : Option Expr × Option Expr) := (Quiet.pure parts).bind (close (le_refl k₁))
  cases m.argument with
  | none => exact given _
  | value =>
    exact (sequenceValue_takes (hi.reads lt₁) target item m (known.mono lt₁.le)).bind
      fun k₂ e le _ => (Quiet.pure _).bind (close le)
  | lambda => exact body.bind fun k₂ e le _ => (Quiet.pure _).bind (close le)
  | optionalLambda =>
    refine ifKind_proceeds _ (fun _ => given _) fun _ => ?_
    exact body.bind fun k₂ e le _ => (Quiet.pure _).bind (close le)

theorem overloadedCall_goes (target : Expr) (name : String) (methods : List Method)
    (args : List Expr) (known : k.Known offset) :
    Goes k (overloadedCall target name methods args offset)
      (overloadedCall target name methods args offset) := by
  refine quiet_schema.bind fun s => ?_
  split
  · exact .pure trivial
  · exact fail_proceeds _ known
  · exact fail_proceeds _ known

theorem methodCall_takes (hi : Supplies k inner inner') (target : Expr) (name : String)
    (known : k.Known offset) :
    Takes k (methodCall inner target name offset) (methodCall inner' target name offset) := by
  have plain : Takes k
      (do
        let methods ← findMethods target.ty name
        let args ← argumentList inner
        overloadedCall target name methods args offset)
      (do
        let methods ← findMethods target.ty name
        let args ← argumentList inner'
        overloadedCall target name methods args offset) :=
    (quiet_findMethods _ _).bind fun methods => (argumentList_takes hi).bind fun k₁ args le lt =>
      (overloadedCall_goes target name methods args (known.mono le)).later lt
  unfold methodCall
  cases target.ty.element? with
  | none => exact plain
  | some item =>
    cases SequenceMethod.ofName? name with
    | none => exact plain
    | some m => exact sequenceCall_takes hi target item m known

theorem memberOrCall_takes (hi : Supplies k inner inner') (target : Expr) :
    Takes k (memberOrCall inner target) (memberOrCall inner' target) := by
  refine .expectIdentifier_bind fun k₁ lt => ?_
  have known := k.known_current.mono lt.le
  refine ifKind_proceeds _ (fun _ => ?_) fun _ => ?_
  · exact (methodCall_takes (hi.mono lt.le) target _ known).later lt
  · refine (quiet_findMember? _ _).bind fun m? => ?_
    cases m? with
    | some m => exact .pure lt
    | none => exact fail_proceeds _ known

theorem indexer_takes (hi : Supplies k inner inner') (target : Expr) :
    Takes k (indexer inner target) (indexer inner' target) := by
  refine .expect_bind nofun fun k₁ lt₁ => (hi k₁ lt₁).bind fun k₂ position le₂ _ => ?_
  refine .expect_bind nofun fun k₃ lt₃ => quiet_schema.bind fun s => ?_
  have lt := lt₁.trans_le (le₂.trans lt₃.le)
  split
  · exact .pure lt
  · exact fail_proceeds _ (k.known_current.mono lt.le)

/-! ## Names -/

theorem typeAccess_takes (hi : Supplies k inner inner') (ty : Ty) (name : String)
    (known : k.Known offset) :
    Takes k (typeAccess inner ty name offset) (typeAccess inner' ty name offset) := by
  refine .current_bind ?_
  split
  next dot =>
    refine .advance_bind (by rw [dot]; nofun) fun k₁ lt₁ => .expectIdentifier_bind fun k₂ lt₂ => ?_
    refine (quiet_findMember? _ _).bind fun m? => ?_
    split
    · exact .pure (lt₁.trans lt₂)
    · exact fail_proceeds _ (k₁.known_current.mono lt₂.le)
  next =>
    refine (argumentList_takes hi).bind fun k₁ args le lt => ?_
    split
    · exact bound_proceeds (fun s => Binding.explicitConversion_moves ty) (known.mono le)
        fun _ => lt
    · exact fail_proceeds _ (known.mono le)
  next => exact unexpected_proceeds _

theorem choice_takes (hi : Supplies k inner inner') (known : k.Known offset) :
    Takes k (choice inner offset) (choice inner' offset) := by
  refine (argumentList_takes hi).bind fun k₁ args le lt => ?_
  split
  · exact bound_proceeds (fun s => Binding.conditional_moves) (known.mono le) fun _ => lt
  · exact quiet_scope.bind fun s => fail_proceeds _ (known.mono le)

theorem contextKeyword_goes (name : String) (known : k.Known offset) :
    Goes k (contextKeyword name offset) (contextKeyword name offset) := by
  refine .ite (fun _ => ?_) fun _ => .ite (fun _ => ?_) fun _ => .ite (fun _ => ?_) fun _ => ?_
  · exact quiet_scope.bind fun _ => .pure trivial
  · exact (parentReference_goes name known).bind fun _ _ _ _ => .pure trivial
  · exact quiet_scope.bind fun _ => .pure trivial
  · exact .pure trivial

theorem implicitMember_goes (hi : Supplies k inner inner') (name : String)
    (known : k.Known offset) :
    Goes k (implicitMember inner name offset) (implicitMember inner' name offset) := by
  refine quiet_scope.bind fun s => ifKind_proceeds _ (fun _ => ?_) fun _ => ?_
  · refine (quiet_isCallable _ _).bind fun _ => .ite (fun _ => ?_) fun _ => .pure trivial
    exact (methodCall_takes hi _ name known).bind fun _ _ _ _ => .pure trivial
  · exact (quiet_findMember? _ _).bind fun _ => .pure trivial

theorem memberOrType_goes (hi : Supplies k inner inner') (name : String)
    (known : k.Known offset) :
    Goes k (memberOrType inner name offset) (memberOrType inner' name offset) := by
  refine (implicitMember_goes hi name known).bind fun k₁ e? le _ => ?_
  cases e? with
  | some e => exact .pure trivial
  | none =>
    refine (quiet_findType? name).bind fun ty? => ?_
    cases ty? with
    | some ty =>
      exact (typeAccess_takes (hi.mono le) ty name (known.mono le)).mono fun _ _ _ _ => trivial
    | none =>
      simp only
      split
      · exact fail_proceeds _ (known.mono le)
      · exact fail_proceeds _ (known.mono le)

theorem plainName_goes (hi : Supplies k inner inner') (name : String) (known : k.Known offset) :
    Goes k (plainName inner name offset) (plainName inner' name offset) := by
  refine .isKind_bind _ (.ite (fun _ => ?_) fun _ => ?_)
  · exact (choice_takes hi known).mono fun _ _ _ _ => trivial
  · refine quiet_scope.bind fun s => ?_
    cases s.resolve? name with
    | some e => exact .pure trivial
    | none => exact memberOrType_goes hi name known

theorem identifier_takes (hi : Supplies k inner inner') (more : k.current.kind ≠ .finish) :
    Takes k (identifier inner) (identifier inner') := by
  refine .advance_bind more fun k₁ lt => .read_bind fun c m => ?_
  have known := k.known_current.mono lt.le
  have plain := (plainName_goes (hi.mono lt.le) k.current.text known).later lt
  refine .ite (fun _ => ?_) fun _ => plain
  refine (contextKeyword_goes k.current.text known).bind fun k₂ e? le _ => ?_
  cases e? with
  | some e => exact .pure (lt.trans_le le)
  | none =>
    exact (plainName_goes (hi.mono (lt.le.trans le)) k.current.text (known.mono le)).later
      (lt.trans_le le)

/-! ## Projections -/

theorem fieldName_goes (e : Expr) : Goes k (fieldName e) (fieldName e) := by
  refine ifKind_proceeds _ (fun as' => ?_) fun _ => ?_
  · refine .advance_bind (by rw [as']; nofun) fun k₁ _ => ?_
    exact .expectIdentifier_bind fun _ _ => .pure trivial
  · refine quiet_scope.bind fun s => ?_
    split
    · exact .pure trivial
    · exact unexpected_proceeds _

theorem projectionField_takes (hi : Reads k inner inner') (fields : List (String × Expr)) :
    Takes k (projectionField inner fields) (projectionField inner' fields) := by
  refine .current_bind ((hi k (le_refl k)).bind fun k₁ e le₁ lt => ?_)
  refine (fieldName_goes e).bind fun k₂ name le₂ _ => ?_
  exact .ite (fun _ => fail_proceeds _ (k.known_current.mono (le₁.trans le₂))) fun _ =>
    .pure (lt.trans_le le₂)

theorem projection_takes (hi : Supplies k inner inner') :
    Takes k (projection inner) (projection inner') := by
  refine .expect_bind nofun fun k₁ lt₁ => .expect_bind nofun fun k₂ lt₂ => ?_
  have opened := lt₁.trans lt₂
  have fields : Takes k₂ (separated (projectionField inner) [])
      (separated (projectionField inner') []) :=
    separated_takes
      (fun _ fields le => projectionField_takes (hi.reads (opened.trans_le le)) fields) []
  refine fields.bind fun k₃ _ le _ => .expect_bind nofun fun k₄ lt₄ => ?_
  exact (quiet_anonymousRecord _).bind fun d => .pure ((opened.trans_le le).trans lt₄)

/-! ## Primaries -/

theorem parenthesized_takes (hi : Supplies k inner inner') (more : k.current.kind ≠ .finish) :
    Takes k (parenthesized inner) (parenthesized inner') :=
  .advance_bind more fun k₁ lt₁ => (hi k₁ lt₁).bind fun _ _ le _ =>
    .expect_bind nofun fun _ lt => .pure ((lt₁.trans_le le).trans lt)

theorem primaryStart_takes (hi : Supplies k inner inner') :
    Takes k (primaryStart inner) (primaryStart inner') := by
  refine .current_bind ?_
  split
  next kind => exact integerLiteral_takes kind
  next kind => exact realLiteral_takes kind
  next kind => exact literal_takes _ (by rw [kind]; nofun)
  next kind => exact literal_takes _ (by rw [kind]; nofun)
  next kind => exact literal_takes _ (by rw [kind]; nofun)
  next kind => exact literal_takes _ (by rw [kind]; nofun)
  next index kind =>
    refine .advance_bind (by rw [kind]; nofun) fun k₁ lt => .read_bind fun c m => ?_
    exact lift_proceeds (Binding.parameter_moves c.params index) (k.known_current.mono lt.le)
      fun _ => lt
  next kind =>
    exact .advance_bind (by rw [kind]; nofun) fun _ lt => quiet_scope.bind fun _ => .pure lt
  next kind =>
    exact .advance_bind (by rw [kind]; nofun) fun _ lt =>
      (parentReference_goes "^" (k.known_current.mono lt.le)).later lt
  next kind =>
    exact .advance_bind (by rw [kind]; nofun) fun _ lt => quiet_scope.bind fun _ => .pure lt
  next kind => exact parenthesized_takes hi (by rw [kind]; nofun)
  next => exact projection_takes hi
  next kind => exact identifier_takes hi (by rw [kind]; nofun)
  next => exact unexpected_proceeds _

/-- What a chain of expressions keeps: nothing. -/
abbrev Free : Cursor → Expr → Prop := fun _ _ => True

theorem suffixStep_steps (hi : Supplies k inner inner') (e : Expr) :
    Steps Free k e (suffixStep inner e) (suffixStep inner' e) := by
  refine .current_bind ?_
  split
  next dot =>
    refine .advance_bind (by rw [dot]; nofun) fun k₁ lt => ?_
    exact (memberOrCall_takes (hi.mono lt.le) e).bind fun _ _ le _ =>
      .pure ⟨fun _ => lt.trans_le le, trivial⟩
  next => exact (indexer_takes hi e).bind fun _ _ _ lt => .pure ⟨fun _ => lt, trivial⟩
  next => exact .pure ⟨nofun, trivial⟩

theorem primary_takes (hi : Supplies k inner inner') :
    Takes k (primary inner) (primary inner') :=
  (primaryStart_takes hi).bind fun _ _ _ lt =>
    (chain_proceeds (fun _ e le => fun _ => suffixStep_steps (hi.mono (lt.le.trans le)) e)
      trivial).later lt

/-! ## Operators -/

/-- The positions of the signs in front of an operand are known. -/
def KnownSigns (k : Cursor) (signs : List (UnaryOp × Nat)) : Prop :=
  ∀ sign ∈ signs, k.Known sign.2

theorem signStep_steps {signs : List (UnaryOp × Nat)} (known : KnownSigns k signs) :
    Steps KnownSigns k signs (signStep signs) (signStep signs) := by
  refine .current_bind ?_
  cases op : unaryOp? k.current.kind with
  | some sign =>
    have more : k.current.kind ≠ .finish := by
      intro last
      rw [last] at op
      cases op
    refine .advance_bind more fun k₁ lt => .pure ⟨fun _ => lt, ?_⟩
    exact List.forall_mem_cons.2 ⟨k.known_current.mono lt.le,
      fun sign among => (known sign among).mono lt.le⟩
  | none => exact .pure ⟨nofun, known⟩

theorem applySign_proceeds (e : Expr) {sign : UnaryOp × Nat} (known : k.Known sign.2) :
    Proceeds k (applySign e sign) (applySign e sign) fun k' _ => k' = k := by
  unfold applySign
  split
  · exact bound_proceeds (fun _ => Binding.negate_moves) known fun _ => rfl
  · exact bound_proceeds (fun _ => Binding.complement_moves) known fun _ => rfl

theorem unary_takes (hi : Supplies k inner inner') : Takes k (unary inner) (unary inner') := by
  refine (chain_proceeds (fun _ _ _ => signStep_steps) (List.forall_mem_nil _)).bind
    fun k₁ signs le₁ known => ?_
  refine (primary_takes (hi.mono le₁)).bind fun k₂ e le₂ lt => ?_
  exact foldlM_proceeds (fun b sign among => applySign_proceeds b ((known sign among).mono le₂))
    (fun _ => le₁.trans_lt lt) e

section Levels

variable {op? : TokenKind → Option BinaryOp} {operand operand' : Binder Expr}

theorem binaryStep_steps (ends : op? .finish = none) (operands : Reads k operand operand')
    (left : Expr) :
    Steps Free k left (binaryStep op? operand left) (binaryStep op? operand' left) := by
  refine .current_bind ?_
  cases found : op? k.current.kind with
  | some op =>
    have more : k.current.kind ≠ .finish := by
      intro last
      rw [last, ends] at found
      cases found
    refine .advance_bind more fun k₁ lt => (operands k₁ lt.le).bind fun k₂ right le₂ _ => ?_
    have known := k.known_current.mono (lt.le.trans le₂)
    have result : Goes k₂ (bound (Binding.binary · op left right k.current.offset))
        (bound (Binding.binary · op left right k.current.offset)) :=
      bound_proceeds (fun _ => Binding.binary_moves op) known fun _ => trivial
    exact result.bind fun k₃ _ le₃ _ =>
      .pure ⟨fun _ => lt.trans_le (le₂.trans le₃), trivial⟩
  | none => exact .pure ⟨nofun, trivial⟩

/-- A level takes what its first operand takes, and more. -/
theorem binaryLevel_takes (ends : op? .finish = none) (operands : Reads k operand operand') :
    Takes k (binaryLevel op? operand) (binaryLevel op? operand') :=
  (operands k (le_refl k)).bind fun _ _ _ lt =>
    (chain_proceeds (fun _ left le _ => binaryStep_steps ends (operands.mono (lt.le.trans le)) left)
      trivial).later lt

end Levels

theorem multiplicative_takes (hi : Supplies k inner inner') :
    Takes k (multiplicative inner) (multiplicative inner') :=
  binaryLevel_takes rfl fun _ le => unary_takes (hi.mono le)

theorem additive_takes (hi : Supplies k inner inner') :
    Takes k (additive inner) (additive inner') :=
  binaryLevel_takes rfl fun _ le => multiplicative_takes (hi.mono le)

theorem relational_takes (hi : Supplies k inner inner') :
    Takes k (relational inner) (relational inner') :=
  binaryLevel_takes rfl fun _ le => additive_takes (hi.mono le)

theorem membership_takes (hi : Supplies k inner inner') (item : Expr) (known : k.Known offset) :
    Takes k (membership inner item offset) (membership inner' item offset) := by
  refine ifKind_proceeds _ (fun paren => ?_) fun _ => ?_
  · refine .advance_bind (by rw [paren]; nofun) fun k₁ lt₁ => ?_
    refine (expressionList_takes (hi.reads lt₁)).bind fun k₂ es le₂ _ => ?_
    refine .expect_bind nofun fun k₃ lt₃ => ?_
    have lt := (lt₁.trans_le le₂).trans lt₃
    simp only
    split
    · exact bound_proceeds (fun _ => Binding.contains_moves) (known.mono lt.le) fun _ => lt
    · have result : Goes k₃ (bound (Binding.oneOf · item es offset))
          (bound (Binding.oneOf · item es offset)) :=
        bound_proceeds (fun _ => Binding.oneOf_moves es) (known.mono lt.le) fun _ => trivial
      refine result.bind fun k₄ e? le₄ _ => ?_
      cases e? with
      | some e => exact .pure (lt.trans_le le₄)
      | none => exact unexpected_proceeds _
  · exact (relational_takes hi).bind fun k₁ _ le lt =>
      bound_proceeds (fun _ => Binding.contains_moves) (known.mono le) fun _ => lt

theorem equalityStep_steps (hi : Supplies k inner inner') (left : Expr) :
    Steps Free k left (equalityStep inner left) (equalityStep inner' left) := by
  refine ifKind_proceeds _ (fun isIn => ?_) fun _ => ?_
  · refine .advance_bind (by rw [isIn]; nofun) fun k₁ lt => ?_
    exact (membership_takes (hi.mono lt.le) left (k.known_current.mono lt.le)).bind
      fun _ _ le _ => .pure ⟨fun _ => lt.trans_le le, trivial⟩
  · exact binaryStep_steps rfl (fun _ le => relational_takes (hi.mono le)) left

theorem equality_takes (hi : Supplies k inner inner') :
    Takes k (equality inner) (equality inner') :=
  (relational_takes hi).bind fun _ _ _ lt =>
    (chain_proceeds (fun _ left le _ => equalityStep_steps (hi.mono (lt.le.trans le)) left)
      trivial).later lt

theorem conjunction_takes (hi : Supplies k inner inner') :
    Takes k (conjunction inner) (conjunction inner') :=
  binaryLevel_takes rfl fun _ le => equality_takes (hi.mono le)

theorem disjunction_takes (hi : Supplies k inner inner') :
    Takes k (disjunction inner) (disjunction inner') :=
  binaryLevel_takes rfl fun _ le => conjunction_takes (hi.mono le)

/-- **An expression takes a token, if the expressions inside of it do.** -/
theorem conditional_takes (hi : Supplies k inner inner') :
    Takes k (conditional inner) (conditional inner') := by
  refine .current_bind ((disjunction_takes hi).bind fun k₁ test le₁ lt₁ => ?_)
  refine ifKind_proceeds _ (fun question => ?_) fun _ => .pure lt₁
  refine .advance_bind (by rw [question]; nofun) fun k₂ lt₂ => ?_
  refine (hi k₂ (lt₁.trans lt₂)).bind fun k₃ a le₃ _ => .expect_bind nofun fun k₄ lt₄ => ?_
  have lt := ((lt₁.trans lt₂).trans_le le₃).trans lt₄
  refine (hi k₄ lt).bind fun k₅ b le₅ _ => ?_
  exact bound_proceeds (fun _ => Binding.conditional_moves)
    (k.known_current.mono (lt.le.trans le₅)) fun _ => lt.trans_le le₅

/-! ## Expressions -/

/-- Expressions with at most `depth` levels of nesting, and `last` below the deepest one. -/
def expressionOr (last : Binder Expr) : (depth : Nat) → Binder Expr
  | 0 => last
  | depth + 1 => conditional (expressionOr last depth)

theorem expression_eq : ∀ depth, expression depth = expressionOr (unexpected "expression") depth
  | 0 => rfl
  | depth + 1 => congrArg conditional (expression_eq depth)

/-- **Below the number of tokens to come, no nesting is reached**, so that it does not matter how
deep the bounds are and what is below them. -/
theorem expressionOr_takes (last last' : Binder Expr) {depth depth' : Nat}
    (enough : k.upcoming.length < depth) (enough' : k.upcoming.length < depth') :
    Takes k (expressionOr last depth) (expressionOr last' depth') := by
  induction depth generalizing k depth' with
  | zero => exact absurd enough (Nat.not_lt_zero _)
  | succ depth ih =>
    obtain ⟨depth', rfl⟩ := Nat.exists_eq_succ_of_ne_zero (Nat.ne_zero_of_lt enough')
    -- An expression inside of this one stands behind a token, so that fewer tokens are to come.
    refine conditional_takes fun k' lt => ?_
    have fewer := Cursor.upcoming_lt lt
    exact ih (by omega) (by omega)

/-- An expression, with a nesting as deep as the number of tokens. -/
def anyExpressionOr (last : Binder Expr) : Binder Expr := do
  expressionOr last ((← tokenCount) + 1)

theorem anyExpressionOr_takes (last last' : Binder Expr) :
    Takes k (anyExpressionOr last) (anyExpressionOr last') :=
  .tokenCount_bind fun _ _ enough enough' =>
    expressionOr_takes last last' (Nat.lt_succ_of_le enough) (Nat.lt_succ_of_le enough')

theorem anyExpression_eq : anyExpression = anyExpressionOr (unexpected "expression") := by
  unfold anyExpression anyExpressionOr
  simp only [expression_eq]

/-- A whole text, with a part of the grammar that reads an expression. -/
def wholeOf (expr : Binder Expr) : Binder Expr := do
  let e ← expr
  expectEnd
  return e

/-- One more ordering key. -/
def orderingClauseOf (expr : Binder Expr) (clauses : List (Expr × Bool)) :
    Binder (List (Expr × Bool)) := do
  let offset := (← current).offset
  let e ← expr
  if !e.ty.isComparable then fail (.typeMismatch "an ordered type" e.ty) offset
  let descending ← direction
  return clauses ++ [(e, descending)]

/-- A whole text as ordering keys. -/
def orderingOf (expr : Binder Expr) : Binder (List (Expr × Bool)) := do
  let clauses ← separated (orderingClauseOf expr) []
  expectEnd
  return clauses

variable {expr expr' : Binder Expr}

/-- **A whole text takes all tokens up to the end.** -/
theorem wholeOf_takes (h : Takes k expr expr') : Proceeds k (wholeOf expr) (wholeOf expr')
    fun k' _ => k < k' ∧ k'.current.kind = .finish :=
  h.bind fun _ _ _ lt => .expectEnd_bind fun last => .pure ⟨lt, last⟩

theorem direction_goes : Goes k direction direction := by
  refine .current_bind ?_
  have word {text : String} (is : k.current.isWord text = true) : k.current.kind ≠ .finish := by
    intro last
    rw [Token.isWord, last] at is
    cases is
  refine .ite (fun asc => ?_) fun _ => .ite (fun desc => ?_) fun _ => .pure trivial
  · exact .advance_bind ((Bool.or_eq_true_iff.1 asc).elim word word) fun _ _ => .pure trivial
  · exact .advance_bind ((Bool.or_eq_true_iff.1 desc).elim word word) fun _ _ => .pure trivial

theorem orderingClauseOf_takes (h : Takes k expr expr') (clauses : List (Expr × Bool)) :
    Takes k (orderingClauseOf expr clauses) (orderingClauseOf expr' clauses) := by
  refine .current_bind (h.bind fun k₁ e le₁ lt => ?_)
  have close : Goes k₁ (do let descending ← direction; return clauses ++ [(e, descending)])
      (do let descending ← direction; return clauses ++ [(e, descending)]) :=
    direction_goes.bind fun _ _ _ _ => .pure trivial
  refine .ite (fun _ => ?_) fun _ => close.later lt
  exact (fail_proceeds _ (k.known_current.mono le₁) : Goes k₁ _ _).bind
    fun _ _ le _ => direction_goes.bind fun _ _ le' _ => .pure (lt.trans_le (le.trans le'))

/-- **Ordering keys take all tokens up to the end.** -/
theorem orderingOf_takes (h : ∀ k', k ≤ k' → Takes k' expr expr') :
    Proceeds k (orderingOf expr) (orderingOf expr')
      fun k' _ => k < k' ∧ k'.current.kind = .finish :=
  (separated_takes (fun k' clauses le => orderingClauseOf_takes (h k' le) clauses) []).bind
    fun _ _ _ lt => .expectEnd_bind fun last => .pure ⟨lt, last⟩

end TypedExpr.Grammar
