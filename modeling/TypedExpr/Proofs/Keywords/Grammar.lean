import TypedExpr.Proofs.Keywords.Following

/-!
# Following an expression

A text that is read as an expression is read as the same one with signs for its context keywords.  A
rule for an operand may end in front of what stands behind no operand; every rule that comes next
fails there, or ends there too.

* `Grammar.argumentList_trails`, `Grammar.plainName_trails`, … — one lemma for each rule.
* **`Grammar.primaryStart_trails`** — where the two runs read different tokens.
* **`Grammar.expression_trails`**, `Grammar.ordering_trails` — whole expressions, ordering keys.
-/

namespace TypedExpr.Grammar

variable {format : GuidFormat}

open Binder

variable {on a b named : Bool} {inner : Binder Expr}

/-! ## Members and calls -/

theorem parentReference_trails {P : BindState → BindState → Prop} (keyword : String)
    (offset : Nat) : Trails on a P (parentReference keyword offset) a P := by
  refine scope_trails.bind fun s => ?_
  split
  · exact .pure _
  · exact fail_trails _ _

theorem isCallable_trails (t : Ty) (name : String) : Tracks on a a (isCallable t name) := by
  unfold isCallable
  split
  · exact .pure _
  · exact (findMethods_trails t name).bind fun _ => .pure _

theorem expressionList_trails (hi : TracksOperand on inner) :
    TracksOperand on (expressionList inner) :=
  (separated_trails (fun _ => hi.bind fun _ => .pure _) []).bind fun _ => .pure _

theorem argumentList_trails (hi : TracksOperand on inner) :
    Tracks on a b (argumentList inner) := by
  refine (expect_trails (κ := .symbol .leftParen) (b := false) rfl nofun).bind fun _ => ?_
  have close (args : List Expr) : Tracks on true b (do
      let _ ← expect (.symbol .rightParen)
      return args) :=
    (expect_trails (κ := .symbol .rightParen) rfl nofun).bind fun _ => .pure _
  refine ifSymbol_trails rfl ?_ ((expressionList_trails hi).bind close)
  exact ((Trails.pure _).bind fun args => (close args).start).abreast

theorem lambdaName?_of_kind {c : BindContext} {s : BindState}
    (other : (headToken s.tokens).kind ≠ .identifier) : lambdaName? c s = (.ok none, s) := by
  show (if ((headToken s.tokens).kind == .identifier) = true then _ else (pure none : Binder _)) c s
    = _
  rw [beq_false_of_ne other]
  rfl

theorem lambdaName?_cons {c : BindContext} {s : BindState} {t u : Token} {rest : List Token}
    (tokens : s.tokens = t :: u :: rest) (kind : t.kind = .identifier) :
    lambdaName? c s = (if u.kind = .symbol .arrow then (do
        let name ← advance
        let _ ← advance
        return some name.text)
      else pure none : Binder _) c s := by
  obtain ⟨_, w⟩ := s
  cases tokens
  have peek : Runs c peekKind ⟨t :: u :: rest, w⟩ u.kind ⟨t :: u :: rest, w⟩ := rfl
  unfold lambdaName?
  rw [Runs.bind_eq (runs_isKind _), kind, beq_self_eq_true, if_pos rfl, Runs.bind_eq peek]

/-- The name in front of an arrow is there in both runs or in none. -/
theorem lambdaName?_trails : Tracks on false b lambdaName? where
  stays blocked := (not_blocked_false blocked).elim
  keeps := by
    intro c c' s s' t v peers hs run
    by_cases kind : (headToken s.tokens).kind = .identifier
    case neg =>
      have head := (hs.abreast (Token.contextSign?_of_kind kind)).head
      rw [lambdaName?_of_kind kind] at run
      cases run
      exact Or.inr ⟨s', lambdaName?_of_kind (by rwa [head]), hs⟩
    obtain ⟨u, u', rest, tokens⟩ := hs.more (by rw [kind]; rintro ⟨⟩)
    obtain ⟨first, second, shadow⟩ := hs.step tokens c c'
    rw [tokens] at kind
    change u.kind = .identifier at kind
    obtain ⟨x, x', rest', tokens', head, behind⟩ := hs.two tokens
    rw [lambdaName?_cons tokens kind] at run
    by_cases arrow : u'.kind = .symbol .arrow
    · obtain rfl := head arrow
      obtain ⟨y, u₂, rest₂, more⟩ := shadow.more (by
        rw [show (headToken (u' :: rest)).kind = _ from arrow]
        exact nofun)
      obtain ⟨first₂, second₂, shadow₂⟩ := shadow.step more c c'
      obtain ⟨rfl, -⟩ := List.cons.inj more
      rw [if_pos arrow, Runs.bind_eq first, Runs.bind_eq first₂] at run
      cases run
      rw [lambdaName?_cons tokens' kind, if_pos (behind.2 arrow), Runs.bind_eq second,
        Runs.bind_eq second₂, tokens']
      rw [arrow] at shadow₂ ⊢
      exact Or.inr ⟨_, rfl, shadow₂⟩
    · rw [if_neg arrow] at run
      cases run
      refine Or.inr ⟨s', ?_, hs⟩
      by_cases kind' : x.kind = .identifier
      · rw [lambdaName?_cons tokens' kind', if_neg fun h => arrow (behind.1 h)]
        rfl
      · exact lambdaName?_of_kind (by rwa [tokens'])

theorem lambdaBody_trails (hi : TracksOperand on inner) (item : Ty) :
    TracksOperand on (lambdaBody inner item) :=
  lambdaName?_trails.bind fun _ => inScope_trails hi

theorem sequenceValue_trails (hi : TracksOperand on inner) (target : Expr) (item : Ty)
    (m : SequenceMethod) (offset : Nat) :
    TracksOperand on (sequenceValue inner target item m offset) := by
  refine hi.bind fun e => schema_trails.bind fun s => ?_
  split
  · exact .pure _
  · exact fail_trails _ _

theorem sequenceResult_trails (target : Expr) (item : Ty) (m : SequenceMethod)
    (lambda argument : Option Expr) (offset : Nat) :
    Tracks on a a (sequenceResult target item m lambda argument offset) := by
  refine scope_trails.bind fun s => ?_
  simp only
  split
  · split
    · exact (fail_trails (b := a) (Q := Shadow on false) _ _).bind fun _ =>
        schema_trails.bind fun _ => .pure _
    · exact schema_trails.bind fun _ => .pure _
  · exact schema_trails.bind fun _ => .pure _

theorem sequenceCall_trails (hi : TracksOperand on inner) (target : Expr) (item : Ty)
    (m : SequenceMethod) (offset : Nat) :
    Tracks on a b (sequenceCall inner target item m offset) := by
  refine (expect_trails (κ := .symbol .leftParen) (b := false) rfl nofun).bind fun _ => ?_
  refine current_blind (fun t u same => by simp only [same]) fun t => ?_
  have close (parts : Option Expr × Option Expr) : Tracks on true b (do
      let _ ← expect (.symbol .rightParen)
      sequenceResult target item m parts.1 parts.2 t.offset) :=
    (expect_trails (κ := .symbol .rightParen) rfl nofun).bind fun _ =>
      sequenceResult_trails _ _ _ _ _ _
  have body := lambdaBody_trails hi item
  cases m.argument with
  | none => exact (Trails.pure _).bind fun parts => (close parts).start
  | value =>
    exact (sequenceValue_trails hi _ _ _ _).bind fun _ => (Trails.pure _).bind close
  | lambda => exact body.bind fun _ => (Trails.pure _).bind close
  | optionalLambda =>
    refine ifSymbol_trails rfl ?_ (body.bind fun _ => (Trails.pure _).bind close)
    exact ((Trails.pure _).bind fun parts => (close parts).start).abreast

theorem overloadedCall_trails (target : Expr) (name : String) (methods : List Method)
    (args : List Expr) (offset : Nat) :
    Tracks on a a (overloadedCall target name methods args offset) := by
  refine schema_trails.bind fun s => ?_
  split
  · exact .pure _
  · exact fail_trails _ _
  · exact fail_trails _ _

theorem methodCall_trails (hi : TracksOperand on inner) (target : Expr) (name : String)
    (offset : Nat) : Tracks on a b (methodCall inner target name offset) := by
  unfold methodCall
  split
  · exact sequenceCall_trails hi _ _ _ _
  · exact (findMethods_trails _ _).bind fun _ => (argumentList_trails hi).bind fun _ =>
      overloadedCall_trails _ _ _ _ _

/-- What stands behind a dot, where the name is the name of a member. -/
theorem memberOrCall_trails (hi : TracksOperand on inner) (target : Expr) :
    Trails on false (Shadow on true) (memberOrCall inner target) b (Shadow on false) := by
  refine expectIdentifier_trails.bind fun t => ifSymbol_trails (a := b) rfl ?_ ?_
  · exact (methodCall_trails hi _ _ _).abreast
  · refine (findMember?_trails _ _).bind fun m? => ?_
    split
    · exact .pure _
    · exact fail_trails _ _

theorem indexer_trails (hi : TracksOperand on inner) (target : Expr) :
    Tracks on a b (indexer inner target) := by
  refine (expect_trails (κ := .symbol .leftBracket) (b := false) rfl nofun).bind fun _ => ?_
  refine hi.bind fun _ => ?_
  refine (expect_trails (κ := .symbol .rightBracket) (b := b) rfl nofun).bind fun _ => ?_
  refine schema_trails.bind fun s => ?_
  split
  · exact .pure _
  · exact fail_trails _ _

/-! ## Names -/

theorem typeAccess_trails (hi : TracksOperand on inner) (ty : Ty) (name : String)
    (offset : Nat) : Tracks on a b (typeAccess inner ty name offset) := by
  refine current_steady (y := unexpected "'.' or '(' after type name") (fun t _ => ?_)
    (fun t unsteady => ?_) (unexpected_trails _)
  · split
    next dot =>
      rw [dot]
      refine (advance_trails (κ := .symbol .dot) (b := false) nofun).bind fun _ => ?_
      refine (expectIdentifier_trails (b := b)).bind fun _ => ?_
      refine (findMember?_trails _ _).bind fun m? => ?_
      split
      · exact .pure _
      · exact fail_trails _ _
    next paren =>
      refine Trails.abreast ?_
      refine (argumentList_trails (b := b) hi).bind fun args => ?_
      split
      · exact bound_trails _
      · exact fail_trails _ _
    next => exact unexpected_trails _
  · split
    next dot =>
      rw [dot] at unsteady
      cases unsteady
    next paren =>
      rw [paren] at unsteady
      cases unsteady
    next => rfl

theorem choice_trails (hi : TracksOperand on inner) (offset : Nat) :
    Tracks on a b (choice inner offset) := by
  refine (argumentList_trails (b := b) hi).bind fun args => ?_
  split
  · exact bound_trails _
  · exact scope_trails.bind fun _ => fail_trails _ _

theorem contextKeyword_trails (name : String) (offset : Nat) :
    Tracks on a a (contextKeyword name offset) := by
  unfold contextKeyword
  split
  · exact scope_trails.bind fun _ => .pure _
  · split
    · exact (parentReference_trails _ _).bind fun _ => .pure _
    · split
      · exact scope_trails.bind fun _ => .pure _
      · exact .pure _

theorem implicitMember_trails (hi : TracksOperand on inner) (name : String)
    (offset : Nat) : Tracks on a a (implicitMember inner name offset) := by
  refine scope_trails.bind fun s => ifSymbol_trails rfl ?_ ?_
  · refine Trails.abreast ?_
    refine (isCallable_trails _ _).bind fun callable => ?_
    split
    · exact (methodCall_trails hi _ _ _).bind fun _ => .pure _
    · exact .free (.pure _)
  · exact (findMember?_trails _ _).bind fun _ => .pure _

theorem memberOrType_trails (hi : TracksOperand on inner) (name : String) (offset : Nat) :
    Tracks on a a (memberOrType inner name offset) := by
  refine (implicitMember_trails hi _ _).bind fun e? => ?_
  split
  · exact .pure _
  · refine (findType?_trails _).bind fun t? => ?_
    split
    · exact typeAccess_trails hi _ _ _
    · split
      · exact fail_trails _ _
      · exact fail_trails _ _

theorem plainName_trails (hi : TracksOperand on inner) (name : String) (offset : Nat) :
    Tracks on a a (plainName inner name offset) := by
  have member : Tracks on a a (memberOrType inner name offset) := memberOrType_trails hi _ _
  unfold plainName
  cases Text.eqIgnoreCase name "iif" with
  | true =>
    simp only [Bool.true_and]
    refine ifSymbol_trails rfl (choice_trails hi offset).abreast (scope_trails.bind fun s => ?_)
    split
    · exact .pure _
    · exact member
  | false =>
    simp only [Bool.false_and, Bool.false_eq_true, if_false]
    refine unusedSymbol_trails (scope_trails.bind fun s => ?_)
    split
    · exact .pure _
    · exact member

/-- What the sign of a context keyword stands for; the name is for the message. -/
def reference [GuidFormat] (name : String) (offset : Nat) : Symbol → Binder Expr
  | .caret => parentReference name offset
  | .tilde => do return (← scope).root
  | _ => do return (← scope).current

/-- The reference depends on the scope alone. -/
theorem reference_moves {c c' : BindContext} {s t s' : BindState} {name : String} {offset : Nat}
    {sign : Symbol} {e : Expr} (same : c'.scope = c.scope)
    (h : reference name offset sign c s = (.ok e, t)) (name' : String) (offset' : Nat) :
    s = t ∧ reference name' offset' sign c' s' = (.ok e, s') := by
  unfold reference parentReference at h ⊢
  split at h
  · rw [Runs.bind_eq runs_scope] at h ⊢
    rw [same]
    cases parent : c.scope.parent? with
    | some e' =>
      rw [parent] at h
      cases h
      exact ⟨rfl, rfl⟩
    | none =>
      rw [parent] at h
      cases h
  all_goals
    cases h
    rw [Runs.bind_eq runs_scope, same]
    exact ⟨rfl, rfl⟩

/-- A context keyword stands for what its sign stands for. -/
theorem contextKeyword_eq {t : Token} (kind : t.kind = .identifier) (offset : Nat) :
    contextKeyword t.text offset = match t.contextSign? with
      | some sign => do return some (← reference t.text offset sign)
      | none => return none := by
  unfold contextKeyword Token.contextSign? contextSigns Token.isWord
  simp only [kind, beq_self_eq_true, Bool.true_and, List.find?_cons, List.find?_nil]
  cases Text.eqIgnoreCase t.text "it" with
  | true => rfl
  | false =>
    cases Text.eqIgnoreCase t.text "parent" with
    | true => rfl
    | false => cases Text.eqIgnoreCase t.text "root" <;> rfl

/-- Behind its token, a name is a context keyword if these are enabled, or else a plain one. -/
theorem identifier_eq {c : BindContext} {s t : BindState} {u : Token}
    (left : advance c s = (.ok u, t)) :
    identifier inner c s = (if c.contextKeywords = true then do
        if let some e ← contextKeyword u.text u.offset then return e
        plainName inner u.text u.offset
      else plainName inner u.text u.offset) c t :=
  Runs.bind_eq left

/-- In front of a place from where the run is bound to fail, a name does not lead on. -/
theorem identifier_stays (hi : TracksOperand on inner) {c : BindContext} {s s₁ t : BindState}
    {u : Token} {e : Expr} (left : advance c s = (.ok u, s₁)) (blocked : Blocked true s₁.tokens)
    (run : identifier inner c s = (.ok e, t)) : Blocked true t.tokens := by
  have plain : Tracks on true true (plainName inner u.text u.offset) := plainName_trails hi _ _
  rw [identifier_eq left] at run
  split at run
  · refine Trails.stays (?_ : Tracks on true true _) blocked run
    refine (contextKeyword_trails _ _).bind fun e? => ?_
    split
    · exact .pure _
    · exact plain
  · exact plain.stays blocked run

/-- A name that is no context keyword is a plain one, whatever the setting is. -/
theorem identifier_plain {c : BindContext} {s t : BindState} {u : Token}
    (kind : u.kind = .identifier) (plain : u.contextSign? = none)
    (left : advance c s = (.ok u, t)) :
    identifier inner c s = plainName inner u.text u.offset c t := by
  rw [identifier_eq left, contextKeyword_eq kind, plain]
  split <;> rfl

theorem identifier_trails (hi : TracksOperand on inner) :
    Trails on false (Abreast on .identifier) (identifier inner) true (Shadow on false) where
  stays blocked := (not_blocked_false blocked).elim
  keeps := by
    rintro c c' s s' t v peers ⟨hs, kind, plain, head⟩ run
    obtain ⟨u, u', rest, tokens⟩ := hs.more (by rw [kind]; rintro ⟨⟩)
    obtain ⟨first, second, shadow⟩ := hs.step tokens c c'
    rw [tokens] at kind plain head
    rw [head] at second
    rw [identifier_plain kind plain first] at run
    rw [identifier_plain kind plain second]
    rw [show u.kind = .identifier from kind] at shadow ⊢
    exact (plainName_trails hi _ _).keeps peers shadow run

/-! ## Projections -/

theorem fieldName_trails (e : Expr) : Tracks on a a (fieldName e) := by
  refine ifKind_trails rfl ?_ ?_
  · refine (advance_trails (κ := .keyword .asName) (b := false) nofun).bind fun _ => ?_
    exact expectIdentifier_trails.bind fun _ => .pure _
  · refine scope_trails.bind fun s => ?_
    split
    · exact .pure _
    · exact unexpected_trails _

theorem projectionField_trails (hi : TracksOperand on inner)
    (fields : List (String × Expr)) :
    TracksOperand on (projectionField inner fields) := by
  refine current_blind (fun t u same => by simp only [same]) fun t => ?_
  refine hi.bind fun e => (fieldName_trails e).bind fun name => ?_
  split
  · exact fail_trails _ _
  · exact .pure _

theorem projection_trails (hi : TracksOperand on inner) :
    Tracks on a b (projection inner) := by
  refine (expect_trails (κ := .keyword .new) (b := false) rfl nofun).bind fun _ => ?_
  refine (expect_trails (κ := .symbol .leftParen) (b := false) rfl nofun).bind fun _ => ?_
  refine (separated_trails (projectionField_trails hi) []).bind fun _ => ?_
  refine (expect_trails (κ := .symbol .rightParen) (b := b) rfl nofun).bind fun _ => ?_
  exact (anonymousRecord_trails _).bind fun _ => .pure _

/-! ## Primaries -/

section Start

variable {κ : TokenKind}

theorem numberLiteral_trails (proper : κ ≠ .finish) (value? : String → Option Value) :
    Trails on false (Abreast on κ) (numberLiteral value?) b (Shadow on κ.namesMember) := by
  refine (advance_trails (b := b) proper).bind fun t => ?_
  split
  · exact .pure _
  · exact throw_trails _

theorem literal_trails (proper : κ ≠ .finish) (v : Value) :
    Trails on false (Abreast on κ) (literal v) b (Shadow on κ.namesMember) :=
  (advance_trails proper).bind fun _ => .pure _

theorem parenthesized_trails (hi : TracksOperand on inner) :
    Trails on false (Abreast on (.symbol .leftParen)) (parenthesized inner) b
      (Shadow on false) := by
  refine (advance_trails (κ := .symbol .leftParen) (b := false) nofun).bind fun _ => ?_
  refine hi.bind fun _ => ?_
  exact (expect_trails (κ := .symbol .rightParen) rfl nofun).bind fun _ => .pure _

theorem placeholder_trails (index : Nat) :
    Trails on false (Abreast on (.placeholder index)) (do
      let t ← advance
      liftM (Parameter.bind (← read).params index t.offset)) b (Shadow on false) := by
  refine (advance_trails (κ := .placeholder index) (b := b) nofun).bind fun t => ?_
  have params : Trails on b (Shadow on false) (do return (← read).params) b (Shadow on false) :=
    .look (fun c _ => c.params) (fun _ _ => rfl) fun _ _ _ _ peers _ => peers.params
  exact params.bind fun params => lift_trails (Parameter.bind params index t.offset)

end Start

theorem primaryStart_name {c : BindContext} {s : BindState}
    (kind : (headToken s.tokens).kind = .identifier) :
    primaryStart inner c s = identifier inner c s := by
  have here : Runs c current s (headToken s.tokens) s := rfl
  unfold primaryStart
  rw [Runs.bind_eq here, kind]

theorem primaryStart_sign {c : BindContext} {s : BindState} {sign : Symbol}
    (kind : (headToken s.tokens).kind = .symbol sign)
    (context : sign ∈ [Symbol.dollar, .caret, .tilde]) :
    primaryStart inner c s = (do
      let t ← advance
      reference "^" t.offset sign : Binder Expr) c s := by
  have here : Runs c current s (headToken s.tokens) s := rfl
  unfold primaryStart
  rw [Runs.bind_eq here, kind]
  rcases List.mem_cons.1 context with rfl | context
  · rfl
  rcases List.mem_cons.1 context with rfl | context
  · rfl
  obtain rfl := List.mem_singleton.1 context
  rfl

/-- A context keyword starts no operand in front of an arrow; elsewhere its sign gives the same. -/
theorem keyword_trails (hi : TracksOperand on inner) {c c' : BindContext} {s s' t : BindState}
    {sign : Symbol} {e : Expr} (peers : Toggled on c c') (hs : Shadow on false s s')
    (keyword : (headToken s.tokens).contextSign? = some sign)
    (run : primaryStart inner c s = (.ok e, t)) :
    Blocked true t.tokens ∨
      ∃ t', primaryStart inner c' s' = (.ok e, t') ∧ Shadow on false t t' := by
  have kind := (Token.contextSign?_cases keyword).1
  obtain ⟨u, u', rest, tokens⟩ := hs.more (by rw [kind]; rintro ⟨⟩)
  obtain ⟨first, second, shadow⟩ := hs.step tokens c c'
  rw [primaryStart_name kind] at run
  rw [tokens] at kind keyword
  change u.kind = .identifier at kind
  change u.contextSign? = some sign at keyword
  by_cases arrow : u'.kind = .symbol .arrow
  · exact Or.inl (identifier_stays hi first ⟨rfl, Or.inl arrow⟩ run)
  · right
    obtain ⟨enabled, kind'⟩ := hs.sign tokens keyword arrow
    rw [identifier_eq first, if_pos (peers.enabled.trans enabled), contextKeyword_eq kind, keyword]
      at run
    obtain ⟨e?, s₁, word, rest⟩ := Runs.of_bind run
    obtain ⟨e₁, s₂, named, found⟩ := Runs.of_bind word
    cases found
    cases rest
    obtain ⟨rfl, referred⟩ := reference_moves peers.scope named "^" (headToken s'.tokens).offset
    rw [kind] at shadow second
    refine ⟨_, ?_, shadow⟩
    rw [primaryStart_sign kind' (Token.contextSign?_mem keyword), Runs.bind_eq second]
    exact referred

/-- **Where the two runs read different tokens.** At a context keyword the second run reads its
sign; at any other token it reads the same one. -/
theorem primaryStart_trails (hi : TracksOperand on inner) :
    TracksOperand on (primaryStart inner) where
  stays blocked := (not_blocked_false blocked).elim
  keeps := by
    intro c c' s s' t v peers hs run
    cases sign : (headToken s.tokens).contextSign? with
    | some sign' => exact keyword_trails hi peers hs sign run
    | none =>
      refine Trails.keeps (a := false) ?_ peers (hs.abreast sign) run
      refine current_abreast fun t kind => ?_
      rw [← kind]
      split
      next h => exact h ▸ numberLiteral_trails (κ := .integer) nofun _
      next h => exact h ▸ numberLiteral_trails (κ := .real) nofun _
      next h => exact h ▸ literal_trails (κ := .string) nofun _
      next h => exact h ▸ literal_trails (κ := .keyword .trueValue) nofun _
      next h => exact h ▸ literal_trails (κ := .keyword .falseValue) nofun _
      next h => exact h ▸ literal_trails (κ := .keyword .nullValue) nofun _
      next h => exact h ▸ placeholder_trails _
      next h =>
        exact h ▸ (advance_trails (κ := .symbol .dollar) nofun).bind fun _ =>
          scope_trails.bind fun _ => .pure _
      next h =>
        exact h ▸ (advance_trails (κ := .symbol .caret) nofun).bind fun _ =>
          parentReference_trails _ _
      next h =>
        exact h ▸ (advance_trails (κ := .symbol .tilde) nofun).bind fun _ =>
          scope_trails.bind fun _ => .pure _
      next h => exact h ▸ parenthesized_trails hi
      next => exact (projection_trails hi).abreast
      next h => exact h ▸ identifier_trails hi
      next => exact unexpected_trails _

theorem suffixStep_trails (hi : TracksOperand on inner) (e : Expr) :
    Tracks on a a (suffixStep inner e) := by
  refine current_steady (y := pure none) (fun t _ => ?_) (fun t unsteady => ?_) (.pure _)
  · split
    next dot =>
      rw [dot]
      refine (advance_trails (κ := .symbol .dot) (b := false) nofun).bind fun _ => ?_
      exact (memberOrCall_trails hi e).bind fun _ => .pure _
    next => exact ((indexer_trails hi e).bind fun _ => .pure _).abreast
    next => exact .stop _
  · split
    next dot =>
      rw [dot] at unsteady
      cases unsteady
    next bracket =>
      rw [bracket] at unsteady
      cases unsteady
    next => rfl

theorem primary_trails (hi : TracksOperand on inner) :
    TracksOperand on (primary inner) :=
  (primaryStart_trails hi).bind fun e => chain_trails (suffixStep_trails hi) e

/-! ## Operators -/

/-- The tokens of the operators are neither ends nor in front of names, and they are none at which
an operand is left for good. -/
structure Operates {ω : Type} (op? : TokenKind → Option ω) : Prop where
  identifier : op? .identifier = none
  arrow : op? (.symbol .arrow) = none
  finish : op? .finish = none
  dot : op? (.symbol .dot) = none
  asName : op? (.keyword .asName) = none

namespace Operates

variable {ω : Type} {op? : TokenKind → Option ω} {κ : TokenKind} {op : ω}

theorem proper (operates : Operates op?) (h : op? κ = some op) : κ ≠ .finish := by
  rintro rfl
  rw [operates.finish] at h
  cases h

theorem unnamed (operates : Operates op?) (h : op? κ = some op) : κ.namesMember = false := by
  unfold TokenKind.namesMember
  split
  · rw [operates.dot] at h
    cases h
  · rw [operates.asName] at h
    cases h
  · rfl

/-- Both runs leave an operator. -/
theorem advance_trails (operates : Operates op?) (h : op? κ = some op) :
    Trails on false (Abreast on κ) advance b (Shadow on false) := by
  have moved := @Binder.advance_trails format on b κ (operates.proper h)
  rwa [operates.unnamed h] at moved

end Operates

theorem signStep_trails (signs : List (UnaryOp × Nat)) : Tracks on a a (signStep signs) := by
  have operates : Operates unaryOp? := ⟨rfl, rfl, rfl, rfl, rfl⟩
  refine current_steady (y := pure none) (fun t _ => ?_) (fun t unsteady => ?_) (.pure _)
  · split
    next op sign => exact (operates.advance_trails sign).bind fun _ => .pure _
    next => exact .stop _
  · have none : unaryOp? t.kind = none := by
      unfold TokenKind.isSteady at unsteady
      split at unsteady
      case h_6 => cases unsteady
      all_goals next kind => rw [kind]; rfl
    rw [none]

theorem applySign_trails (e : Expr) (sign : UnaryOp × Nat) :
    Tracks on a a (applySign e sign) := by
  unfold applySign
  split
  · exact bound_trails _
  · exact bound_trails _

theorem unary_trails (hi : TracksOperand on inner) : TracksOperand on (unary inner) :=
  (chain_trails signStep_trails []).bind fun signs => (primary_trails hi).bind fun e =>
    foldlM_trails applySign_trails signs e

/-- Behind an operand the sign `^` is an operator, so the two runs need not go on alike there. -/
theorem binaryStep_trails {op? : TokenKind → Option BinaryOp} (operates : Operates op?)
    {operand : Binder Expr} (h : TracksOperand on operand) (left : Expr) :
    Tracks on true true (binaryStep op? operand left) := by
  refine current_operator (v := none) (fun t _ => ?_) (fun t blocks => ?_)
  · split
    next op sign =>
      refine (operates.advance_trails (b := false) sign).bind fun _ => ?_
      exact h.bind fun _ => (bound_trails _).bind fun _ => .pure _
    next => exact .stop _
  · rcases blocks.kind with kind | kind <;> rw [kind]
    · rw [operates.arrow]
    · rw [operates.identifier]

theorem binaryLevel_trails {op? : TokenKind → Option BinaryOp} (operates : Operates op?)
    {operand : Binder Expr} (h : TracksOperand on operand) :
    TracksOperand on (binaryLevel op? operand) :=
  h.bind fun left => chain_trails (binaryStep_trails operates h) left

theorem relational_trails (hi : TracksOperand on inner) :
    TracksOperand on (relational inner) :=
  binaryLevel_trails ⟨rfl, rfl, rfl, rfl, rfl⟩ (binaryLevel_trails ⟨rfl, rfl, rfl, rfl, rfl⟩
    (binaryLevel_trails ⟨rfl, rfl, rfl, rfl, rfl⟩ (unary_trails hi)))

theorem membership_trails (hi : TracksOperand on inner) (item : Expr) (offset : Nat) :
    TracksOperand on (membership inner item offset) := by
  refine ifSymbol_trails rfl ?_ ?_
  · refine (advance_trails (κ := .symbol .leftParen) (b := false) nofun).bind fun _ => ?_
    refine (expressionList_trails hi).bind fun es => ?_
    refine (expect_trails (κ := .symbol .rightParen) (b := true) rfl nofun).bind fun _ => ?_
    simp only
    split
    · exact bound_trails _
    · refine (bound_trails _).bind fun e? => ?_
      split
      · exact .pure _
      · exact unexpected_trails _
  · exact (relational_trails hi).bind fun _ => bound_trails _

theorem equalityStep_trails (hi : TracksOperand on inner) (left : Expr) :
    Tracks on true true (equalityStep inner left) := by
  refine ifKind_trails rfl ?_ ?_
  · refine (advance_trails (κ := .keyword .isIn) (b := false) nofun).bind fun _ => ?_
    exact (membership_trails hi _ _).bind fun _ => .pure _
  · exact binaryStep_trails ⟨rfl, rfl, rfl, rfl, rfl⟩ (relational_trails hi) left

theorem equality_trails (hi : TracksOperand on inner) : TracksOperand on (equality inner) :=
  (relational_trails hi).bind fun left => chain_trails (equalityStep_trails hi) left

theorem disjunction_trails (hi : TracksOperand on inner) :
    TracksOperand on (disjunction inner) :=
  binaryLevel_trails ⟨rfl, rfl, rfl, rfl, rfl⟩
    (binaryLevel_trails ⟨rfl, rfl, rfl, rfl, rfl⟩ (equality_trails hi))

theorem conditional_trails (hi : TracksOperand on inner) :
    TracksOperand on (conditional inner) := by
  refine current_blind (fun t u same => by simp only [same]) fun t => ?_
  refine (disjunction_trails hi).bind fun _ => ifSymbol_trails rfl ?_ (.pure _)
  refine (advance_trails (κ := .symbol .question) (b := false) nofun).bind fun _ => ?_
  refine hi.bind fun _ => ?_
  refine (expect_trails (κ := .symbol .colon) (b := false) rfl nofun).bind fun _ => ?_
  exact hi.bind fun _ => bound_trails _

/-! ## Expressions -/

/-- **Expressions are followed.** -/
theorem expression_trails : ∀ depth, TracksOperand on (expression depth)
  | 0 => unexpected_trails _
  | depth + 1 => conditional_trails (expression_trails depth)

theorem anyExpression_trails : TracksOperand on anyExpression :=
  tokenCount_trails.bind fun n => expression_trails (n + 1)

/-- **A whole text is followed**: in front of its end, the first run is not left for good. -/
theorem whole_trails : Tracks on false false whole :=
  anyExpression_trails.bind fun _ => expectEnd_trails.bind fun _ => .pure _

/-- The words of a direction are no context keywords. -/
theorem isWord_of_blocks {t : Token} (blocks : t.Blocks) :
    ∀ word ∈ ["asc", "ascending", "desc", "descending"], t.isWord word = false := by
  have apart : ∀ k ∈ contextSigns, ∀ word ∈ ["asc", "ascending", "desc", "descending"],
      Text.eqIgnoreCase k.1 word = false := by decide
  intro word direction
  rcases blocks with arrow | keyword
  · rw [Token.isWord, arrow]
    rfl
  · obtain ⟨sign, keyword⟩ := Option.isSome_iff_exists.1 keyword
    obtain ⟨kind, keyword, known, same⟩ := Token.contextSign?_cases keyword
    rw [Token.isWord, kind, beq_self_eq_true, Bool.true_and]
    refine Bool.eq_false_iff.2 fun both => ?_
    have equal := Text.eqIgnoreCase_trans ((Text.eqIgnoreCase_comm _ _).trans same) both
    rw [apart _ known word direction] at equal
    cases equal

theorem direction_trails : Tracks on true true direction := by
  refine current_operator (v := false) (fun t _ => ?_) (fun t blocks => ?_)
  · have leave {word : String} (h : t.isWord word = true) (descending : Bool) :
        Trails on false (Abreast on t.kind) (do
          let _ ← advance
          return descending) true (Shadow on false) := by
      have kind : t.kind = .identifier := beq_iff_eq.1 (Bool.and_eq_true_iff.1 h).1
      rw [kind]
      exact (advance_trails (κ := .identifier) nofun).bind fun _ => .pure descending
    split
    next ascending =>
      exact (Bool.or_eq_true_iff.1 ascending).elim (leave · false) (leave · false)
    next =>
      split
      next descending =>
        exact (Bool.or_eq_true_iff.1 descending).elim (leave · true) (leave · true)
      next => exact .stop _
  · rw [isWord_of_blocks blocks "asc" (by decide), isWord_of_blocks blocks "ascending" (by decide),
      isWord_of_blocks blocks "desc" (by decide), isWord_of_blocks blocks "descending" (by decide)]
    rfl

theorem orderingClause_trails (clauses : List (Expr × Bool)) :
    TracksOperand on (orderingClause clauses) := by
  refine current_blind (fun t u same => by simp only [same]) fun t => ?_
  refine anyExpression_trails.bind fun e => ?_
  have close : Tracks on true true (do
      let descending ← direction
      return clauses ++ [(e, descending)]) := direction_trails.bind fun _ => .pure _
  split
  · exact (fail_trails (b := true) (Q := Shadow on false) _ _).bind fun _ => close
  · exact close

/-- **Ordering keys are followed.** -/
theorem ordering_trails : Tracks on false false ordering :=
  (separated_trails orderingClause_trails []).bind fun _ => expectEnd_trails.bind fun _ => .pure _

end TypedExpr.Grammar
