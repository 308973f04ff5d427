import TypedExpr.Proofs.Lockstep.Members
import TypedExpr.Proofs.Precedence.Levels

/-!
# The grammar in step

Two runs of the grammar over related states keep step: both fail, or both give the same expression.

* `Grammar.identifier_coupled`, `Grammar.primary_lockstep` — names and primaries.
* `Grammar.unary_lockstep`, `Grammar.binaryLevel_lockstep` — operators.
* **`Grammar.expression_lockstep`** — expressions keep step, if there are levels of nesting enough
  for the tokens left to read.
-/

namespace TypedExpr

variable {format : GuidFormat}

open Binder

variable {R : Matching} {broken : Prop} {k m n N : Nat} {c c' : BindContext}
  {inner inner' : Binder Expr}

/-- What keeps step keeps it with fewer tokens left to read. -/
theorem Binder.Lockstep.mono {x y : Binder Expr} (h : Lockstep R broken N n x y) (le : m ≤ n) :
    Lockstep R broken N m x y :=
  fun i hi => h i (Nat.le_trans hi le)

namespace Grammar

/-! ## Names -/

theorem typeAccess_coupled (A : Alignment R broken) (p : Peers broken N c c')
    (hi : Lockstep R broken N n inner inner') (hm : m ≤ n + 1) (hN : m ≤ N) (ty : Ty)
    (name : String) (offset offset' : Nat) :
    Coupled c c' (Below R k m) (typeAccess inner ty name offset)
      (typeAccess inner' ty name offset') (Same R k m) := by
  refine current_match A (fun κ => κ = .symbol .dot || κ = .symbol .leftParen) ?_ ?_ ?_
  · intro κ h
    rcases Bool.or_eq_true_iff.1 h with h | h
    · obtain rfl := of_decide_eq_true h
      exact ⟨rfl, rfl⟩
    · obtain rfl := of_decide_eq_true h
      exact ⟨rfl, rfl⟩
  · intro t u alike same special
    rw [same]
    generalize t.kind = κ at special ⊢
    split
    · refine (advance_coupled A p rfl).bind_taken fun _ _ _ _ => ?_
      refine (expect_coupled A p .identifier rfl nofun rfl).bind_taken fun t u alike kind => ?_
      rw [← alike.text (by rw [kind]; rfl)]
      refine (findMember?_coupled A _ _).bind_same fun found => ?_
      split
      · exact pure_same _ (by omega)
      · exact fail_coupled _ _ _ _
    · refine Coupled.of ?_ fun _ _ => Facing.below
      refine (argumentList_coupled A p hi hm hN).bind_same fun args => ?_
      split
      · exact bound_coupled A fun s v =>
          ⟨(Binding.explicitConversion_moves _).ok v, (Binding.explicitConversion_moves _).ok v⟩
      · exact fail_coupled _ _ _ _
    · exact unexpected_coupled _ _
  · intro t u left right
    split
    · simp_all
    · simp_all
    · split
      · simp_all
      · simp_all
      · exact unexpected_coupled _ _

theorem choice_coupled (A : Alignment R broken) (p : Peers broken N c c')
    (hi : Lockstep R broken N n inner inner') (hm : m ≤ n + 1) (hN : m ≤ N) (offset offset' : Nat) :
    Coupled c c' (Below R k m) (choice inner offset) (choice inner' offset') (Same R k m) := by
  refine (argumentList_coupled A p hi hm hN).bind_same fun args => ?_
  split
  · exact bound_coupled A fun s v =>
      ⟨Binding.conditional_moves.ok v, Binding.conditional_moves.ok v⟩
  · exact scope_bind_coupled p (fail_coupled _ _ _ _)

theorem contextKeyword_coupled (p : Peers broken N c c') (name : String) (offset offset' : Nat) :
    Coupled c c' (Below R k m) (contextKeyword name offset) (contextKeyword name offset')
      (Same R k m) := by
  unfold contextKeyword
  split
  · exact scope_bind_coupled p (pure_same _ (Nat.le_refl m))
  · split
    · exact (parentReference_coupled p _ _ _ _).bind_same fun e => pure_same _ (Nat.le_refl m)
    · split
      · exact scope_bind_coupled p (pure_same _ (Nat.le_refl m))
      · exact pure_same _ (Nat.le_refl m)

theorem implicitMember_coupled (A : Alignment R broken) (p : Peers broken N c c')
    (hi : Lockstep R broken N n inner inner') (hm : m ≤ n + 1) (hN : m ≤ N) (name : String)
    (offset offset' : Nat) :
    Coupled c c' (Below R k m) (implicitMember inner name offset)
      (implicitMember inner' name offset') (Same R k m) := by
  refine scope_bind_coupled p ?_
  refine ifSymbol_coupled A .leftParen rfl nofun ?_ ?_
  · refine Coupled.of ?_ fun _ _ => Facing.below
    refine (isCallable_coupled A _ _).bind_same fun callable => ?_
    split
    · exact (methodCall_coupled A p hi hm hN _ _ _ _).bind_same fun e =>
        pure_same _ (Nat.le_refl m)
    · exact pure_same _ (Nat.le_refl m)
  · exact (findMember?_coupled A _ _).bind_same fun found => pure_same _ (Nat.le_refl m)

theorem memberOrType_coupled (A : Alignment R broken) (p : Peers broken N c c')
    (hi : Lockstep R broken N n inner inner') (hm : m ≤ n + 1) (hN : m ≤ N) (name : String)
    (offset offset' : Nat) :
    Coupled c c' (Below R k m) (memberOrType inner name offset)
      (memberOrType inner' name offset') (Same R k m) := by
  refine (implicitMember_coupled A p hi hm hN _ _ _).bind_same fun member => ?_
  split
  · exact pure_same _ (Nat.le_refl m)
  · refine (findType?_coupled A p _).bind_same fun ty => ?_
    split
    · exact typeAccess_coupled A p hi hm hN _ _ _ _
    · split
      · exact fail_coupled _ _ _ _
      · exact fail_coupled _ _ _ _

theorem plainName_coupled (A : Alignment R broken) (p : Peers broken N c c')
    (hi : Lockstep R broken N n inner inner') (hm : m ≤ n + 1) (hN : m ≤ N) (name : String)
    (offset offset' : Nat) :
    Coupled c c' (Below R k m) (plainName inner name offset) (plainName inner' name offset')
      (Same R k m) := by
  have other : Coupled c c' (Below R k m) (memberOrType inner name offset)
      (memberOrType inner' name offset') (Same R k m) :=
    memberOrType_coupled A p hi hm hN _ _ _
  unfold plainName
  cases Text.eqIgnoreCase name "iif" with
  | true =>
    simp only [Bool.true_and]
    refine ifSymbol_coupled A .leftParen rfl nofun ?_ (scope_bind_coupled p ?_)
    · refine Coupled.of ?_ fun _ _ => Facing.below
      exact choice_coupled A p hi hm hN _ _
    · cases c.scope.resolve? name with
      | some e => exact pure_same _ (Nat.le_refl m)
      | none => exact other
  | false =>
    simp only [Bool.false_and, Bool.false_eq_true, if_false]
    refine isKind_blind fun _ _ => scope_bind_coupled p ?_
    cases c.scope.resolve? name with
    | some e => exact pure_same _ (Nat.le_refl m)
    | none => exact other

theorem identifier_coupled (A : Alignment R broken) (p : Peers broken N c c')
    (hi : Lockstep R broken N n inner inner') (hm : m ≤ n + 1) (hN : m ≤ N) :
    Coupled c c' (Facing R k m .identifier) (identifier inner) (identifier inner')
      (Same R k m) := by
  refine (advance_coupled A p rfl).bind_taken fun t u alike kind => ?_
  rw [← alike.text (by rw [kind]; rfl)]
  refine read_coupled.bind fun a b => .assume ?_
  rintro ⟨rfl, rfl⟩
  have name : Coupled a b (Below R k (m - 1)) (plainName inner t.text t.offset)
      (plainName inner' t.text u.offset) (Same R k m) :=
    (plainName_coupled A p hi (by omega) (by omega) _ _ _).weaken (by omega)
  simp only [p.contextKeywords]
  split
  · refine (contextKeyword_coupled p _ _ _).bind_same fun found => ?_
    split
    · exact pure_same _ (by omega)
    · exact name
  · exact name

/-! ## Projections -/

theorem fieldName_coupled (A : Alignment R broken) (p : Peers broken N c c') (e : Expr) :
    Coupled c c' (Below R k m) (fieldName e) (fieldName e) (Same R k m) := by
  refine ifKind_coupled A (.keyword .asName) rfl nofun ?_ ?_
  · refine (advance_coupled A p rfl).bind_taken fun _ _ _ _ => ?_
    refine (expect_coupled A p .identifier rfl nofun rfl).bind_taken fun t u alike kind => ?_
    rw [alike.text (by rw [kind]; rfl)]
    exact pure_same _ (by omega)
  · refine scope_bind_coupled p ?_
    split
    · exact pure_same _ (Nat.le_refl m)
    · exact unexpected_coupled _ _

theorem projectionField_coupled (A : Alignment R broken) (p : Peers broken N c c')
    (hi : Lockstep R broken N n inner inner') (hm : m ≤ n) (fields : List (String × Expr)) :
    Coupled c c' (Below R k m) (projectionField inner fields) (projectionField inner' fields)
      (Same R k m) := by
  refine current_bind_blind A fun t u => ?_
  refine (hi m hm c c' p k).bind_same fun e => ?_
  refine (fieldName_coupled A p e).bind_same fun name => ?_
  split
  · exact fail_coupled _ _ _ _
  · exact pure_same _ (Nat.le_refl m)

theorem projection_coupled (A : Alignment R broken) (p : Peers broken N c c')
    (hi : Lockstep R broken N n inner inner') (hm : m ≤ n + 1) (hN : m ≤ N) :
    Coupled c c' (Facing R k m (.keyword .new)) (projection inner) (projection inner')
      (Same R k m) := by
  intro s s' h
  -- From the word on, the records have to be numbered alike.
  obtain ⟨i, -, hr, kind⟩ := id h
  have numbers : R.Numbers := A.numbers hr kind
  revert s s'
  suffices Coupled c c' (Below R k m) (projection inner) (projection inner') (Same R k m) from
    fun s s' h _ _ => this s s' h.below
  refine (expect_coupled A p (.keyword .new) rfl nofun rfl).bind_taken fun _ _ _ _ => ?_
  refine (expect_coupled A p (.symbol .leftParen) rfl nofun rfl).bind_taken fun _ _ _ _ => ?_
  refine (separated_coupled A (Nat.succ_pos k) (fun i hi' fields => ?_) p (by omega)).bind_same
    fun fields => ?_
  · exact projectionField_coupled A p hi (by omega) fields
  · refine (expect_coupled A p (.symbol .rightParen) rfl nofun rfl).bind_taken fun _ _ _ _ => ?_
    exact (anonymousRecord_coupled numbers _).bind_same fun d => pure_same _ (by omega)

/-! ## Primaries -/

theorem literal_coupled (A : Alignment R broken) (p : Peers broken N c c') {κ : TokenKind}
    (h : κ.nest? k = some k) (v : Value) :
    Coupled c c' (Facing R k m κ) (literal v) (literal v) (Same R k m) :=
  (advance_coupled A p h).bind_taken fun _ _ _ _ => pure_same _ (by omega)

theorem numberLiteral_coupled (A : Alignment R broken) (p : Peers broken N c c') {κ : TokenKind}
    (h : κ.nest? k = some k) (spelled : κ.isSpelled = true) (value? : String → Option Value) :
    Coupled c c' (Facing R k m κ) (numberLiteral value?) (numberLiteral value?) (Same R k m) := by
  refine (advance_coupled A p h).bind_taken fun t u alike kind => ?_
  rw [← alike.text (by rw [kind]; exact spelled)]
  split
  · exact pure_same _ (by omega)
  · exact throw_coupled _ _

theorem placeholder_coupled (A : Alignment R broken) (p : Peers broken N c c') (index : Nat) :
    Coupled c c' (Facing R k m (.placeholder index))
      (do
        let t ← advance
        liftM (Parameter.bind (← read).params index t.offset))
      (do
        let t ← advance
        liftM (Parameter.bind (← read).params index t.offset)) (Same R k m) := by
  refine (advance_coupled A p rfl).bind_taken fun t u _ _ => ?_
  refine read_coupled.bind fun a b => .assume ?_
  rintro ⟨rfl, rfl⟩
  rw [p.params]
  refine Coupled.weaken (m := m - 1) (lift_coupled fun v => ?_) (by omega)
  unfold Parameter.bind
  split
  · exact Iff.rfl
  · exact ⟨nofun, nofun⟩

theorem parenthesized_coupled (A : Alignment R broken) (p : Peers broken N c c')
    (hi : Lockstep R broken N n inner inner') (hm : m ≤ n + 1) :
    Coupled c c' (Facing R k m (.symbol .leftParen)) (parenthesized inner) (parenthesized inner')
      (Same R k m) := by
  refine (advance_coupled A p rfl).bind_taken fun _ _ _ _ => ?_
  refine (hi (m - 1) (by omega) c c' p (k + 1)).bind_same fun e => ?_
  refine (expect_coupled A p (.symbol .rightParen) rfl nofun rfl).bind_taken fun _ _ _ _ => ?_
  exact pure_same _ (by omega)

/-- The kinds of tokens that a primary starts with. -/
def startsPrimary : TokenKind → Bool
  | .integer | .real | .string | .placeholder _ | .identifier => true
  | .keyword .trueValue | .keyword .falseValue | .keyword .nullValue | .keyword .new => true
  | .symbol .dollar | .symbol .caret | .symbol .tilde | .symbol .leftParen => true
  | _ => false

theorem startsPrimary_sole {κ : TokenKind} (h : startsPrimary κ = true) :
    κ.hasSynonym = false ∧ κ.isEnd = false := by
  unfold startsPrimary at h
  split at h <;> first | exact ⟨rfl, rfl⟩ | cases h

theorem primaryStart_coupled (A : Alignment R broken) (p : Peers broken N c c')
    (hi : Lockstep R broken N n inner inner') (hm : m ≤ n + 1) (hN : m ≤ N) :
    Coupled c c' (Below R k m) (primaryStart inner) (primaryStart inner') (Same R k m) := by
  refine current_match A startsPrimary (fun _ => startsPrimary_sole) ?_ ?_
  · rintro ⟨κ, text, offset⟩ ⟨κ', text', offset'⟩ alike same special
    obtain rfl : κ' = κ := same
    simp only at special ⊢
    split
    · exact numberLiteral_coupled A p rfl rfl _
    · exact numberLiteral_coupled A p rfl rfl _
    · obtain rfl : text = text' := alike.text rfl
      exact literal_coupled A p rfl _
    · exact literal_coupled A p rfl _
    · exact literal_coupled A p rfl _
    · exact literal_coupled A p rfl _
    · exact placeholder_coupled A p _
    · refine (advance_coupled A p rfl).bind_taken fun _ _ _ _ => scope_bind_coupled p ?_
      exact pure_same _ (by omega)
    · refine (advance_coupled A p rfl).bind_taken fun _ _ _ _ => ?_
      exact (parentReference_coupled p _ _ _ _).weaken (by omega)
    · refine (advance_coupled A p rfl).bind_taken fun _ _ _ _ => scope_bind_coupled p ?_
      exact pure_same _ (by omega)
    · exact parenthesized_coupled A p hi hm
    · exact projection_coupled A p hi hm hN
    · exact identifier_coupled A p hi hm hN
    · exact unexpected_coupled _ _
  · intro t u left right
    refine .fails (fun s => ?_) fun s => ?_
    · split <;> rename_i here <;> first
        | rw [here] at left; cases left
        | exact fails_unexpected _
    · split <;> rename_i here <;> first
        | rw [here] at right; cases right
        | exact fails_unexpected _

theorem suffixStep_coupled (A : Alignment R broken) (p : Peers broken N c c')
    (hi : Lockstep R broken N n inner inner') (hm : m ≤ n + 1) (hN : m ≤ N) (e : Expr) :
    Coupled c c' (Below R k m) (suffixStep inner e) (suffixStep inner' e)
      (Stepped R k m Eq) := by
  refine current_match A (fun κ => κ = .symbol .dot || κ = .symbol .leftBracket) ?_ ?_ ?_
  · intro κ h
    rcases Bool.or_eq_true_iff.1 h with h | h
    · obtain rfl := of_decide_eq_true h
      exact ⟨rfl, rfl⟩
    · obtain rfl := of_decide_eq_true h
      exact ⟨rfl, rfl⟩
  · intro t u alike same special
    rw [same]
    generalize t.kind = κ at special ⊢
    split
    · refine (advance_coupled A p rfl).bind_taken fun _ _ _ _ => ?_
      refine (memberOrCall_coupled A p hi (by omega) (by omega) e).bind_same fun e => ?_
      exact .pure fun _ _ h => ⟨rfl, h⟩
    · refine Coupled.of ?_ fun _ _ => Facing.below
      exact (indexer_coupled A p hi hm e).bind fun a b => .pure fun _ _ h => h
    · simp_all
  · intro t u left right
    split
    · simp_all
    · simp_all
    · split
      · simp_all
      · simp_all
      · exact .pure fun _ _ h => h

theorem primary_lockstep (A : Alignment R broken) (hi : Lockstep R broken N n inner inner')
    (hn : n + 1 ≤ N) : Lockstep R broken N (n + 1) (primary inner) (primary inner') := by
  intro m hm c c' p k
  refine (primaryStart_coupled A p hi hm (by omega)).bind_same fun e => ?_
  refine chain_coupled (V := Eq) (fun i hi' a b same => ?_) p (by omega) rfl
  rw [← same]
  exact suffixStep_coupled A p hi (by omega) (by omega) a

/-! ## Operators -/

/-- The operators of a level do not depend on the synonym, and are neither brackets nor ends. -/
structure AreSigns {ω : Type} (op? : TokenKind → Option ω) : Prop where
  canonical (κ : TokenKind) : op? κ.canonical = op? κ
  ended {κ : TokenKind} : κ.isEnd = true → op? κ = none
  nest {κ : TokenKind} {op : ω} (k : Nat) : op? κ = some op → κ.nest? k = some k

/-- An operator is seen in both runs or in none. -/
theorem current_op {ω α β : Type} {op? : TokenKind → Option ω} (A : Alignment R broken)
    (signs : AreSigns op?) {f : Token → Binder α} {g : Token → Binder β}
    {Q : α → β → BindState → BindState → Prop}
    (here : ∀ t u op, op? t.kind = some op → op? u.kind = some op → t.kind.nest? k = some k →
      Coupled c c' (Facing R k m t.kind) (f t) (g u) Q)
    (other : ∀ t u, op? t.kind = none → op? u.kind = none →
      Coupled c c' (Below R k m) (f t) (g u) Q) :
    Coupled c c' (Below R k m) (current >>= f) (current >>= g) Q := by
  refine current_bind A (fun t u alike more => ?_) fun t u left right _ => ?_
  · have same : op? u.kind = op? t.kind := by
      rw [← signs.canonical u.kind, ← alike.kind, signs.canonical]
    cases h : op? t.kind with
    | some op => exact here t u op h (same.trans h) (signs.nest k h)
    | none => exact (other t u h (same.trans h)).of fun _ _ => Facing.below
  · exact other t u (signs.ended left) (signs.ended right)

theorem unaryOp?_signs : AreSigns unaryOp? where
  canonical κ := by
    unfold TokenKind.canonical
    split <;> rfl
  ended h := by
    unfold TokenKind.isEnd at h
    split at h <;> first | rfl | cases h
  nest k h := by
    unfold unaryOp? at h
    split at h <;> first | rfl | cases h

theorem signStep_coupled (A : Alignment R broken) (p : Peers broken N c c')
    {a b : List (UnaryOp × Nat)} (same : a.map Prod.fst = b.map Prod.fst) :
    Coupled c c' (Below R k m) (signStep a) (signStep b)
      (Stepped R k m fun a b => a.map Prod.fst = b.map Prod.fst) := by
  refine current_op A unaryOp?_signs (fun t u op left right nest => ?_) fun t u left right => ?_
  · simp only [left, right]
    refine (advance_coupled A p nest).bind_taken fun t u _ _ => .pure fun _ _ h => ⟨?_, h⟩
    simp only [List.map_cons, same]
  · simp only [left, right]
    exact .pure fun _ _ h => h

theorem applySigns_coupled (A : Alignment R broken) :
    ∀ (a b : List (UnaryOp × Nat)), a.map Prod.fst = b.map Prod.fst → ∀ e,
      Coupled c c' (Below R k m) (a.foldlM applySign e) (b.foldlM applySign e) (Same R k m)
  | [], [], _, e => pure_same e (Nat.le_refl m)
  | (op, o) :: a, (op', o') :: b, same, e => by
    obtain ⟨rfl, rest⟩ : op = op' ∧ a.map Prod.fst = b.map Prod.fst := by simpa using same
    rw [List.foldlM_cons, List.foldlM_cons]
    refine Coupled.bind_same ?_ (applySigns_coupled A a b rest)
    cases op with
    | negate =>
      exact bound_coupled A fun s v => ⟨Binding.negate_moves.ok v, Binding.negate_moves.ok v⟩
    | not =>
      exact bound_coupled A fun s v =>
        ⟨Binding.complement_moves.ok v, Binding.complement_moves.ok v⟩

theorem unary_lockstep (A : Alignment R broken) (hi : Lockstep R broken N n inner inner')
    (hn : n + 1 ≤ N) : Lockstep R broken N (n + 1) (unary inner) (unary inner') := by
  intro m hm c c' p k
  refine (chain_coupled (V := fun a b => a.map Prod.fst = b.map Prod.fst)
    (fun i _ a b same => signStep_coupled A p same) p (by omega) rfl).bind fun a b => .assume ?_
  intro same
  exact (primary_lockstep A hi hn m hm c c' p k).bind_same fun e => applySigns_coupled A a b same e

theorem binaryStep_coupled {op? : TokenKind → Option BinaryOp} {x y : Binder Expr}
    (A : Alignment R broken) (signs : AreSigns op?) (h : Lockstep R broken N n x y)
    (p : Peers broken N c c') (hm : m ≤ n) (left : Expr) :
    Coupled c c' (Below R k m) (binaryStep op? x left) (binaryStep op? y left)
      (Stepped R k m Eq) := by
  refine current_op A signs (fun t u op here there nest => ?_) fun t u here there => ?_
  · simp only [here, there]
    refine (advance_coupled A p nest).bind_taken fun t u _ _ => ?_
    refine (h (m - 1) (by omega) c c' p k).bind_same fun right => ?_
    refine Coupled.bind_same (bound_coupled A fun s v => ?_) fun e => .pure fun _ _ h => ⟨rfl, h⟩
    exact ⟨(Binding.binary_moves _).ok v, (Binding.binary_moves _).ok v⟩
  · simp only [here, there]
    exact .pure fun _ _ h => h

/-- **A level of binary operators keeps step if its operands do.** -/
theorem binaryLevel_lockstep {op? : TokenKind → Option BinaryOp} {x y : Binder Expr}
    (A : Alignment R broken) (signs : AreSigns op?) (h : Lockstep R broken N n x y) (hn : n ≤ N) :
    Lockstep R broken N n (binaryLevel op? x) (binaryLevel op? y) := by
  intro m hm c c' p k
  refine (h m hm c c' p k).bind_same fun e => ?_
  refine chain_coupled (V := Eq) (fun i hi' a b same => ?_) p (by omega) rfl
  rw [← same]
  exact binaryStep_coupled A signs h p (by omega) a

theorem levelOp?_signs (l : Nat) : AreSigns (levelOp? l) where
  canonical κ := by
    unfold TokenKind.canonical
    match l with
    | 1 | 2 | 3 | 4 | 5 | 6 => split <;> rfl
    | 0 | _ + 7 => rfl
  ended {κ} h := by
    unfold TokenKind.isEnd at h
    match l with
    | 1 | 2 | 3 | 4 | 5 | 6 => split at h <;> first | rfl | cases h
    | 0 | _ + 7 => rfl
  nest {κ} op k h := by
    unfold TokenKind.nest?
    split
    case h_4 => rfl
    all_goals match l with
    | 1 | 2 | 3 | 4 | 5 | 6 => cases h
    | 0 | _ + 7 => cases h

/-! ## Membership -/

theorem membership_coupled (A : Alignment R broken) (p : Peers broken N c c')
    (hi : Lockstep R broken N n inner inner')
    (hr : Lockstep R broken N (n + 1) (relational inner) (relational inner')) (hm : m ≤ n + 1)
    (hn : n + 1 ≤ N) (item : Expr) (offset offset' : Nat) :
    Coupled c c' (Below R k m) (membership inner item offset) (membership inner' item offset')
      (Same R k m) := by
  have contained (source : Expr) {i : Nat} : Coupled c c' (Below R k i)
      (bound (Binding.contains · source item offset))
      (bound (Binding.contains · source item offset')) (Same R k i) :=
    bound_coupled A fun s v => ⟨Binding.contains_moves.ok v, Binding.contains_moves.ok v⟩
  refine ifSymbol_coupled A .leftParen rfl nofun ?_ ?_
  · refine (advance_coupled A p rfl).bind_taken fun _ _ _ _ => ?_
    refine (expressionList_coupled A p hi (by omega) (by omega) (Nat.succ_pos k)).bind_same
      fun candidates => ?_
    refine (expect_coupled A p (.symbol .rightParen) rfl nofun rfl).bind_taken fun _ _ _ _ => ?_
    simp only
    split
    · exact (contained _).weaken (by omega)
    · refine Coupled.bind_same (bound_coupled A fun s v => ?_) fun found => ?_
      · exact ⟨(Binding.oneOf_moves _).ok v, (Binding.oneOf_moves _).ok v⟩
      · split
        · exact pure_same _ (by omega)
        · exact unexpected_coupled _ _
  · exact (hr m hm c c' p k).bind_same fun source => contained source

theorem equalityStep_coupled (A : Alignment R broken) (p : Peers broken N c c')
    (hi : Lockstep R broken N n inner inner')
    (hr : Lockstep R broken N (n + 1) (relational inner) (relational inner')) (hm : m ≤ n + 1)
    (hn : n + 1 ≤ N) (left : Expr) :
    Coupled c c' (Below R k m) (equalityStep inner left) (equalityStep inner' left)
      (Stepped R k m Eq) := by
  refine ifKind_coupled A (.keyword .isIn) rfl nofun ?_ ?_
  · refine (advance_coupled A p rfl).bind_taken fun t u _ _ => ?_
    refine (membership_coupled A p hi hr (by omega) hn left _ _).bind_same fun e => ?_
    exact .pure fun _ _ h => ⟨rfl, h⟩
  · exact binaryStep_coupled A (levelOp?_signs 3) hr p hm left

theorem equality_lockstep (A : Alignment R broken) (hi : Lockstep R broken N n inner inner')
    (hr : Lockstep R broken N (n + 1) (relational inner) (relational inner')) (hn : n + 1 ≤ N) :
    Lockstep R broken N (n + 1) (equality inner) (equality inner') := by
  intro m hm c c' p k
  refine (hr m hm c c' p k).bind_same fun e => ?_
  refine chain_coupled (V := Eq) (fun i hi' a b same => ?_) p (by omega) rfl
  rw [← same]
  exact equalityStep_coupled A p hi hr (by omega) hn a

/-! ## Expressions -/

theorem conditional_lockstep (A : Alignment R broken) (hi : Lockstep R broken N n inner inner')
    (ht : Lockstep R broken N (n + 1) (disjunction inner) (disjunction inner')) :
    Lockstep R broken N (n + 1) (conditional inner) (conditional inner') := by
  intro m hm c c' p k
  refine current_bind_blind A fun t u => ?_
  refine (ht m hm c c' p k).bind_same fun test => ?_
  refine ifSymbol_coupled A .question rfl nofun ?_ (pure_same test (Nat.le_refl m))
  refine (advance_coupled A p rfl).bind_taken fun _ _ _ _ => ?_
  refine (hi (m - 1) (by omega) c c' p k).bind_same fun a => ?_
  refine (expect_coupled A p (.symbol .colon) rfl nofun rfl).bind_taken fun _ _ _ _ => ?_
  refine (hi (m - 1 - 1) (by omega) c c' p k).bind_same fun b => ?_
  refine (bound_coupled A fun s v => ?_).weaken (by omega)
  exact ⟨Binding.conditional_moves.ok v, Binding.conditional_moves.ok v⟩

/-- **Every level keeps step if the rule for expressions inside of it does.** -/
theorem level_lockstep (A : Alignment R broken) (hi : Lockstep R broken N n inner inner')
    (hn : n + 1 ≤ N) (l : Nat) : Lockstep R broken N (n + 1) (level inner l) (level inner' l) := by
  match l with
  | 0 => exact conditional_lockstep A hi (level_lockstep A hi hn 1)
  | 3 => exact equality_lockstep A hi (level_lockstep A hi hn 4) hn
  | 1 => exact binaryLevel_lockstep A (levelOp?_signs 1) (level_lockstep A hi hn 2) hn
  | 2 => exact binaryLevel_lockstep A (levelOp?_signs 2) (level_lockstep A hi hn 3) hn
  | 4 => exact binaryLevel_lockstep A (levelOp?_signs 4) (level_lockstep A hi hn 5) hn
  | 5 => exact binaryLevel_lockstep A (levelOp?_signs 5) (level_lockstep A hi hn 6) hn
  | 6 => exact binaryLevel_lockstep A (levelOp?_signs 6) (level_lockstep A hi hn 7) hn
  | 7 => exact unary_lockstep A hi hn
  | _ + 8 => exact primary_lockstep A hi hn
termination_by 8 - l

/-- **Expressions keep step**, if there are levels of nesting enough for the tokens left to read in
either run. -/
theorem expression_lockstep (A : Alignment R broken) :
    ∀ n d d', n ≤ d → n ≤ d' → n ≤ N → Lockstep R broken N n (expression d) (expression d')
  | 0, _, _, _, _, _ => by
    intro m hm c c' _ k
    obtain rfl := Nat.le_zero.1 hm
    exact .vacuous
  | n + 1, d + 1, d' + 1, hd, hd', hn =>
    level_lockstep A (expression_lockstep A n d d' (Nat.le_of_succ_le_succ hd)
      (Nat.le_of_succ_le_succ hd') (Nat.le_of_succ_le hn)) hn 0

end Grammar

end TypedExpr
