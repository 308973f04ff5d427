import TypedExpr.Grammar
import TypedExpr.Proofs.Lockstep.Tokens
import TypedExpr.Proofs.Precedence.Offsets

/-!
# Members and calls in step

What stands behind a receiver keeps step in two runs, if the rule for expressions inside of it does.

* `Binder.Lockstep` — a rule for expressions keeps step, with a bound on the tokens left to read.
* `Grammar.argumentList_coupled`, `Grammar.lambdaBody_coupled`, … — what stands between parentheses.
* **`Grammar.memberOrCall_coupled`** — what stands behind a dot.
-/

namespace TypedExpr

variable {format : GuidFormat}

/-- Two rules for expressions keep step wherever fewer than `n` tokens are left to read. -/
def Binder.Lockstep (R : Matching) (broken : Prop) (N n : Nat) (x y : Binder Expr) : Prop :=
  ∀ m ≤ n, ∀ c c', Peers broken N c c' → ∀ k, Coupled c c' (Below R k m) x y (Same R k m)

namespace Grammar

open Binder

variable {R : Matching} {broken : Prop} {k m n N : Nat} {c c' : BindContext}
  {inner inner' : Binder Expr}

/-! ## Members -/

theorem parentReference_coupled (p : Peers broken N c c') (keyword keyword' : String)
    (offset offset' : Nat) :
    Coupled c c' (Below R k m) (parentReference keyword offset)
      (parentReference keyword' offset') (Same R k m) := by
  refine scope_bind_coupled p ?_
  cases c.scope.parent? with
  | some e => exact pure_same e (Nat.le_refl m)
  | none => exact fail_coupled _ _ _ _

theorem isCallable_coupled (A : Alignment R broken) (ty : Ty) (name : String) :
    Coupled c c' (Below R k m) (isCallable ty name) (isCallable ty name) (Same R k m) := by
  unfold isCallable
  split
  · exact pure_same _ (Nat.le_refl m)
  · exact (findMethods_coupled A ty name).bind_same fun _ => pure_same _ (Nat.le_refl m)

/-! ## What stands between parentheses -/

theorem expressionList_coupled (A : Alignment R broken) (p : Peers broken N c c')
    (hi : Lockstep R broken N n inner inner') (hm : m ≤ n) (hN : m ≤ N) (inside : 0 < k) :
    Coupled c c' (Below R k m) (expressionList inner) (expressionList inner') (Same R k m) := by
  refine (separated_coupled A inside (fun i hi' es => ?_) p hN).bind_same fun es =>
    pure_same _ (Nat.le_refl m)
  exact (hi i (Nat.le_trans hi' hm) c c' p k).bind_same fun e => pure_same _ (Nat.le_refl i)

theorem argumentList_coupled (A : Alignment R broken) (p : Peers broken N c c')
    (hi : Lockstep R broken N n inner inner') (hm : m ≤ n + 1) (hN : m ≤ N) :
    Coupled c c' (Below R k m) (argumentList inner) (argumentList inner') (Same R k m) := by
  refine (expect_coupled A p (.symbol .leftParen) rfl nofun rfl).bind_taken fun _ _ _ _ => ?_
  have close (es : List Expr) : Coupled c c' (Below R (k + 1) (m - 1))
      (do
        let _ ← expect (.symbol .rightParen)
        return es)
      (do
        let _ ← expect (.symbol .rightParen)
        return es) (Same R k m) :=
    (expect_coupled A p (.symbol .rightParen) rfl nofun rfl).bind_taken fun _ _ _ _ =>
      pure_same es (by omega)
  refine ifSymbol_coupled A .rightParen rfl (fun _ => Nat.succ_pos k) ?_ ?_
  · exact ((pure_same [] (Nat.le_refl _)).bind_same close).of fun _ _ => Facing.below
  · exact (expressionList_coupled A p hi (by omega) (by omega) (Nat.succ_pos k)).bind_same close

theorem lambdaName?_coupled (A : Alignment R broken) (p : Peers broken N c c') :
    Coupled c c' (Below R k m) lambdaName? lambdaName? (Same R k m) := by
  have absent {n : Nat} : Coupled c c' (Below R k n) (pure none) (pure none)
      (Same R k n (α := Option String)) := pure_same none (Nat.le_refl n)
  refine ifKind_coupled A .identifier rfl nofun ?_ absent
  refine ifPeek_coupled A p rfl rfl ?_ (absent.of fun _ _ => Facing.below)
  refine (advanceTo_coupled A p rfl rfl).bind fun t u => .assume ?_
  rintro ⟨alike, kind⟩
  refine (advance_coupled A p rfl).bind_taken fun _ _ _ _ => ?_
  rw [alike.text (by rw [kind]; rfl)]
  exact pure_same _ (by omega)

theorem lambdaBody_coupled (A : Alignment R broken) (p : Peers broken N c c')
    (hi : Lockstep R broken N n inner inner') (hm : m ≤ n) (item : Ty) :
    Coupled c c' (Below R k m) (lambdaBody inner item) (lambdaBody inner' item) (Same R k m) :=
  (lambdaName?_coupled A p).bind_same fun name =>
    inScope_coupled (hi m hm _ _ (p.push item name) k)

theorem sequenceValue_coupled (A : Alignment R broken) (p : Peers broken N c c')
    (hi : Lockstep R broken N n inner inner') (hm : m ≤ n) (target : Expr) (item : Ty)
    (method : SequenceMethod) (offset offset' : Nat) :
    Coupled c c' (Below R k m) (sequenceValue inner target item method offset)
      (sequenceValue inner' target item method offset') (Same R k m) := by
  refine (hi m hm c c' p k).bind_same fun e => (schema_coupled A).bind_same fun s => ?_
  split
  · exact pure_same _ (Nat.le_refl m)
  · exact fail_coupled _ _ _ _

theorem sequenceResult_coupled (A : Alignment R broken) (p : Peers broken N c c')
    (target : Expr) (item : Ty) (method : SequenceMethod) (lambda argument : Option Expr)
    (offset offset' : Nat) :
    Coupled c c' (Below R k m) (sequenceResult target item method lambda argument offset)
      (sequenceResult target item method lambda argument offset') (Same R k m) := by
  refine scope_bind_coupled p ?_
  simp only
  have finish (lambda : Option Expr) : Coupled c c' (Below R k m)
    (do
      let s ← schema
      return Expr.sequenceCall target method
        (if method = .sum then lambda.map fun body => body.coerceTo s
          (method.resultTy item (lambda.map Expr.ty)) else lambda) argument
        (method.resultTy item (lambda.map Expr.ty)))
    (do
      let s ← schema
      return Expr.sequenceCall target method
        (if method = .sum then lambda.map fun body => body.coerceTo s
          (method.resultTy item (lambda.map Expr.ty)) else lambda) argument
        (method.resultTy item (lambda.map Expr.ty))) (Same R k m) :=
    (schema_coupled A).bind_same fun s => pure_same _ (Nat.le_refl m)
  split
  · split
    · exact (fail_coupled _ _ _ _).bind fun _ _ => finish _
    · exact finish _
  · exact finish _

theorem sequenceCall_coupled (A : Alignment R broken) (p : Peers broken N c c')
    (hi : Lockstep R broken N n inner inner') (hm : m ≤ n + 1) (target : Expr) (item : Ty)
    (method : SequenceMethod) (offset offset' : Nat) :
    Coupled c c' (Below R k m) (sequenceCall inner target item method offset)
      (sequenceCall inner' target item method offset') (Same R k m) := by
  refine (expect_coupled A p (.symbol .leftParen) rfl nofun rfl).bind_taken fun _ _ _ _ => ?_
  refine current_bind_blind A fun t u => ?_
  have close (parts : Option Expr × Option Expr) : Coupled c c' (Below R (k + 1) (m - 1))
      (do
        let _ ← expect (.symbol .rightParen)
        sequenceResult target item method parts.1 parts.2 t.offset)
      (do
        let _ ← expect (.symbol .rightParen)
        sequenceResult target item method parts.1 parts.2 u.offset) (Same R k m) :=
    (expect_coupled A p (.symbol .rightParen) rfl nofun rfl).bind_taken fun _ _ _ _ =>
      (sequenceResult_coupled A p _ _ _ _ _ _ _).weaken (by omega)
  have body : Coupled c c' (Below R (k + 1) (m - 1))
      (do
        let body ← lambdaBody inner item
        let parts ← pure (some body, none)
        let _ ← expect (.symbol .rightParen)
        sequenceResult target item method parts.1 parts.2 t.offset)
      (do
        let body ← lambdaBody inner' item
        let parts ← pure (some body, none)
        let _ ← expect (.symbol .rightParen)
        sequenceResult target item method parts.1 parts.2 u.offset) (Same R k m) :=
    (lambdaBody_coupled A p hi (by omega) item).bind_same fun e =>
      (pure_same _ (Nat.le_refl _)).bind_same close
  cases method.argument with
  | none => exact (pure_same _ (Nat.le_refl _)).bind_same close
  | value =>
    exact (sequenceValue_coupled A p hi (by omega) _ _ _ _ _).bind_same fun e =>
      (pure_same _ (Nat.le_refl _)).bind_same close
  | lambda => exact body
  | optionalLambda =>
    refine ifSymbol_coupled A .rightParen rfl (fun _ => Nat.succ_pos k) ?_ body
    exact ((pure_same _ (Nat.le_refl _)).bind_same close).of fun _ _ => Facing.below

theorem overloadedCall_coupled (A : Alignment R broken) (target : Expr) (name : String)
    (methods : List Method) (args : List Expr) (offset offset' : Nat) :
    Coupled c c' (Below R k m) (overloadedCall target name methods args offset)
      (overloadedCall target name methods args offset') (Same R k m) := by
  refine (schema_coupled A).bind_same fun s => ?_
  split
  · exact pure_same _ (Nat.le_refl m)
  · exact fail_coupled _ _ _ _
  · exact fail_coupled _ _ _ _

theorem methodCall_coupled (A : Alignment R broken) (p : Peers broken N c c')
    (hi : Lockstep R broken N n inner inner') (hm : m ≤ n + 1) (hN : m ≤ N) (target : Expr)
    (name : String) (offset offset' : Nat) :
    Coupled c c' (Below R k m) (methodCall inner target name offset)
      (methodCall inner' target name offset') (Same R k m) := by
  unfold methodCall
  split
  · exact sequenceCall_coupled A p hi hm _ _ _ _ _
  · refine (findMethods_coupled A _ _).bind_same fun methods => ?_
    refine (argumentList_coupled A p hi hm hN).bind_same fun args => ?_
    exact overloadedCall_coupled A _ _ _ _ _ _

/-! ## Behind a receiver -/

/-- **What stands behind a dot keeps step.** -/
theorem memberOrCall_coupled (A : Alignment R broken) (p : Peers broken N c c')
    (hi : Lockstep R broken N n inner inner') (hm : m ≤ n + 1) (hN : m ≤ N) (target : Expr) :
    Coupled c c' (Below R k m) (memberOrCall inner target) (memberOrCall inner' target)
      (Same R k m) := by
  refine (expect_coupled A p .identifier rfl nofun rfl).bind_taken fun t u alike kind => ?_
  rw [← alike.text (by rw [kind]; rfl)]
  refine ifSymbol_coupled A .leftParen rfl nofun ?_ ?_
  · refine Coupled.of ?_ fun _ _ => Facing.below
    exact (methodCall_coupled A p hi (by omega) (by omega) _ _ _ _).weaken (by omega)
  · refine (findMember?_coupled A _ _).bind_same fun found => ?_
    split
    · exact pure_same _ (by omega)
    · exact fail_coupled _ _ _ _

theorem indexer_coupled (A : Alignment R broken) (p : Peers broken N c c')
    (hi : Lockstep R broken N n inner inner') (hm : m ≤ n + 1) (target : Expr) :
    Coupled c c' (Below R k m) (indexer inner target) (indexer inner' target)
      (Same R k (m - 1)) := by
  refine (expect_coupled A p (.symbol .leftBracket) rfl nofun rfl).bind_taken fun _ _ _ _ => ?_
  refine (hi (m - 1) (by omega) c c' p k).bind_same fun position => ?_
  refine (expect_coupled A p (.symbol .rightBracket) rfl nofun rfl).bind_taken fun _ _ _ _ => ?_
  refine (schema_coupled A).bind_same fun s => ?_
  split
  · exact pure_same _ (by omega)
  · exact fail_coupled _ _ _ _

end Grammar

end TypedExpr
