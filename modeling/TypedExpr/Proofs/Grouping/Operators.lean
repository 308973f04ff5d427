import TypedExpr.Proofs.Grouping.Operands

/-!
# Operators over known tokens

What a level makes of several operands with an operator between each two of them, what a membership
makes of the tokens behind its word, and what a call of `Contains` makes of its receiver and its
argument.

* `Covers.chainFrom_step`, `Covers.levelStep` — one step of a chain.
* **`operators_covers`** — operands with one operator between them, which are grouped to the left.
* `list_covers`, `membership_covers` — a membership in a list.
* `contains_covers` — a call of `Contains`.
-/

namespace TypedExpr

variable {format : GuidFormat}

open Binder Grammar

variable {α β τ : Type} {w v : Workspace} {c : BindContext} {ss ss' σ : List Shape}
  {σs : List (List Shape)} {F F' : TokenKind → Prop} {inner : Binder Expr} {m m' : Outcome Expr}
  {n : Nat}

/-! ## Steps -/

namespace Outcome

theorem bound_eq_ok {rule : Schema → Except CompileError α} {a : α} :
    bound rule w = (.ok a, v) ↔ rule w.registry.schema = .ok a ∧ v = w := by
  unfold bound
  rw [Prod.mk.injEq, eq_comm (a := w)]

end Outcome

namespace Covers

/-- Where the computations have the same result, one may stand for the other. -/
theorem congr {x : Binder α} {m m' : Outcome α} {a : α} {v v' : Workspace}
    (h : Covers w c x ss F m) (result : m w = (.ok a, v)) (result' : m' w = (.ok a, v'))
    (similar : v'.Similar v) : Covers w c x ss F m' := by
  intro ts next rest u shapes follows hw
  have delivers := h ts next rest u shapes follows hw
  rw [result] at delivers
  obtain ⟨u', hv, run⟩ := delivers
  rw [result']
  exact ⟨u', similar.trans hv, run⟩

/-- A step of a chain, and the rest of the chain. -/
theorem chainFrom_step {step : α → Binder (Option α)} {fuel : Nat} {a : α} {m : Outcome α}
    {k : α → Outcome α} (h : Covers w c (step a) ss F (some <$> m))
    (rest : ∀ b v, m w = (.ok b, v) → Covers v c (chainFrom step fuel b) ss' F' (k b))
    (first : ∀ κ, F' κ → F (firstKind ss' κ)) :
    Covers w c (chainFrom step (fuel + 1) a) (ss ++ ss') F' (m >>= k) := by
  have same : m >>= k = (some <$> m) >>= fun b? => b?.elim (pure a) k := by
    simp [bind_map_left]
  rw [same]
  refine Covers.bind h (fun b? v run => ?_) first
  rw [map_eq_pure_bind, bind_eq_ok] at run
  obtain ⟨b, _, run, ⟨⟩⟩ := run
  exact rest b _ run

/-- The only step of a chain. -/
theorem chain_step {step : α → Binder (Option α)} {a : α} {m : Outcome α}
    (h : Covers w c (step a) ss F (some <$> m)) (more : 0 < c.tokenCount)
    (ends : ∀ b t rest w, F t.kind → Runs c (step b) ⟨t :: rest, w⟩ none ⟨t :: rest, w⟩) :
    Covers w c (chain step a) ss F m := by
  refine .still_bind (fun _ => True) (fun _ _ _ _ => runs_tokenCount) (fun _ _ => trivial) ?_
  obtain ⟨fuel, count⟩ := Nat.exists_eq_add_of_lt more
  rw [count, Nat.zero_add, ← bind_pure m, ← List.append_nil ss]
  refine chainFrom_step h (fun b v _ => ?_) fun _ => id
  intro ts next rest w' shapes follows hw
  obtain rfl := List.map_eq_nil_iff.1 shapes
  exact ⟨w', hw, chainFrom_ends (ends b next rest w' follows) fuel⟩

/-- One more operator of a level and its right operand. -/
theorem levelStep {s : Shape} {op : BinaryOp} (read : levelOp? n s.kind = some op)
    (noIn : s.kind ≠ .keyword .isIn) (h : Covers w c (level inner (n + 1)) σ F m) (left : Expr) :
    Covers w c (Grammar.levelStep inner n left) (s :: σ) F (some <$> do
      let right ← m
      Outcome.bound (Binding.binary · op left right 0)) := by
  have step : Covers w c (binaryStep (levelOp? n) (level inner (n + 1)) left) (s :: σ) F
      (some <$> do
        let right ← m
        Outcome.bound (Binding.binary · op left right 0)) := by
    refine .current_bind fun t shape => ?_
    have kind : t.kind = s.kind := congrArg Shape.kind shape
    rw [kind, read, map_eq_pure_bind, bind_assoc]
    refine .advance_bind fun t _ => h.bind_last fun right v _ => ?_
    have bound : Covers v c (Binder.bound (Binding.binary · op left right t.offset)) [] F
        (Outcome.bound (Binding.binary · op left right 0)) :=
      .bound fun s e => ⟨(Binding.binary_moves op).ok e, (Binding.binary_moves op).ok e⟩
    exact bound.bind_last fun e _ _ => .pure (some e)
  unfold Grammar.levelStep
  split
  next three =>
    subst three
    exact .isKind_bind _ false (fun _ _ => beq_false_of_ne noIn) step
  next => exact step

end Covers

/-! ## Operators -/

/-- One operator between each two operands, which are grouped to the left. -/
def operated [GuidFormat] (op : BinaryOp) (P : τ → Outcome Expr) (left : Expr) (xs : List τ) :
    Outcome Expr :=
  xs.foldlM (fun left x => do
    let right ← P x
    Outcome.bound (Binding.binary · op left right 0)) left

section Operators

variable {P : τ → Outcome Expr} {I : Workspace → Prop} {s : Shape}

/-- Operators and operands behind the first operand. -/
theorem chainFrom_covers (op : BinaryOp) (read : levelOp? n s.kind = some op)
    (noIn : s.kind ≠ .keyword .isIn) (ends : Ends (n + 1) s.kind)
    (kept : ∀ x v e v', I v → P x v = (.ok e, v') → I v') {xs : List τ}
    (h : List.Forall₂ (fun x σ => ∀ v, I v →
      Covers v c (level inner (n + 1)) σ (Ends (n + 1)) (P x)) xs σs) :
    ∀ fuel left w, xs.length ≤ fuel → I w →
      Covers w c (chainFrom (Grammar.levelStep inner n) fuel left) (σs.flatMap (s :: ·)) (Ends n)
        (operated op P left xs) := by
  induction h with
  | nil =>
    intro fuel left w _ _ ts next rest w' shapes follows hw
    obtain rfl := List.map_eq_nil_iff.1 shapes
    exact ⟨w', hw, chainFrom_ends (levelStep_ends (follows.passes n (Nat.le_refl n)) left) fuel⟩
  | @cons x σ xs σs first _ ih =>
    intro fuel left w enough hw
    obtain ⟨fuel, rfl⟩ : ∃ f, fuel = f + 1 := ⟨fuel - 1, by rw [List.length_cons] at enough; omega⟩
    rw [List.flatMap_cons, operated, List.foldlM_cons]
    refine .chainFrom_step (F := Ends (n + 1)) (.levelStep read noIn (first w hw) left)
      (fun e v run => ?_) fun κ follows => ?_
    · obtain ⟨right, u, operand, bound⟩ := bind_eq_ok.1 run
      obtain ⟨-, rfl⟩ := Outcome.bound_eq_ok.1 bound
      exact ih fuel e v (Nat.le_of_succ_le_succ enough) (kept x w right v hw operand)
    · cases σs with
      | nil => exact follows.mono (Nat.le_succ n)
      | cons => exact ends

/-- **Operands with one operator between them** are grouped to the left.  The operands are read in
workspaces of which something is known, and which they keep. -/
theorem operators_covers (op : BinaryOp) (h₁ : 1 ≤ n) (h₆ : n ≤ 6)
    (read : levelOp? n s.kind = some op) (noIn : s.kind ≠ .keyword .isIn)
    (ends : Ends (n + 1) s.kind)
    (kept : ∀ x v e v', I v → P x v = (.ok e, v') → I v') {xs : List τ}
    (first : Covers w c (level inner (n + 1)) σ (Ends (n + 1)) m)
    (starts : ∀ e v, m w = (.ok e, v) → I v)
    (h : List.Forall₂ (fun x σ => ∀ v, I v →
      Covers v c (level inner (n + 1)) σ (Ends (n + 1)) (P x)) xs σs)
    (count : xs.length ≤ c.tokenCount) :
    Covers w c (level inner n) ([s].intercalate (σ :: σs)) (Ends n) (do
      let left ← m
      operated op P left xs) := by
  rw [level_eq inner h₁ h₆, intercalate_cons]
  refine Covers.bind first (fun left v run => ?_) fun κ follows => ?_
  · refine .still_bind (fun _ => True) (fun _ _ _ _ => runs_tokenCount) (fun _ _ => trivial) ?_
    exact chainFrom_covers op read noIn ends kept h _ left v count (starts left v run)
  · cases σs with
    | nil => exact follows.mono (Nat.le_succ n)
    | cons => exact ends

end Operators

/-! ## Memberships -/

/-- The shape of the word of a membership. -/
def Shape.isIn : Shape := ⟨.keyword .isIn, "in"⟩

/-- The sequence that a list of one sequence stands for. -/
def sequence? : List Expr → Option Expr
  | [e] => if e.ty.element?.isSome then some e else none
  | _ => none

/-- The membership of an item in a list of candidates, or in the only one. -/
def amongst [GuidFormat] (item : Expr) (candidates : List Expr) : Outcome Expr :=
  match sequence? candidates with
  | some source => Outcome.bound (Binding.contains · source item 0)
  | none => do
    match ← Outcome.bound (Binding.oneOf · item candidates 0) with
    | some e => return e
    | none => throw (.ofCause (.unexpectedToken "" "") 0)

theorem bound_contains_covers (source item : Expr) (offset : Nat) :
    Covers w c (bound (Binding.contains · source item offset)) [] F
      (Outcome.bound (Binding.contains · source item 0)) :=
  .bound fun _ e => ⟨Binding.contains_moves.ok e, Binding.contains_moves.ok e⟩

/-- A membership in a list. -/
theorem list_covers {m : Outcome (List Expr)}
    (list : Covers w c (do
      let es ← expressionList inner
      let _ ← expect (.symbol .rightParen)
      return es) (ss ++ [.sign .rightParen]) F m) (item : Expr) (offset : Nat) :
    Covers w c (membership inner item offset) (Shape.wrap ss) F (m >>= amongst item) := by
  refine .isKind_bind _ true (fun _ _ => rfl) (.advance_bind fun _ _ => ?_)
  have step := list.bind_last (f := fun es => (do
    match sequence? es with
    | some source => bound (Binding.contains · source item offset)
    | none =>
      match ← bound (Binding.oneOf · item es offset) with
      | some e => return e
      | none => unexpected "expression")) (k := amongst item) fun es v _ => ?_
  · simp only [bind_assoc, pure_bind] at step
    exact step
  · unfold amongst
    split
    next source _ => exact bound_contains_covers source item offset
    next =>
      refine .bind_last (.bound fun s v =>
        ⟨(Binding.oneOf_moves es).ok v, (Binding.oneOf_moves es).ok v⟩)
        fun e? _ _ => ?_
      cases e? with
      | some e => exact .pure e
      | none => exact .fails (fun s => fails_unexpected _) ⟨_, _, rfl⟩

/-- An operand, the word of a membership, and what is behind it. -/
theorem membership_covers {k : Expr → Outcome Expr}
    (item : Covers w c (level inner 4) σ (Ends 4) m)
    (right : ∀ e v, m w = (.ok e, v) → ∀ offset, Covers v c (membership inner e offset) ss F (k e))
    (more : 0 < c.tokenCount) (passes : ∀ κ, F κ → Passes 3 κ) :
    Covers w c (level inner 3) (σ ++ Shape.isIn :: ss) F (m >>= k) := by
  refine Covers.bind item (fun e v run => ?_) fun κ _ => (by decide : Ends 4 (.keyword .isIn))
  refine .chain_step ?_ more fun b t rest w follows => levelStep_ends (passes _ follows) b
  refine .isKind_bind _ true (fun _ _ => rfl) (.advance_bind fun t _ => ?_)
  rw [map_eq_pure_bind]
  exact (right e v run t.offset).bind_last fun e _ _ => .pure (some e)

/-! ## Calls -/

/-- The membership of an item in a sequence, both computed from left to right. -/
def contained [GuidFormat] (m m' : Outcome Expr) : Outcome Expr := do
  let source ← m
  let item ← m'
  Outcome.bound (Binding.contains · source item 0)

/-- The schema is that of the workspace. -/
theorem Covers.schema_bind {f : Schema → Binder α} {m : Outcome α}
    (h : Covers w c (f w.registry.schema) ss F m) : Covers w c (schema >>= f) ss F m := by
  intro ts next rest w' shapes follows hw
  have read : Runs c schema ⟨ts ++ next :: rest, w'⟩ w.registry.schema
      ⟨ts ++ next :: rest, w'⟩ := by
    rw [← hw.schema]
    rfl
  rw [read.bind_eq]
  exact h ts next rest w' shapes follows hw

/-- The result of a call with a plain argument. -/
theorem sequenceResult_contains (source argument : Expr) (item : Ty) (offset : Nat)
    (s : BindState) : Runs c (sequenceResult source item .contains none (some argument) offset) s
      (.sequenceCall source .contains none (some argument) .boolean) s := rfl

/-- The argument of a call of `Contains`, between its parentheses. -/
theorem argument_covers {source : Expr} {ty : Ty} (element : source.ty.element? = some ty)
    (item : EchoesAt w c inner σ m') (offset : Nat) :
    Covers w c (sequenceCall inner source ty .contains offset) (Shape.wrap σ) F (do
      let item ← m'
      Outcome.bound (Binding.contains · source item 0)) := by
  simp only [sequenceCall, sequenceValue, SequenceMethod.argument, if_true, bind_assoc, pure_bind]
  refine .expect_bind rfl fun _ _ => .current_bind_blind fun t => ?_
  refine item.bind (fun e v _ => .schema_bind ?_) (fun _ _ => rfl) fun e s early => ?_
  · cases promoted : e.promote? v.registry.schema ty true with
    | none =>
      refine .fails (fun s => (fails_fail _ _).bind _) ?_
      simp only [Outcome.bound, Binding.contains, element, promoted]
      exact ⟨_, _, rfl⟩
    | some p =>
      refine .expect_bind rfl fun _ _ ts next rest v' shapes _ hv => ?_
      obtain rfl := List.map_eq_nil_iff.1 shapes
      simp only [Outcome.bound, Binding.contains, element, promoted]
      exact ⟨v', hv, sequenceResult_contains source p.expr ty t.offset _⟩
  · refine Runs.fails_bind (a := s.workspace.registry.schema) rfl ?_
    split
    · exact (fails_expect (ne_of_isEnd early rfl)).bind _
    · exact (fails_fail _ _).bind _

/-- A call of `Contains` on a sequence in parentheses. -/
theorem contains_covers (receiver : EchoesAt w c inner σ m) (item : Echoes c inner ss m')
    (sequence : ∀ e v, m w = (.ok e, v) → e.ty.element?.isSome = true) (more : 0 < c.tokenCount) :
    Covers w c (primary inner)
      (Shape.wrap σ ++ .sign .dot :: ⟨.identifier, "Contains"⟩ :: Shape.wrap ss) (Ends 8)
      (contained m m') := by
  refine Covers.bind (parenthesizedStart_covers (F := fun _ => True) receiver)
    (fun source v run => ?_) fun _ _ => trivial
  refine .chain_step ?_ more fun e t rest w ends => suffixStep_ends ends e
  refine .current_bind fun t shape => ?_
  have kind : t.kind = .symbol .dot := congrArg Shape.kind shape
  rw [kind]
  refine .advance_bind fun _ _ => ?_
  rw [map_eq_pure_bind]
  refine Covers.bind_last ?_ fun e _ _ => .pure (some e)
  refine .expect_bind rfl fun t shape => .isKind_bind _ true (fun _ _ => rfl) ?_
  obtain ⟨ty, element⟩ := Option.isSome_iff_exists.1 (sequence source v run)
  have name : t.text = "Contains" := congrArg Shape.text shape
  have method : SequenceMethod.ofName? "Contains" = some .contains := rfl
  rw [name, if_pos rfl, methodCall, element, method]
  exact argument_covers element (item v) t.offset

end TypedExpr
