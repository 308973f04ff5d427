import Mathlib.Data.List.Forall2
import TypedExpr.Proofs.Lockstep.Grammar

/-!
# Token lists in step

The relation of states that runs keep step over: the tokens left to read are alike, up to a place
where both lists end what is read.

* `Workspace.Akin`, `Workspace.Similar` — workspaces in which the same can be bound.
* `Workspace.Kept` — what is assumed of a relation of workspaces.
* `Aligned` — the relation of states.
* **`aligned_alignment`** — everything that a part of the grammar does keeps it.
* **`Grammar.level_agree`** — runs of a level in aligned states agree.
-/

namespace TypedExpr

variable {format : GuidFormat}

/-! ## Workspaces -/

namespace Workspace

variable {u v w : Workspace}

/-- Both workspaces have the same declarations. -/
structure Akin (w v : Workspace) : Prop where
  schema : v.registry.schema = w.registry.schema
  named : v.registry.named = w.registry.named

/-- Besides, both number the next record alike.  They differ in what was computed already only. -/
structure Similar (w v : Workspace) : Prop extends Akin w v where
  next : v.nextAnonymous = w.nextAnonymous

theorem Akin.refl (w : Workspace) : Akin w w := ⟨rfl, rfl⟩

theorem Akin.symm (h : Akin w v) : Akin v w := ⟨h.schema.symm, h.named.symm⟩

theorem Akin.trans (h : Akin u v) (h' : Akin v w) : Akin u w :=
  ⟨h'.schema.trans h.schema, h'.named.trans h.named⟩

theorem Similar.refl (w : Workspace) : Similar w w := ⟨.refl w, rfl⟩

theorem Similar.symm (h : Similar w v) : Similar v w := ⟨h.toAkin.symm, h.next.symm⟩

theorem Similar.trans (h : Similar u v) (h' : Similar v w) : Similar u w :=
  ⟨h.toAkin.trans h'.toAkin, h'.next.trans h.next⟩

theorem similar_members (w : Workspace) (ty : Ty) : Similar w (w.members ty).2 :=
  ⟨⟨w.registry.members_schema ty, w.registry.members_named ty⟩, rfl⟩

theorem similar_findType (w : Workspace) (name : String) (context : Ty) :
    Similar w (w.findType name context).2 := by
  obtain ⟨schema, named, -⟩ := w.registry.findType_snd name context
  exact ⟨⟨schema, named⟩, rfl⟩

/-- The workspace behind a projection. -/
def numbered (w : Workspace) : Workspace := { w with nextAnonymous := w.nextAnonymous + 1 }

theorem akin_numbered (w : Workspace) : Akin w w.numbered := ⟨rfl, rfl⟩

/-- Related workspaces have the same declarations, and stay related when members or names are looked
up. -/
structure Kept (W : Workspace → Workspace → Prop) : Prop where
  akin {w v : Workspace} : W w v → Akin w v
  asks {w v : Workspace} (ty : Ty) : W w v → W (w.members ty).2 (v.members ty).2
  finds {w v : Workspace} (name : String) (context : Ty) :
    W w v → W (w.findType name context).2 (v.findType name context).2

/-- Related workspaces number the next record alike, and stay related when they do. -/
def Numbers (W : Workspace → Workspace → Prop) : Prop :=
  ∀ w v, W w v → v.nextAnonymous = w.nextAnonymous ∧ W w.numbered v.numbered

/-- Two workspaces with the declarations of a third one, in which the next records have certain
numbers. -/
structure Apart (u : Workspace) (i j : Nat) (w v : Workspace) : Prop where
  left : Akin u w
  right : Akin u v
  next : w.nextAnonymous = i
  next' : v.nextAnonymous = j

theorem kept_apart (u : Workspace) (i j : Nat) : Kept (Apart u i j) where
  akin h := h.left.symm.trans h.right
  asks ty h := ⟨h.left.trans (similar_members _ ty).toAkin,
    h.right.trans (similar_members _ ty).toAkin, h.next, h.next'⟩
  finds name ty h := ⟨h.left.trans (similar_findType _ name ty).toAkin,
    h.right.trans (similar_findType _ name ty).toAkin, h.next, h.next'⟩

/-- Two similar workspaces with the declarations of a third one. -/
structure Together (u : Workspace) (w v : Workspace) : Prop extends Similar w v where
  left : Akin u w

theorem kept_together (u : Workspace) : Kept (Together u) where
  akin h := h.toAkin
  asks ty h := ⟨(similar_members _ ty).symm.trans (h.toSimilar.trans (similar_members _ ty)),
    h.left.trans (similar_members _ ty).toAkin⟩
  finds name ty h :=
    ⟨(similar_findType _ name ty).symm.trans (h.toSimilar.trans (similar_findType _ name ty)),
    h.left.trans (similar_findType _ name ty).toAkin⟩

theorem numbers_together (u : Workspace) : Numbers (Together u) := by
  intro w v h
  refine ⟨h.next, ⟨⟨⟨h.schema, h.named⟩, ?_⟩, h.left.trans (akin_numbered w)⟩⟩
  exact congrArg (· + 1) h.next

end Workspace

/-! ## Depth -/

theorem nesting?_cons (k : Nat) (κ : TokenKind) (κs : List TokenKind) :
    nesting? k (κ :: κs) = (κ.nest? k).bind fun j => nesting? j κs := rfl

/-- Kinds at which no more is read at a depth: the end of the text, and what stands outside of all
parentheses. -/
def IsBarrier (depth : Nat) (κ : TokenKind) : Prop := κ = .finish ∨ depth = 0 ∧ κ.isEnd = true

/-- Where the depth cannot be told, something stands outside of all parentheses. -/
theorem isBarrier_of_nest? {k : Nat} {κ : TokenKind} (h : κ.nest? k = none) : IsBarrier k κ := by
  unfold TokenKind.nest? at h
  split at h
  · cases h
  · split at h
    next outside => exact Or.inr ⟨outside, rfl⟩
    next => cases h
  · split at h
    next outside => exact Or.inr ⟨outside, rfl⟩
    next => cases h
  · cases h

/-- Tokens up to the first barrier. -/
theorem exists_barrier (k : Nat) (ts : List Token) :
    ∃ front tail depth, ts = front ++ tail ∧ nesting? k (front.map Token.kind) = some depth ∧
      (∀ t ∈ front, t.kind ≠ .finish) ∧ ∀ t ∈ tail.head?, IsBarrier depth t.kind := by
  induction ts generalizing k with
  | nil => exact ⟨[], [], k, rfl, rfl, nofun, nofun⟩
  | cons t ts ih =>
    by_cases last : t.kind = .finish
    · refine ⟨[], t :: ts, k, rfl, rfl, nofun, ?_⟩
      rintro _ ⟨⟩
      exact Or.inl last
    · cases nest : t.kind.nest? k with
      | none =>
        refine ⟨[], t :: ts, k, rfl, rfl, nofun, ?_⟩
        rintro _ ⟨⟩
        exact isBarrier_of_nest? nest
      | some j =>
        obtain ⟨front, tail, depth, rfl, nesting, proper, barrier⟩ := ih j
        refine ⟨t :: front, tail, depth, rfl, ?_, ?_, barrier⟩
        · rw [List.map_cons, nesting?_cons, nest]
          exact nesting
        · exact List.forall_mem_cons.2 ⟨last, proper⟩

/-! ## Aligned states -/

open Binder

/-- The states have alike tokens left to read in front of two tails, all of a kind that `P` admits,
and they lead from one depth to another. -/
structure Beside (P : TokenKind → Prop) (W : Workspace → Workspace → Prop) (depth : Nat)
    (tail tail' ts ts' : List Token) (k n : Nat) (s s' : BindState) : Prop where
  tokens : s.tokens = ts ++ tail
  tokens' : s'.tokens = ts' ++ tail'
  alike : List.Forall₂ Token.Alike ts ts'
  length : ts.length = n
  nesting : nesting? k (ts.map Token.kind) = some depth
  proper : ∀ t ∈ ts, P t.kind
  remaining : s.tokens ≠ []
  workspace : W s.workspace s'.workspace

/-- The states have alike tokens left to read, in front of the two tails. -/
def Aligned (P : TokenKind → Prop) (W : Workspace → Workspace → Prop) (depth : Nat)
    (tail tail' : List Token) : Matching :=
  fun k n s s' => ∃ ts ts', Beside P W depth tail tail' ts ts' k n s s'

/-- The tails end what is read; they are missing in broken texts alone. -/
structure Tails (broken : Prop) (depth : Nat) (tail tail' : List Token) : Prop where
  heads : Heads depth 0 (headToken tail) (headToken tail')
  more : tail ≠ [] ∧ tail' ≠ [] ∨ broken ∧ tail = [] ∧ tail' = []

section Alignments

variable {P : TokenKind → Prop} {W : Workspace → Workspace → Prop} {broken : Prop} {depth : Nat}
  {tail tail' : List Token}

/-- A barrier ends what is read next to itself. -/
theorem heads_of_barrier {ts : List Token} (h : ∀ t ∈ ts.head?, IsBarrier depth t.kind) :
    Heads depth 0 (headToken ts) (headToken ts) := by
  cases ts with
  | nil => exact .finished rfl rfl
  | cons t ts =>
    obtain last | ⟨outside, isEnd⟩ := h t rfl
    · exact .finished last last
    · exact .ended outside isEnd isEnd

theorem Aligned.heads (proper : ∀ κ, P κ → κ ≠ .finish) (tails : Tails broken depth tail tail')
    {k n : Nat} {s s' : BindState} (h : Aligned P W depth tail tail' k n s s') :
    Heads k n (headToken s.tokens) (headToken s'.tokens) := by
  obtain ⟨ts, ts', b⟩ := h
  rw [b.tokens, b.tokens']
  cases b.alike with
  | nil =>
    obtain rfl := b.length
    obtain rfl : k = depth := Option.some.inj b.nesting
    exact tails.heads
  | cons alike _ =>
    obtain rfl := b.length
    exact .inside alike (proper _ (b.proper _ List.mem_cons_self))

theorem Aligned.moves (tails : Tails broken depth tail tail') {k n : Nat} {s s' : BindState}
    (h : Aligned P W depth tail tail' k (n + 1) s s') :
    (∃ t u ts t' u' ts' k₂, s.tokens = t :: u :: ts ∧ s'.tokens = t' :: u' :: ts' ∧
      t.kind.nest? k = some k₂ ∧ Aligned P W depth tail tail' k₂ n { s with tokens := u :: ts }
        { s' with tokens := u' :: ts' }) ∨
    broken ∧ ∃ t t', s.tokens = [t] ∧ s'.tokens = [t'] := by
  obtain ⟨_ | ⟨t, ts⟩, _ | ⟨t', ts'⟩, b⟩ := h
  · cases b.length
  · cases b.alike
  · cases b.alike
  have length := Nat.succ.inj b.length
  have more := List.forall_mem_cons.1 b.proper
  have alike := (List.forall₂_cons.1 b.alike).2
  have nesting := b.nesting
  rw [List.map_cons, nesting?_cons] at nesting
  obtain ⟨k₂, nest, nesting⟩ := Option.bind_eq_some_iff.1 nesting
  by_cases empty : ts ++ tail = []
  · obtain ⟨rfl, rfl⟩ := List.append_eq_nil_iff.1 empty
    obtain ⟨nonempty, -⟩ | ⟨cut, -, rfl⟩ := tails.more
    · exact absurd rfl nonempty
    · obtain rfl := List.forall₂_nil_left_iff.1 alike
      exact Or.inr ⟨cut, t, t', b.tokens, b.tokens'⟩
  · have empty' : ts' ++ tail' ≠ [] := by
      intro empty'
      obtain ⟨rfl, rfl⟩ := List.append_eq_nil_iff.1 empty'
      obtain rfl := List.forall₂_nil_right_iff.1 alike
      obtain ⟨-, nonempty⟩ | ⟨-, rfl, -⟩ := tails.more
      · exact nonempty rfl
      · exact empty rfl
    obtain ⟨u, us, hu⟩ := List.exists_cons_of_ne_nil empty
    obtain ⟨u', us', hu'⟩ := List.exists_cons_of_ne_nil empty'
    refine Or.inl ⟨t, u, us, t', u', us', k₂, ?_, ?_, nest, ts, ts', ?_⟩
    · rw [b.tokens, List.cons_append, hu]
    · rw [b.tokens', List.cons_append, hu']
    · exact ⟨hu.symm, hu'.symm, alike, length, nesting, more.2, nofun, b.workspace⟩

/-- **Everything that a part of the grammar does keeps states aligned.**  Records need to be
numbered alike only where one is written. -/
theorem aligned_alignment (proper : ∀ κ, P κ → κ ≠ .finish)
    (tails : Tails broken depth tail tail') (kept : Workspace.Kept W)
    (numbers : (∀ κ, P κ → κ ≠ .keyword .new) ∨ Workspace.Numbers W) :
    Alignment (Aligned P W depth tail tail') broken where
  heads := Aligned.heads proper tails
  moves := Aligned.moves tails
  sameSchema := fun ⟨_, _, b⟩ => (kept.akin b.workspace).schema.symm
  sameNamed := fun ⟨_, _, b⟩ => (kept.akin b.workspace).named.symm
  asks ty := fun ⟨ts, ts', b⟩ => ⟨ts, ts',
    b.tokens, b.tokens', b.alike, b.length, b.nesting, b.proper, b.remaining,
    kept.asks ty b.workspace⟩
  finds name ty := fun ⟨ts, ts', b⟩ => ⟨ts, ts',
    b.tokens, b.tokens', b.alike, b.length, b.nesting, b.proper, b.remaining,
    kept.finds name ty b.workspace⟩
  numbers := by
    rintro k n s s' ⟨ts, ts', b⟩ here
    rcases numbers with none | numbers
    · exfalso
      rw [b.tokens] at here
      cases ts with
      | nil =>
        have heads := tails.heads
        rw [List.nil_append] at here
        cases heads with
        | finished left =>
          rw [here] at left
          cases left
        | ended outside left =>
          rw [here] at left
          cases left
      | cons t ts => exact none _ (b.proper t List.mem_cons_self) here
    · rintro k n s s' ⟨ts, ts', b⟩
      obtain ⟨next, w⟩ := numbers _ _ b.workspace
      exact ⟨next.symm, ts, ts', b.tokens, b.tokens', b.alike, b.length, b.nesting, b.proper,
        b.remaining, w⟩

/-- A token that does not end its own text does not end another one. -/
theorem isEnd_of_alike {t u : Token} {j : Nat} (alike : t.Alike u) (more : t.kind ≠ .finish)
    (nest : t.kind.nest? 0 = some j) : u.kind.isEnd = false := by
  cases isEnd : u.kind.isEnd with
  | false => rfl
  | true =>
    exfalso
    have same := TokenKind.eq_of_canonical alike.kind.symm (TokenKind.hasSynonym_of_isEnd isEnd)
    rw [same] at more nest
    generalize u.kind = κ at isEnd more nest
    unfold TokenKind.isEnd at isEnd
    split at isEnd
    · exact more rfl
    · cases nest
    · cases nest
    · cases isEnd

/-- Outside of all parentheses, aligned states have read all that is in front of the tails, or are
in front of tokens that end nothing. -/
theorem Aligned.halted (proper : ∀ κ, P κ → κ ≠ .finish) {n : Nat} {s s' : BindState}
    (h : Aligned P W depth tail tail' 0 n s s') :
    (depth = 0 ∧ s.tokens ≠ [] ∧
      s.tokens = tail ∧ s'.tokens = tail' ∧ W s.workspace s'.workspace) ∨
    (headToken s.tokens).kind.isEnd = false ∧ (headToken s'.tokens).kind.isEnd = false := by
  obtain ⟨ts, ts', b⟩ := h
  have nesting := b.nesting
  rw [b.tokens, b.tokens']
  cases b.alike with
  | nil =>
    obtain rfl := Option.some.inj nesting
    have remaining := b.remaining
    rw [b.tokens] at remaining
    exact Or.inl ⟨rfl, remaining, rfl, rfl, b.workspace⟩
  | @cons t _ _ _ alike _ =>
    rw [List.map_cons, nesting?_cons] at nesting
    obtain ⟨j, nest, -⟩ := Option.bind_eq_some_iff.1 nesting
    have more := proper _ (b.proper t List.mem_cons_self)
    exact Or.inr ⟨isEnd_of_alike ⟨rfl, fun _ => rfl⟩ more nest, isEnd_of_alike alike more nest⟩

end Alignments

namespace Grammar

/-- **Runs of a level in related states agree.** -/
theorem level_agree {R : Matching} {broken : Prop} (A : Alignment R broken) {n d d' : Nat}
    {c c' : BindContext} {s s' : BindState} (hd : n ≤ d) (hd' : n ≤ d')
    (p : Peers broken (n + 1) c c') (l : Nat) (h : R 0 n s s') :
    Agree (Same R 0 (n + 1)) (level (expression d) l c s) (level (expression d') l c' s') :=
  level_lockstep A (expression_lockstep A n d d' hd hd' (Nat.le_succ n)) (Nat.le_refl _) l _
    (Nat.le_refl _) c c' p 0 s s' ⟨n, Nat.lt_succ_self n, h⟩

end Grammar

end TypedExpr
