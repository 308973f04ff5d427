import TypedExpr.Proofs.Lockstep.Coupling

/-!
# Tokens read in step

Two lists of tokens are read alike although they are not the same: their positions differ, a sign
may be written as a word, and what stands behind an expression may be one thing or another that
ends it.

* `TokenKind.canonical`, `Token.Alike` — tokens of one meaning.
* `TokenKind.nest?`, `nesting?` — how deep in parentheses a place is.
* `Alignment` — what is assumed of the states of two runs: their current tokens are alike or end
  what is read, and moving on keeps the states related.
* `Below`, `Facing` — related states with fewer than some number of tokens to read, and those at a
  token of a kind.
* `Binder.advance_coupled`, `Binder.expect_coupled`, `Binder.chain_coupled`, … — what parts of the
  grammar are made of keeps step.
-/

namespace TypedExpr

variable {format : GuidFormat}

/-! ## Synonyms -/

namespace TokenKind

/-- The preferred one of the kinds of one meaning: signs rather than words. -/
def canonical : TokenKind → TokenKind
  | .symbol .equalEqual => .symbol .equal
  | .symbol .lessGreater => .symbol .notEqual
  | .keyword .and => .symbol .ampAmp
  | .keyword .or => .symbol .barBar
  | .keyword .not => .symbol .bang
  | k => k

/-- Whether there is another kind of the same meaning. -/
def hasSynonym : TokenKind → Bool
  | .symbol .equal | .symbol .equalEqual | .symbol .notEqual | .symbol .lessGreater => true
  | .symbol .ampAmp | .symbol .barBar | .symbol .bang => true
  | .keyword .and | .keyword .or | .keyword .not => true
  | _ => false

/-- Whether tokens of the kind are told apart by their texts. -/
def isSpelled : TokenKind → Bool
  | .keyword _ | .symbol _ | .finish => false
  | _ => true

theorem canonical_of_sole {k : TokenKind} (sole : k.hasSynonym = false) : k.canonical = k := by
  cases k with
  | keyword w => cases w <;> first | rfl | cases sole
  | symbol s => cases s <;> first | rfl | cases sole
  | _ => rfl

theorem hasSynonym_canonical (k : TokenKind) : k.canonical.hasSynonym = k.hasSynonym := by
  cases k with
  | keyword w => cases w <;> rfl
  | symbol s => cases s <;> rfl
  | _ => rfl

/-- A kind without synonyms is the only one of its meaning. -/
theorem eq_of_canonical {k l : TokenKind} (h : k.canonical = l.canonical)
    (sole : k.hasSynonym = false) : l = k := by
  have other : l.hasSynonym = false := by
    rw [← hasSynonym_canonical, ← h, hasSynonym_canonical, sole]
  rw [canonical_of_sole sole, canonical_of_sole other] at h
  exact h.symm

/-- Kinds of one meaning are the same, or both have synonyms. -/
theorem eq_or_hasSynonym {k l : TokenKind} (h : k.canonical = l.canonical) :
    l = k ∨ k.hasSynonym = true ∧ l.hasSynonym = true := by
  cases sole : k.hasSynonym with
  | false => exact Or.inl (eq_of_canonical h sole)
  | true => exact Or.inr ⟨rfl, by rw [← hasSynonym_canonical, ← h, hasSynonym_canonical, sole]⟩

end TokenKind

/-- The tokens have one meaning: their kinds are synonyms, and their texts are the same where these
matter.  Their positions may differ. -/
structure Token.Alike (t u : Token) : Prop where
  kind : t.kind.canonical = u.kind.canonical
  text : t.kind.isSpelled = true → t.text = u.text

/-! ## Parentheses -/

namespace TokenKind

/-- How deep in parentheses the place behind a token of the kind is.  Outside of parentheses there
is no comma, and nothing to close. -/
def nest? : TokenKind → Nat → Option Nat
  | .symbol .leftParen, k => some (k + 1)
  | .symbol .rightParen, k => if k = 0 then none else some (k - 1)
  | .symbol .comma, k => if k = 0 then none else some k
  | _, k => some k

/-- Whether a token of the kind ends an expression outside of which it stands: the end of the text,
a closing parenthesis or a comma. -/
def isEnd : TokenKind → Bool
  | .finish | .symbol .rightParen | .symbol .comma => true
  | _ => false

theorem hasSynonym_of_isEnd {κ : TokenKind} (h : κ.isEnd = true) : κ.hasSynonym = false := by
  unfold isEnd at h
  split at h <;> first | rfl | cases h

theorem nest?_comma {k : Nat} (inside : 0 < k) : (TokenKind.symbol .comma).nest? k = some k :=
  if_neg (Nat.ne_of_gt inside)

end TokenKind

/-- How deep in parentheses the place behind some tokens of these kinds is. -/
def nesting? (k : Nat) (κs : List TokenKind) : Option Nat :=
  κs.foldlM (fun k κ => κ.nest? k) k

/-! ## Related states -/

/-- How the current tokens of two runs compare, at a depth and with a number of tokens to read:
inside of what is read they are alike, and behind it they end it. -/
inductive Heads (k : Nat) : Nat → Token → Token → Prop
  | inside {n : Nat} {t u : Token} (alike : t.Alike u) (more : t.kind ≠ .finish) :
    Heads k (n + 1) t u
  | finished {t u : Token} (left : t.kind = .finish) (right : u.kind = .finish) : Heads k 0 t u
  | ended {t u : Token} (outside : k = 0) (left : t.kind.isEnd = true)
    (right : u.kind.isEnd = true) : Heads k 0 t u

/-- A relation between the states of two runs.  It has two numbers: how deep in parentheses both
are, and how many tokens are left to read. -/
abbrev Matching [GuidFormat] := Nat → Nat → BindState → BindState → Prop

/-- Wherever the states are related, both runs number the next record alike, and stay related if
they do. -/
def Matching.Numbers [GuidFormat] (R : Matching) : Prop :=
  ∀ ⦃k n s s'⦄, R k n s s' → s.workspace.nextAnonymous = s'.workspace.nextAnonymous ∧
    R k n
      { s with workspace := { s.workspace with nextAnonymous := s.workspace.nextAnonymous + 1 } }
      { s' with workspace := { s'.workspace with nextAnonymous := s'.workspace.nextAnonymous + 1 } }

/-- The relation is kept by everything that a part of the grammar does to its state.  Where both
texts are broken, their last tokens are never left. -/
structure Alignment [GuidFormat] (R : Matching) (broken : Prop) : Prop where
  heads {k n s s'} : R k n s s' → Heads k n (Binder.headToken s.tokens) (Binder.headToken s'.tokens)
  moves {k n s s'} : R k (n + 1) s s' →
    (∃ t u ts t' u' ts' k₂, s.tokens = t :: u :: ts ∧ s'.tokens = t' :: u' :: ts' ∧
      t.kind.nest? k = some k₂ ∧
        R k₂ n { s with tokens := u :: ts } { s' with tokens := u' :: ts' }) ∨
    broken ∧ ∃ t t', s.tokens = [t] ∧ s'.tokens = [t']
  sameSchema {k n s s'} : R k n s s' →
    s.workspace.registry.schema = s'.workspace.registry.schema
  sameNamed {k n s s'} : R k n s s' → s.workspace.registry.named = s'.workspace.registry.named
  asks {k n s s'} (ty : Ty) : R k n s s' →
    R k n { s with workspace := (s.workspace.members ty).2 }
      { s' with workspace := (s'.workspace.members ty).2 }
  finds {k n s s'} (name : String) (context : Ty) : R k n s s' →
    R k n { s with workspace := (s.workspace.findType name context).2 }
      { s' with workspace := (s'.workspace.findType name context).2 }
  numbers {k n s s'} : R k n s s' → (Binder.headToken s.tokens).kind = .keyword .new → R.Numbers

/-- Both runs stand at alike tokens, and can move on unless these are the last ones of broken
texts. -/
theorem Alignment.front {R : Matching} {broken : Prop} {k m : Nat} (A : Alignment R broken)
    {s s' : BindState} (h : R k (m + 1) s s') :
    (∃ t u ts t' u' ts' k₂, s.tokens = t :: u :: ts ∧ s'.tokens = t' :: u' :: ts' ∧
      t.Alike t' ∧ t.kind.nest? k = some k₂ ∧
        R k₂ m { s with tokens := u :: ts } { s' with tokens := u' :: ts' }) ∨
    broken ∧ ∃ t t', s.tokens = [t] ∧ s'.tokens = [t'] := by
  have heads := A.heads h
  refine (A.moves h).imp_left ?_
  rintro ⟨t, u, ts, t', u', ts', k₂, hs, hs', nest, hr⟩
  rw [hs, hs'] at heads
  cases heads with
  | inside alike more => exact ⟨t, u, ts, t', u', ts', k₂, hs, hs', alike, nest, hr⟩

/-- The states are related, with fewer than `n` tokens left to read. -/
def Below (R : Matching) (k n : Nat) (s s' : BindState) : Prop := ∃ m < n, R k m s s'

/-- The states are related, with fewer than `n` tokens left to read, the first of the kind. -/
def Facing (R : Matching) (k n : Nat) (κ : TokenKind) (s s' : BindState) : Prop :=
  ∃ m, m + 1 < n ∧ R k (m + 1) s s' ∧ (Binder.headToken s.tokens).kind = κ

/-- Besides, the token behind the current one is of a kind. -/
def FacingTwo (R : Matching) (k n : Nat) (front κ : TokenKind) (s s' : BindState) : Prop :=
  Facing R k n front s s' ∧ (s.tokens[1]?).map Token.kind = some κ

/-- The results are the same, and the states are related with fewer than `n` tokens left. -/
def Same (R : Matching) (k n : Nat) {α : Type} (a b : α) (s s' : BindState) : Prop :=
  a = b ∧ Below R k n s s'

/-- The tokens are alike and of the kind, and the states are related. -/
def Taken (R : Matching) (k n : Nat) (κ : TokenKind) (t u : Token) (s s' : BindState) : Prop :=
  (t.Alike u ∧ t.kind = κ) ∧ Below R k n s s'

section States

variable {R : Matching} {k m n : Nat} {κ : TokenKind} {s s' : BindState}

theorem Below.mono (h : Below R k m s s') (le : m ≤ n) : Below R k n s s' := by
  obtain ⟨i, hi, hr⟩ := h
  exact ⟨i, Nat.lt_of_lt_of_le hi le, hr⟩

theorem Same.mono {α : Type} {a b : α} (h : Same R k m a b s s') (le : m ≤ n) :
    Same R k n a b s s' :=
  ⟨h.1, h.2.mono le⟩

theorem Facing.below (h : Facing R k n κ s s') : Below R k n s s' := by
  obtain ⟨m, hm, hr, -⟩ := h
  exact ⟨m + 1, hm, hr⟩

end States

/-! ## Reading in step -/

namespace Binder

/-- Both bounds admit a number of steps, or they are the same. -/
def Enough (n fuel fuel' : Nat) : Prop := n ≤ fuel ∧ n ≤ fuel' ∨ fuel = fuel'

theorem Enough.mono {m n fuel fuel' : Nat} (h : Enough n fuel fuel') (le : m ≤ n) :
    Enough m fuel fuel' :=
  h.imp_left fun ⟨left, right⟩ => ⟨Nat.le_trans le left, Nat.le_trans le right⟩

/-- The bounds are used up together, or neither is. -/
theorem Enough.cases {m fuel fuel' : Nat} (h : Enough (m + 1) fuel fuel') :
    fuel = 0 ∧ fuel' = 0 ∨
      ∃ rest rest', fuel = rest + 1 ∧ fuel' = rest' + 1 ∧ Enough m rest rest' := by
  unfold Enough at h ⊢
  rcases fuel with _ | fuel <;> rcases fuel' with _ | fuel'
  · exact Or.inl ⟨rfl, rfl⟩
  · omega
  · omega
  · exact Or.inr ⟨fuel, fuel', rfl, rfl, by omega⟩

/-- The contexts agree in everything that decides, and their bounds admit `N` steps.  Behind broken
texts lies what cannot be read. -/
structure Peers (broken : Prop) (N : Nat) (c c' : BindContext) : Prop where
  scope : c'.scope = c.scope
  params : c'.params = c.params
  contextKeywords : c'.contextKeywords = c.contextKeywords
  count : Enough N c.tokenCount c'.tokenCount
  fault : broken → c.fault.isSome = true ∧ c'.fault.isSome = true

/-- Inside of a lambda, the contexts agree as well. -/
theorem Peers.push {broken : Prop} {N : Nat} {c c' : BindContext} (p : Peers broken N c c')
    (ty : Ty) (alias? : Option String) :
    Peers broken N { c with scope := c.scope.push ty alias? }
      { c' with scope := c'.scope.push ty alias? } :=
  ⟨by simp only [p.scope], p.params, p.contextKeywords, p.count, p.fault⟩

section Steps

variable {R : Matching} {broken : Prop} {k k₂ m n N : Nat} {κ : TokenKind} {α β : Type}
  {c c' : BindContext}  {Q : α → β → BindState → BindState → Prop}

/-- The states of fewer than no tokens are none. -/
theorem Coupled.vacuous {x : Binder α} {y : Binder β} : Coupled c c' (Below R k 0) x y Q := by
  rintro s s' ⟨m, hm, -⟩
  exact absurd hm (Nat.not_lt_zero m)

/-- A result that both runs share is put into what follows. -/
theorem Coupled.bind_same {γ δ : Type} {Q : γ → δ → BindState → BindState → Prop}
    {P : BindState → BindState → Prop} {x y : Binder α} {f : α → Binder γ} {g : α → Binder δ}
    (hx : Coupled c c' P x y (Same R k n))
    (hf : ∀ a, Coupled c c' (Below R k n) (f a) (g a) Q) :
    Coupled c c' P (x >>= f) (y >>= g) Q := by
  refine hx.bind fun a b => .assume ?_
  rintro rfl
  exact hf a

/-- Tokens that both runs took are put into what follows. -/
theorem Coupled.bind_taken {γ δ : Type} {Q : γ → δ → BindState → BindState → Prop}
    {P : BindState → BindState → Prop} {x y : Binder Token} {f : Token → Binder γ}
    {g : Token → Binder δ} (hx : Coupled c c' P x y (Taken R k n κ))
    (hf : ∀ t u, t.Alike u → t.kind = κ → Coupled c c' (Below R k n) (f t) (g u) Q) :
    Coupled c c' P (x >>= f) (y >>= g) Q := by
  refine hx.bind fun t u => .assume ?_
  rintro ⟨alike, kind⟩
  exact hf t u alike kind

theorem pure_same (a : α) (le : m ≤ n) :
    Coupled c c' (Below R k m) (pure a) (pure a) (Same R k n) :=
  fun _ _ h => ⟨rfl, h.mono le⟩

theorem Coupled.weaken {P : BindState → BindState → Prop} {x y : Binder α}
    (h : Coupled c c' P x y (Same R k m)) (le : m ≤ n) : Coupled c c' P x y (Same R k n) :=
  h.mono (fun _ _ => id) fun _ _ _ _ h => h.mono le

theorem scope_coupled (p : Peers broken N c c') :
    Coupled c c' (Below R k n) scope scope fun a b s s' =>
      (a = c.scope ∧ b = c.scope) ∧ Below R k n s s' :=
  fun _ _ h => ⟨⟨rfl, p.scope⟩, h⟩

/-- The scope is the same in both runs. -/
theorem scope_bind_coupled (p : Peers broken N c c') {f : Scope → Binder α} {g : Scope → Binder β}
    (h : Coupled c c' (Below R k n) (f c.scope) (g c.scope) Q) :
    Coupled c c' (Below R k n) (scope >>= f) (scope >>= g) Q := by
  refine (scope_coupled p).bind fun a b => .assume ?_
  rintro ⟨rfl, rfl⟩
  exact h

end Steps

section Rules

variable {R : Matching} {broken : Prop} {k k₂ m n N : Nat} {κ : TokenKind} {α β : Type}
  {c c' : BindContext}  {Q : α → β → BindState → BindState → Prop}

/-! ### Tokens -/

/-- The current tokens are alike, or both end what is read. -/
theorem current_bind (A : Alignment R broken) {f : Token → Binder α} {g : Token → Binder β}
    (inside : ∀ t u, t.Alike u → t.kind ≠ .finish →
      Coupled c c' (Facing R k n t.kind) (f t) (g u) Q)
    (ended : ∀ t u, t.kind.isEnd = true → u.kind.isEnd = true →
      k = 0 ∨ t.kind = .finish ∧ u.kind = .finish →
      Coupled c c' (Below R k n) (f t) (g u) Q) :
    Coupled c c' (Below R k n) (current >>= f) (current >>= g) Q := by
  rintro s s' ⟨m, hm, hr⟩
  rw [Binder.bind_apply, Binder.bind_apply]
  show Agree Q (f (headToken s.tokens) c s) (g (headToken s'.tokens) c' s')
  have heads := A.heads hr
  cases m with
  | succ m =>
    cases heads with
    | inside alike more => exact inside _ _ alike more s s' ⟨m, hm, hr, rfl⟩
  | zero =>
    cases heads with
    | finished left right =>
      exact ended _ _ (by rw [left]; rfl) (by rw [right]; rfl) (Or.inr ⟨left, right⟩) s s'
        ⟨0, hm, hr⟩
    | ended outside left right => exact ended _ _ left right (Or.inl outside) s s' ⟨0, hm, hr⟩

/-- Nothing is done but looking at the current token. -/
theorem current_bind_blind (A : Alignment R broken) {f : Token → Binder α} {g : Token → Binder β}
    (h : ∀ t u, Coupled c c' (Below R k n) (f t) (g u) Q) :
    Coupled c c' (Below R k n) (current >>= f) (current >>= g) Q :=
  current_bind A (fun t u _ _ => (h t u).of fun _ _ => Facing.below) fun t u _ _ _ => h t u

/-- A test that does not decide anything. -/
theorem isKind_blind {P : BindState → BindState → Prop} {f : Bool → Binder α} {g : Bool → Binder β}
    (h : ∀ b b', Coupled c c' P (f b) (g b') Q) :
    Coupled c c' P (isKind κ >>= f) (isKind κ >>= g) Q :=
  fun s s' hs => h _ _ s s' hs

/-- Of the kinds that are told apart, both runs see the same or none. -/
theorem current_match (A : Alignment R broken) (special : TokenKind → Bool)
    (sole : ∀ κ, special κ = true → κ.hasSynonym = false ∧ κ.isEnd = false)
    {f : Token → Binder α} {g : Token → Binder β}
    (here : ∀ t u, t.Alike u → u.kind = t.kind → special t.kind = true →
      Coupled c c' (Facing R k n t.kind) (f t) (g u) Q)
    (other : ∀ t u, special t.kind = false → special u.kind = false →
      Coupled c c' (Below R k n) (f t) (g u) Q) :
    Coupled c c' (Below R k n) (current >>= f) (current >>= g) Q := by
  have synonym {κ : TokenKind} (h : κ.hasSynonym = true) : special κ = false := by
    cases hs : special κ with
    | false => rfl
    | true => exact absurd ((sole κ hs).1.symm.trans h) nofun
  have last {κ : TokenKind} (h : κ.isEnd = true) : special κ = false := by
    cases hs : special κ with
    | false => rfl
    | true => exact absurd ((sole κ hs).2.symm.trans h) nofun
  refine current_bind A (fun t u alike more => ?_) fun t u left right _ => ?_
  · rcases TokenKind.eq_or_hasSynonym alike.kind with same | ⟨left, right⟩
    · cases hs : special t.kind with
      | true => exact here t u alike same hs
      | false => exact (other t u hs (same ▸ hs)).of fun _ _ => Facing.below
    · exact (other t u (synonym left) (synonym right)).of fun _ _ => Facing.below
  · exact other t u (last left) (last right)

/-- A kind that is tested for is seen in both runs or in none. -/
theorem ifKind_coupled (A : Alignment R broken) (κ : TokenKind) (sole : κ.hasSynonym = false)
    (seen : κ.isEnd = true → κ ≠ .finish ∧ 0 < k) {x x' : Binder α} {y y' : Binder β}
    (hx : Coupled c c' (Facing R k n κ) x y Q) (hy : Coupled c c' (Below R k n) x' y' Q) :
    Coupled c c' (Below R k n) (isKind κ >>= fun b => if b = true then x else x')
      (isKind κ >>= fun b => if b = true then y else y') Q := by
  have test {γ : Type} (x x' : Binder γ) : (isKind κ >>= fun b => if b = true then x else x') =
      current >>= fun t => if t.kind = κ then x else x' := by
    simp [isKind]
  rw [test, test]
  refine current_bind A (fun t u alike more => ?_) fun t u left right place => ?_
  · by_cases here : t.kind = κ
    · have there : u.kind = κ := by
        rw [← here] at sole ⊢
        exact TokenKind.eq_of_canonical alike.kind sole
      rw [if_pos here, if_pos there, here]
      exact hx
    · have there : u.kind ≠ κ := fun h => by
        rw [← h] at sole here
        exact here (TokenKind.eq_of_canonical alike.kind.symm sole)
      rw [if_neg here, if_neg there]
      exact hy.of fun _ _ => Facing.below
  · have other {t : Token} (h : t.kind.isEnd = true) (place : k = 0 ∨ t.kind = .finish) :
        t.kind ≠ κ := by
      rintro rfl
      obtain ⟨more, inside⟩ := seen h
      rcases place with outside | last
      · exact absurd outside (Nat.ne_of_gt inside)
      · exact more last
    rw [if_neg (other left (place.imp_right And.left)),
      if_neg (other right (place.imp_right And.right))]
    exact hy

/-- A sign that is tested for is seen in both runs or in none. -/
theorem ifSymbol_coupled (A : Alignment R broken) (sign : Symbol)
    (sole : (TokenKind.symbol sign).hasSynonym = false)
    (seen : (TokenKind.symbol sign).isEnd = true → 0 < k) {x x' : Binder α} {y y' : Binder β}
    (hx : Coupled c c' (Facing R k n (.symbol sign)) x y Q)
    (hy : Coupled c c' (Below R k n) x' y' Q) :
    Coupled c c' (Below R k n) (isSymbol sign >>= fun b => if b = true then x else x')
      (isSymbol sign >>= fun b => if b = true then y else y') Q :=
  ifKind_coupled A _ sole (fun isEnd => ⟨nofun, seen isEnd⟩) hx hy

theorem run_advance {s : BindState} {t u : Token} {ts : List Token} (h : s.tokens = t :: u :: ts)
    (c : BindContext) : advance c s = (.ok t, { s with tokens := u :: ts }) := by
  rcases s with ⟨tokens, w⟩
  subst h
  rfl

theorem fails_checkFault {s : BindState} (fault : c.fault.isSome = true) :
    Fails c checkFault s := by
  obtain ⟨e, he⟩ := Option.isSome_iff_exists.1 fault
  refine runs_read.fails_bind ?_
  rw [he]
  exact ⟨_, _, rfl⟩

/-- The last token of a broken text is not left. -/
theorem fails_advance {s : BindState} {t : Token} (h : s.tokens = [t])
    (fault : c.fault.isSome = true) : Fails c advance s := by
  rcases s with ⟨tokens, w⟩
  subst h
  exact (fails_checkFault fault).bind _

/-- Both runs move on. -/
theorem advance_coupled (A : Alignment R broken) (p : Peers broken N c c')
    (h : κ.nest? k = some k₂) :
    Coupled c c' (Facing R k n κ) advance advance (Taken R k₂ (n - 1) κ) := by
  rintro s s' ⟨m, hm, hr, kind⟩
  obtain ⟨t, u, ts, t', u', ts', k₃, hs, hs', alike, nest, hr⟩ | ⟨cut, t, t', hs, hs'⟩ :=
    A.front hr
  case inr =>
    exact .of_fails (fails_advance hs (p.fault cut).1) (fails_advance hs' (p.fault cut).2)
  rw [run_advance hs, run_advance hs']
  rw [hs] at kind
  have kind : t.kind = κ := kind
  rw [kind, h] at nest
  obtain rfl := Option.some.inj nest
  exact ⟨⟨alike, kind⟩, m, Nat.lt_sub_of_add_lt hm, hr⟩

/-- The kind that is expected stands in both runs or in none. -/
theorem expect_coupled (A : Alignment R broken) (p : Peers broken N c c') (κ : TokenKind)
    (sole : κ.hasSynonym = false) (more : κ ≠ .finish) (h : κ.nest? k = some k₂) :
    Coupled c c' (Below R k n) (expect κ) (expect κ) (Taken R k₂ (n - 1) κ) := by
  refine ifKind_coupled A κ sole (fun isEnd => ⟨more, ?_⟩) (advance_coupled A p h)
    (unexpected_coupled _ _)
  cases k with
  | succ k => exact Nat.succ_pos k
  | zero =>
    unfold TokenKind.isEnd at isEnd
    split at isEnd
    · exact absurd rfl more
    · cases h
    · cases h
    · cases isEnd

theorem fails_peekKind {s : BindState} {t : Token} (h : s.tokens = [t])
    (fault : c.fault.isSome = true) : Fails c peekKind s := by
  rcases s with ⟨tokens, w⟩
  subst h
  exact (fails_checkFault fault).bind _

/-- The kind of the token behind the current one is seen in both runs or in none. -/
theorem ifPeek_coupled (A : Alignment R broken) (p : Peers broken N c c') {front : TokenKind}
    (sole : κ.hasSynonym = false)
    (proper : κ.isEnd = false) {x x' : Binder α} {y y' : Binder β}
    (hx : Coupled c c' (FacingTwo R k n front κ) x y Q)
    (hy : Coupled c c' (Facing R k n front) x' y' Q) :
    Coupled c c' (Facing R k n front) (peekKind >>= fun l => if l = κ then x else x')
      (peekKind >>= fun l => if l = κ then y else y') Q := by
  rintro s s' ⟨m, hm, hr, kind⟩
  have facing : Facing R k n front s s' := ⟨m, hm, hr, kind⟩
  obtain ⟨t, u, ts, t', u', ts', k₂, hs, hs', alike, nest, hr⟩ | ⟨cut, t, t', hs, hs'⟩ :=
    A.front hr
  case inr =>
    exact .of_fails ((fails_peekKind hs (p.fault cut).1).bind _)
      ((fails_peekKind hs' (p.fault cut).2).bind _)
  have peek {c : BindContext} {s : BindState} {t u : Token} {ts : List Token}
      (h : s.tokens = t :: u :: ts) : peekKind c s = (.ok u.kind, s) := by
    rcases s with ⟨tokens, w⟩
    subst h
    rfl
  rw [Binder.bind_apply, Binder.bind_apply, peek hs, peek hs']
  have heads : Heads k₂ m u u' := A.heads hr
  have same : u.kind = κ ↔ u'.kind = κ := by
    cases heads with
    | inside alike more =>
      constructor
      · rintro rfl
        exact TokenKind.eq_of_canonical alike.kind sole
      · rintro rfl
        exact TokenKind.eq_of_canonical alike.kind.symm sole
    | finished left right => rw [left, right]
    | ended outside left right =>
      constructor
      · rintro rfl
        rw [left] at proper
        cases proper
      · rintro rfl
        rw [right] at proper
        cases proper
  by_cases here : u.kind = κ
  · simp only [if_pos here, if_pos (same.1 here)]
    exact hx s s' ⟨facing, by rw [hs]; exact congrArg some here⟩
  · simp only [if_neg here, if_neg fun h => here (same.2 h)]
    exact hy s s' facing

/-- Both runs move on to a token of a known kind. -/
theorem advanceTo_coupled (A : Alignment R broken) (p : Peers broken N c c') {front : TokenKind}
    (h : front.nest? k = some k₂)
    (proper : κ.isEnd = false) :
    Coupled c c' (FacingTwo R k n front κ) advance advance fun t u s s' =>
      (t.Alike u ∧ t.kind = front) ∧ Facing R k₂ (n - 1) κ s s' := by
  rintro s s' ⟨⟨m, hm, hr, kind⟩, second⟩
  obtain ⟨t, u, ts, t', u', ts', k₃, hs, hs', alike, nest, hr⟩ | ⟨cut, t, t', hs, hs'⟩ :=
    A.front hr
  case inr =>
    exact .of_fails (fails_advance hs (p.fault cut).1) (fails_advance hs' (p.fault cut).2)
  rw [run_advance hs, run_advance hs']
  rw [hs] at kind second
  have kind : t.kind = front := kind
  have second : u.kind = κ := Option.some.inj second
  rw [kind, h] at nest
  obtain rfl := Option.some.inj nest
  refine ⟨⟨alike, kind⟩, ?_⟩
  have heads : Heads k₂ m u u' := A.heads hr
  cases heads with
  | inside alike more => exact ⟨_, Nat.lt_sub_of_add_lt hm, hr, second⟩
  | finished left right =>
    rw [← second, left] at proper
    cases proper
  | ended outside left right =>
    rw [← second, left] at proper
    cases proper

/-! ### The schema and the registry -/

theorem schema_coupled (A : Alignment R broken) :
    Coupled c c' (Below R k n) schema schema (Same R k n) := by
  rintro s s' ⟨m, hm, hr⟩
  exact ⟨A.sameSchema hr, m, hm, hr⟩

theorem members_coupled (A : Alignment R broken) (ty : Ty) :
    Coupled c c' (Below R k n) (members ty) (members ty) (Same R k n) := by
  rintro s s' ⟨m, hm, hr⟩
  refine ⟨?_, m, hm, A.asks ty hr⟩
  show (s.workspace.registry.members ty).1 = (s'.workspace.registry.members ty).1
  rw [Registry.members_fst, Registry.members_fst, A.sameSchema hr]

theorem findMember?_coupled (A : Alignment R broken) (ty : Ty) (name : String) :
    Coupled c c' (Below R k n) (findMember? ty name) (findMember? ty name) (Same R k n) :=
  (members_coupled A ty).bind_same fun _ => pure_same _ (Nat.le_refl _)

theorem findMethods_coupled (A : Alignment R broken) (ty : Ty) (name : String) :
    Coupled c c' (Below R k n) (findMethods ty name) (findMethods ty name) (Same R k n) :=
  (members_coupled A ty).bind_same fun _ => pure_same _ (Nat.le_refl _)

theorem findType?_coupled (A : Alignment R broken) (p : Peers broken N c c') (name : String) :
    Coupled c c' (Below R k n) (findType? name) (findType? name) (Same R k n) := by
  refine scope_bind_coupled p ?_
  rintro s s' ⟨m, hm, hr⟩
  refine ⟨?_, m, hm, A.finds name c.scope.base.ty hr⟩
  show (s.workspace.registry.findType name c.scope.base.ty).1.or _ =
    (s'.workspace.registry.findType name c.scope.base.ty).1.or _
  rw [Registry.findType_fst, Registry.findType_fst]
  unfold Registry.findType?
  rw [A.sameSchema hr, A.sameNamed hr]

/-- Rules of binding that bind the same in every schema. -/
theorem bound_coupled (A : Alignment R broken) {rule rule' : Schema → Except CompileError α}
    (h : ∀ s v, rule s = .ok v ↔ rule' s = .ok v) :
    Coupled c c' (Below R k n) (bound rule) (bound rule') (Same R k n) :=
  (schema_coupled A).bind_same fun s => lift_coupled (h s)

theorem anonymousRecord_coupled (numbers : R.Numbers) (fields : List (String × Ty)) :
    Coupled c c' (Below R k n) (anonymousRecord fields) (anonymousRecord fields)
      (Same R k n) := by
  rintro s s' ⟨m, hm, hr⟩
  obtain ⟨next, hr⟩ := numbers hr
  refine ⟨?_, m, hm, hr⟩
  rw [next]

/-! ### Repetition -/

variable {V : α → β → Prop}

/-- There is a next value in both runs or in none, and a token was taken for it. -/
def Stepped (R : Matching) (k n : Nat) (V : α → β → Prop) :
    Option α → Option β → BindState → BindState → Prop
  | some a, some b, s, s' => V a b ∧ Below R k (n - 1) s s'
  | none, none, s, s' => Below R k n s s'
  | _, _, _, _ => False

theorem chainFrom_coupled {step : α → Binder (Option α)} {step' : β → Binder (Option β)}
    (h : ∀ m ≤ n, ∀ a b, V a b →
      Coupled c c' (Below R k m) (step a) (step' b) (Stepped R k m V)) :
    ∀ m ≤ n, ∀ fuel fuel' a b, Enough m fuel fuel' → V a b →
      Coupled c c' (Below R k m) (chainFrom step fuel a) (chainFrom step' fuel' b) fun a b s s' =>
        V a b ∧ Below R k m s s' := by
  intro m
  induction m with
  | zero => exact fun _ _ _ _ _ _ _ => .vacuous
  | succ m ih =>
    intro hm fuel fuel' a b enough hv
    obtain ⟨rfl, rfl⟩ | ⟨fuel, fuel', rfl, rfl, left⟩ := enough.cases
    · exact .pure fun _ _ hb => ⟨hv, hb⟩
    · refine (h (m + 1) hm a b hv).bind fun a? b? => ?_
      rcases a? with _ | a₂ <;> rcases b? with _ | b₂
      · exact .pure fun _ _ hb => ⟨hv, hb⟩
      · exact fun _ _ => False.elim
      · exact fun _ _ => False.elim
      · refine .assume fun hv₂ => ?_
        refine (ih (Nat.le_of_succ_le hm) fuel fuel' a₂ b₂ left hv₂).mono (fun _ _ => id) ?_
        rintro a b s s' ⟨hv, hb⟩
        exact ⟨hv, hb.mono (Nat.le_succ m)⟩

/-- Steps that keep step make chains that do. -/
theorem chain_coupled {step : α → Binder (Option α)} {step' : β → Binder (Option β)} {a : α}
    {b : β}
    (h : ∀ m ≤ n, ∀ a b, V a b →
      Coupled c c' (Below R k m) (step a) (step' b) (Stepped R k m V))
    (p : Peers broken N c c') (hn : n ≤ N) (hv : V a b) :
    Coupled c c' (Below R k n) (chain step a) (chain step' b) fun a b s s' =>
      V a b ∧ Below R k n s s' :=
  chainFrom_coupled h n (Nat.le_refl n) c.tokenCount c'.tokenCount a b (p.count.mono hn) hv

theorem separatedFrom_coupled (A : Alignment R broken) (p : Peers broken N c c')
    {item item' : α → Binder α} (inside : 0 < k)
    (h : ∀ m ≤ n, ∀ a, Coupled c c' (Below R k m) (item a) (item' a) (Same R k m)) :
    ∀ m ≤ n, ∀ fuel fuel' a, Enough m fuel fuel' →
      Coupled c c' (Below R k m) (separatedFrom item fuel a) (separatedFrom item' fuel' a)
        (Same R k m) := by
  intro m
  induction m with
  | zero => exact fun _ _ _ _ _ => .vacuous
  | succ m ih =>
    intro hm fuel fuel' a enough
    obtain ⟨rfl, rfl⟩ | ⟨fuel, fuel', rfl, rfl, left⟩ := enough.cases
    · exact pure_same a (Nat.le_refl _)
    · refine (h (m + 1) hm a).bind_same fun b => ?_
      refine ifSymbol_coupled A .comma rfl (fun _ => inside) ?_ (pure_same b (Nat.le_refl _))
      refine (advance_coupled A p (TokenKind.nest?_comma inside)).bind_taken fun _ _ _ _ => ?_
      exact (ih (Nat.le_of_succ_le hm) fuel fuel' b left).weaken (Nat.le_succ m)

/-- Items that keep step make lists that do, where a comma belongs to the list. -/
theorem separated_coupled (A : Alignment R broken) {item item' : α → Binder α} {a : α}
    (inside : 0 < k)
    (h : ∀ m ≤ n, ∀ a, Coupled c c' (Below R k m) (item a) (item' a) (Same R k m))
    (p : Peers broken N c c') (hn : n ≤ N) :
    Coupled c c' (Below R k n) (separated item a) (separated item' a) (Same R k n) :=
  separatedFrom_coupled A p inside h n (Nat.le_refl n) c.tokenCount c'.tokenCount a
    (p.count.mono hn)

end Rules

end Binder

end TypedExpr
