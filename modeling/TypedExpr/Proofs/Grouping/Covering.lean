import TypedExpr.Proofs.Grouping.Embedding

/-!
# Rules over known tokens

What a rule of the grammar makes of tokens that are known by their shapes, said as a computation on
the workspace alone.  Two texts that come to the same computation are bound alike.

* `Covers` — over these tokens the rule does what the computation says.
* `Covers.bind`, `Covers.advance_bind`, … — the rules for steps.
* `Echoes` — the rule reads a text as if it stood alone.
* **`Source.parse_of_covers`** — whole texts.
-/

namespace TypedExpr

variable {format : GuidFormat}

open Binder Grammar

variable {α β : Type} {w : Workspace} {c : BindContext} {ss ss' : List Shape}
  {F F' : TokenKind → Prop}

/-! ## Computations on the workspace -/

namespace Outcome

/-- A rule of binding in the schema of the workspace. -/
def bound [GuidFormat] (rule : Schema → Except CompileError α) : Outcome α :=
  fun w => (rule w.registry.schema, w)

end Outcome

/-! ## Covering -/

/-- The run gives the result of the computation in front of the same rest, with a similar
workspace, or both fail. -/
def Delivers (o : Except CompileError α × Workspace) (tail : List Token)
    (r : Except CompileError α × BindState) : Prop :=
  match o with
  | (.ok a, v) => ∃ v', v.Similar v' ∧ r = (.ok a, ⟨tail, v'⟩)
  | (.error _, _) => ∃ error s, r = (.error error, s)

/-- Over tokens of these shapes the rule does what the computation says for the workspace, whatever
follows that is of a kind in `F`. -/
def Covers (w : Workspace) (c : BindContext) (x : Binder α) (ss : List Shape)
    (F : TokenKind → Prop) (m : Outcome α) : Prop :=
  ∀ ts next rest w', ts.map Token.shape = ss → F next.kind → w.Similar w' →
    Delivers (m w) (next :: rest) (x c ⟨ts ++ next :: rest, w'⟩)

/-- The kind of the first of some tokens, or of what follows them. -/
def firstKind (ss : List Shape) (κ : TokenKind) : TokenKind := (ss.map Shape.kind).headD κ

/-- The first of some tokens and of what follows them. -/
theorem exists_first {ts : List Token} (h : ts.map Token.shape = ss) (next : Token)
    (rest : List Token) :
    ∃ first more, ts ++ next :: rest = first :: more ∧ first.kind = firstKind ss next.kind := by
  subst h
  cases ts with
  | nil => exact ⟨next, rest, rfl, rfl⟩
  | cons t ts => exact ⟨t, ts ++ next :: rest, rfl, rfl⟩

namespace Covers

variable {x : Binder α} {m : Outcome α}

theorem mono (h : Covers w c x ss F m) (hF : ∀ κ, F' κ → F κ) : Covers w c x ss F' m :=
  fun ts next rest w' shapes follows hw => h ts next rest w' shapes (hF _ follows) hw

protected theorem pure (a : α) : Covers w c (pure a) [] F (pure a) := by
  intro ts next rest w' shapes _ hw
  obtain rfl := List.map_eq_nil_iff.1 shapes
  exact ⟨w', hw, rfl⟩

/-- Steps one after the other. -/
protected theorem bind {f : α → Binder β} {k : α → Outcome β} (hx : Covers w c x ss F m)
    (hf : ∀ a v, m w = (.ok a, v) → Covers v c (f a) ss' F' (k a))
    (first : ∀ κ, F' κ → F (firstKind ss' κ)) :
    Covers w c (x >>= f) (ss ++ ss') F' (m >>= k) := by
  intro ts next rest w' shapes follows hw
  obtain ⟨us, us', rfl, hs, hs'⟩ := List.map_eq_append_iff.1 shapes
  obtain ⟨t, more, split, kind⟩ := exists_first hs' next rest
  have step := hx us t more w' hs (kind ▸ first _ follows) hw
  rw [List.append_assoc, split, Binder.bind_apply, TypedExpr.bind_apply]
  rcases hm : m w with ⟨error | a, v⟩ <;> rw [hm] at step
  · obtain ⟨error', s, run⟩ := step
    rw [run]
    exact ⟨error', s, rfl⟩
  · obtain ⟨v', hv, run⟩ := step
    rw [run, ← split]
    exact hf a v hm us' next rest v' hs' follows hv

/-- A first step that looks at the next token only, and whose result is known. -/
theorem still_bind {f : α → Binder β} {m : Outcome β} {a : α} (G : TokenKind → Prop)
    (hx : ∀ t rest w, G t.kind → Runs c x ⟨t :: rest, w⟩ a ⟨t :: rest, w⟩)
    (first : ∀ κ, F κ → G (firstKind ss κ)) (hf : Covers w c (f a) ss F m) :
    Covers w c (x >>= f) ss F m := by
  intro ts next rest w' shapes follows hw
  obtain ⟨t, more, split, kind⟩ := exists_first shapes next rest
  have run : Runs c x ⟨ts ++ next :: rest, w'⟩ a ⟨ts ++ next :: rest, w'⟩ := by
    rw [split]
    exact hx t more w' (kind ▸ first _ follows)
  rw [run.bind_eq]
  exact hf ts next rest w' shapes follows hw

/-- A step that reads the last of the tokens. -/
theorem bind_last {f : α → Binder β} {k : α → Outcome β} (hx : Covers w c x ss F m)
    (hf : ∀ a v, m w = (.ok a, v) → Covers v c (f a) [] F (k a)) :
    Covers w c (x >>= f) ss F (m >>= k) := by
  have h := Covers.bind hx hf fun _ => id
  rwa [List.append_nil] at h

theorem bound {rule rule' : Schema → Except CompileError α}
    (h : ∀ s v, rule s = .ok v ↔ rule' s = .ok v) :
    Covers w c (bound rule) [] F (Outcome.bound rule') := by
  intro ts next rest w' shapes _ hw
  obtain rfl := List.map_eq_nil_iff.1 shapes
  have run : Binder.bound rule c ⟨next :: rest, w'⟩ =
      (rule w'.registry.schema, ⟨next :: rest, w'⟩) := by
    show (liftM (rule w'.registry.schema) : Binder α) c ⟨next :: rest, w'⟩ = _
    cases rule w'.registry.schema <;> rfl
  rw [List.nil_append, run, hw.schema]
  unfold Outcome.bound
  cases bound : rule' w.registry.schema with
  | ok v => exact ⟨w', hw, by rw [(h _ v).2 bound]⟩
  | error error =>
    cases bound' : rule w.registry.schema with
    | ok v =>
      rw [(h _ v).1 bound'] at bound
      cases bound
    | error error' => exact ⟨error', _, rfl⟩

/-- A rule that fails, whatever the computation says of its error. -/
theorem fails (h : ∀ s, Fails c x s) (hm : ∃ error v, m w = (.error error, v)) :
    Covers w c x ss F m := by
  intro ts next rest w' _ _ _
  obtain ⟨error, v, failed⟩ := hm
  rw [failed]
  exact h _

/-! ### Tokens -/

variable {f : Token → Binder α} {s : Shape} {κ : TokenKind}

theorem current_bind (h : ∀ t, t.shape = s → Covers w c (f t) (s :: ss) F m) :
    Covers w c (current >>= f) (s :: ss) F m := by
  intro ts next rest w' shapes
  obtain ⟨t, us, rfl, hs, -⟩ := List.map_eq_cons_iff.1 shapes
  exact h t hs (t :: us) next rest w' shapes

/-- It does not matter which token is the current one. -/
theorem current_bind_blind (h : ∀ t, Covers w c (f t) ss F m) : Covers w c (current >>= f) ss F m :=
  fun ts next rest w' shapes follows hw =>
    h (headToken (ts ++ next :: rest)) ts next rest w' shapes follows hw

theorem advance_bind (h : ∀ t, t.shape = s → Covers w c (f t) ss F m) :
    Covers w c (advance >>= f) (s :: ss) F m := by
  intro ts next rest w' shapes follows hw
  obtain ⟨t, us, rfl, hs, hs'⟩ := List.map_eq_cons_iff.1 shapes
  rw [List.cons_append, (runs_advance_append us).bind_eq]
  exact h t hs us next rest w' hs' follows hw

theorem expect_bind (kind : s.kind = κ) (h : ∀ t, t.shape = s → Covers w c (f t) ss F m) :
    Covers w c (expect κ >>= f) (s :: ss) F m := by
  intro ts next rest w' shapes follows hw
  obtain ⟨t, us, rfl, hs, hs'⟩ := List.map_eq_cons_iff.1 shapes
  have here : t.kind = κ := (congrArg Shape.kind hs).trans kind
  rw [List.cons_append, (runs_expect here us).bind_eq]
  exact h t hs us next rest w' hs' follows hw

variable {g : Bool → Binder α}

/-- The kind of the next token decides. -/
theorem isKind_bind (κ : TokenKind) (b : Bool) (kind : ∀ κ', F κ' → (firstKind ss κ' == κ) = b)
    (h : Covers w c (g b) ss F m) : Covers w c (isKind κ >>= g) ss F m := by
  have look (t : Token) (rest : List Token) (w : Workspace) (same : (t.kind == κ) = b) :
      Runs c (isKind κ) ⟨t :: rest, w⟩ b ⟨t :: rest, w⟩ := by
    rw [← same]
    exact runs_isKind κ
  exact still_bind (fun κ' => (κ' == κ) = b) look kind h

end Covers

/-! ## Texts -/

/-- The rule reads the tokens as the computation says for the workspace, in front of what ends an
expression; where the computation fails, the rule fails or stops too early. -/
def EchoesAt (w : Workspace) (c : BindContext) (x : Binder Expr) (ss : List Shape)
    (m : Outcome Expr) : Prop :=
  ∀ ts next rest w', ts.map Token.shape = ss → next.kind.isEnd = true → w.Similar w' →
    (∀ e v, m w = (.ok e, v) → ∃ v', v.Similar v' ∧
      x c ⟨ts ++ next :: rest, w'⟩ = (.ok e, ⟨next :: rest, v'⟩)) ∧
    ∀ error v, m w = (.error error, v) → Source.Stops (x c ⟨ts ++ next :: rest, w'⟩)

/-- The rule reads the tokens as the computation says, for any workspace. -/
def Echoes (c : BindContext) (x : Binder Expr) (ss : List Shape) (m : Outcome Expr) : Prop :=
  ∀ w, EchoesAt w c x ss m

variable {source : Source} {d l n : Nat}

/-- **A level reads a text as if it stood alone.** -/
theorem level_echoes (phrase : Phrase source.text ss) (host : source.Hosts (ss.length + 1) c)
    (hd : ss.length ≤ d) : Echoes c (level (expression d) l) ss (source.parseAt l) := by
  intro w ts next rest w' shapes ends hw
  obtain ⟨body, finish, tokens, rfl, last⟩ := Lexer.tokens_of_spells phrase.spells
  have enclosed := phrase.enclosed
  rw [map_kind_shape] at enclosed
  rw [List.length_map] at host hd
  obtain ⟨ok, error⟩ := Source.level_follows (P := (· ≠ .finish)) (l := l) (fun _ => id)
    (Workspace.kept_together w) (Or.inr (Workspace.numbers_together w)) tokens last
    (fun t ht => phrase.spells.proper t.shape (List.mem_map_of_mem ht)) enclosed host hd
    (forall₂_alike_of_shapes shapes.symm) (List.cons_ne_nil next rest) ends ⟨hw, .refl w⟩
  refine ⟨fun e v h => ?_, error⟩
  obtain ⟨v', together, run⟩ := ok e v h
  exact ⟨v', together.toSimilar, run⟩

/-- An expression inside of another one reads a text as if it stood alone. -/
theorem expression_echoes (phrase : Phrase source.text ss)
    (host : source.Hosts (ss.length + 1) c) (hd : ss.length < d) :
    Echoes c (expression d) ss source.parse := by
  obtain ⟨d, rfl⟩ : ∃ k, d = k + 1 := ⟨d - 1, by omega⟩
  exact level_echoes (l := 0) phrase host (Nat.le_of_lt_succ hd)

/-- What reads a text is a step, if nothing but an end is accepted behind it. -/
theorem EchoesAt.bind {x : Binder Expr} {m : Outcome Expr} {f : Expr → Binder α}
    {k : Expr → Outcome α} (hx : EchoesAt w c x ss m)
    (hf : ∀ e v, m w = (.ok e, v) → Covers v c (f e) ss' F (k e))
    (ends : ∀ κ, F κ → (firstKind ss' κ).isEnd = true)
    (stuck : ∀ e s, (headToken s.tokens).kind.isEnd = false → Fails c (f e) s) :
    Covers w c (x >>= f) (ss ++ ss') F (m >>= k) := by
  intro ts next rest w' shapes follows hw
  obtain ⟨us, us', rfl, hs, hs'⟩ := List.map_eq_append_iff.1 shapes
  obtain ⟨t, more, split, kind⟩ := exists_first hs' next rest
  obtain ⟨ok, error⟩ := hx us t more w' hs (kind ▸ ends _ follows) hw
  rw [List.append_assoc, split, TypedExpr.bind_apply]
  rcases hm : m w with ⟨e, v⟩
  cases e with
  | error e =>
    have stops := error e v hm
    show Fails c (x >>= f) _
    rcases hr : x c ⟨us ++ t :: more, w'⟩ with ⟨error | e', s⟩
    · exact Fails.bind _ ⟨_, _, hr⟩
    · exact Runs.fails_bind hr (stuck e' s (stops e' s hr))
  | ok e =>
    obtain ⟨v', hv, run⟩ := ok e v hm
    rw [Binder.bind_apply, run, ← split]
    exact hf e v hm us' next rest v' hs' follows hv

theorem ends_of_isEnd {k : TokenKind} (h : k.isEnd = true) (n : Nat) : Ends n k := by
  refine Ends.mono (n := 0) ?_ (Nat.zero_le n)
  unfold TokenKind.isEnd at h
  split at h
  · decide
  · decide
  · decide
  · cases h

/-- What reads a text to its end covers its tokens, in front of any end. -/
theorem EchoesAt.covers {x : Binder Expr} {m : Outcome Expr} {e : Expr} {v : Workspace}
    (h : EchoesAt w c x ss m) (result : m w = (.ok e, v)) :
    Covers w c x ss (·.isEnd = true) m := by
  intro ts next rest w' shapes ends hw
  rw [result]
  exact (h ts next rest w' shapes ends hw).1 e v result

namespace Source

/-- **A whole text is parsed as the computation of its tokens says.** -/
theorem parseAt_of_covers {m : Outcome Expr} (spells : Spells source.text.toList ss)
    (h : Covers w (source.context (ss.length + 1)) (level (expression (ss.length + 1)) l) ss F m)
    (ends : F .finish) (e : Expr) : (source.parseAt l w).1 = .ok e ↔ (m w).1 = .ok e := by
  obtain ⟨ts, finish, tokens, rfl, last⟩ := Lexer.tokens_of_spells spells
  have count : (ts ++ [finish]).length = (ts.map Token.shape).length + 1 := by simp
  have delivers := h ts finish [] w rfl (last ▸ ends) (.refl w)
  rw [← count] at delivers
  have delivers : Delivers (m w) [finish] (anyLevel l (source.context (ts ++ [finish]).length)
      ⟨ts ++ [finish], w⟩) := by
    rw [anyLevel_apply]
    exact delivers
  rcases hm : m w with ⟨error | a, v⟩ <;> rw [hm] at delivers
  · obtain ⟨error', s, run⟩ := delivers
    obtain ⟨error₂, s₂, failed⟩ := entire_fails_of_fails ⟨error', s, run⟩
    rw [parseAt_eq tokens (by simp) failed]
    exact ⟨nofun, nofun⟩
  · obtain ⟨v', -, run⟩ := delivers
    rw [parseAt_eq tokens (by simp) (entire_eq run last)]

theorem parse_of_covers (source : Source) {m : Outcome Expr} (spells : Spells source.text.toList ss)
    (h : Covers w (source.context (ss.length + 1)) (level (expression (ss.length + 1)) 0) ss F m)
    (ends : F .finish) (e : Expr) : (source.parse w).1 = .ok e ↔ (m w).1 = .ok e := by
  rw [parse_eq_parseAt]
  exact parseAt_of_covers spells h ends e

/-- A text of which only the first tokens are read is not parsed. -/
theorem parseAt_ne_of_covers {m : Outcome Expr} {s : Shape} {rest : List Shape}
    (spells : Spells source.text.toList (ss ++ s :: rest))
    (count : n = (ss ++ s :: rest).length + 1)
    (h : Covers w (source.context n) (level (expression n) l) ss F m) (follows : F s.kind)
    (e : Expr) : (source.parseAt l w).1 ≠ .ok e := by
  obtain ⟨ts, finish, tokens, shapes, last⟩ := Lexer.tokens_of_spells spells
  have proper := spells.proper s (List.mem_append_right _ List.mem_cons_self)
  have length : (ts ++ [finish]).length = n := by
    rw [count, ← shapes]
    simp
  obtain ⟨us, ts, rfl, first, others⟩ := List.map_eq_append_iff.1 shapes
  obtain ⟨next, more, rfl, shape, -⟩ := List.map_eq_cons_iff.1 others
  have kind : next.kind = s.kind := congrArg Shape.kind shape
  have delivers := h us next (more ++ [finish]) w first (kind ▸ follows) (.refl w)
  have whole : us ++ next :: (more ++ [finish]) = us ++ next :: more ++ [finish] := by simp
  rw [whole] at delivers
  have fails : Fails (source.context n) (entire (anyLevel l))
      ⟨us ++ next :: more ++ [finish], w⟩ := by
    rcases hm : m w with ⟨error | a, v⟩ <;> rw [hm] at delivers
    · obtain ⟨error', st, run⟩ := delivers
      refine entire_fails_of_fails ⟨error', st, ?_⟩
      rw [anyLevel_apply]
      exact run
    · obtain ⟨v', -, run⟩ := delivers
      have run : anyLevel l (source.context n) ⟨us ++ next :: more ++ [finish], w⟩ =
          (.ok a, ⟨next :: (more ++ [finish]), v'⟩) := by
        rw [anyLevel_apply]
        exact run
      refine entire_fails run ?_
      rw [headToken, List.headD_cons, kind]
      exact proper
  obtain ⟨error, st, failed⟩ := fails
  rw [← length] at failed
  rw [parseAt_eq tokens (by simp) failed]
  rintro ⟨⟩

end Source

end TypedExpr
