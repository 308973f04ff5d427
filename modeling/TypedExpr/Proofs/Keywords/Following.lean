import TypedExpr.Proofs.Keywords.Abbreviation
import TypedExpr.Proofs.Precedence.Running

/-!
# A run that follows another one

A text is read next to the same text with signs for its context keywords.  Where the first run has
a result, the second one has the same, and its tokens are still those of the first one with signs.
The two part only behind an operand, where a context keyword stands in no expression but the sign
`^` is an operator; there the first run is bound to fail, and nothing is said of the second one.

* `Shadow`, `Abreast` — the states of the two runs.
* `Binder.Trails` — the second run of a part of the grammar follows the first one.
* `Binder.Trails.bind`, `Binder.expect_trails`, `Binder.chain_trails`, … — the rules for what the
  grammar is made of.
-/

namespace TypedExpr

variable {format : GuidFormat}

open Binder

/-! ## The two runs -/

/-- The contexts differ at most in the setting of the context keywords, which is `on` in the first
one, and in what lies behind the tokens. -/
structure Toggled (on : Bool) (c c' : BindContext) : Prop where
  scope : c'.scope = c.scope
  params : c'.params = c.params
  count : c'.tokenCount = c.tokenCount
  enabled : c.contextKeywords = on

theorem Toggled.push {on : Bool} {c c' : BindContext} (h : Toggled on c c') (t : Ty)
    (alias? : Option String) :
    Toggled on { c with scope := c.scope.push t alias? }
      { c' with scope := c'.scope.push t alias? } :=
  ⟨by rw [h.scope], h.params, h.count, h.enabled⟩

/-- The tokens of the second run are those of the first one with signs for the context keywords.  In
the first run these keywords are enabled, or none is there. -/
structure Shadow (on named : Bool) (s s' : BindState) : Prop where
  tokens : s'.tokens = abbreviate named s.tokens
  workspace : s'.workspace = s.workspace
  ends : s.tokens.getLast?.map Token.kind = some .finish
  keywords : on = true ∨ abbreviate named s.tokens = s.tokens

/-- Besides, both runs are at the same token, which is of the kind and no context keyword. -/
structure Abreast (on : Bool) (κ : TokenKind) (s s' : BindState) : Prop where
  shadow : Shadow on false s s'
  kind : (headToken s.tokens).kind = κ
  plain : (headToken s.tokens).contextSign? = none
  head : headToken s'.tokens = headToken s.tokens

namespace Shadow

variable {on named : Bool} {s s' : BindState}

/-- Behind a token that is not the end, there is another one. -/
theorem more (h : Shadow on named s s') (proper : (headToken s.tokens).kind ≠ .finish) :
    ∃ t u rest, s.tokens = t :: u :: rest := by
  obtain ⟨tokens, w⟩ := s
  match tokens, h.ends, proper with
  | [t], last, proper => exact absurd (Option.some.inj last) proper
  | t :: u :: rest, _, _ => exact ⟨t, u, rest, rfl⟩

/-- Both runs move on. -/
theorem step (h : Shadow on named s s') {t u : Token} {rest : List Token}
    (tokens : s.tokens = t :: u :: rest) (c c' : BindContext) :
    advance c s = (.ok t, ⟨u :: rest, s.workspace⟩) ∧
      advance c' s' = (.ok (headToken s'.tokens),
        ⟨abbreviate t.kind.namesMember (u :: rest), s.workspace⟩) ∧
      Shadow on t.kind.namesMember ⟨u :: rest, s.workspace⟩
        ⟨abbreviate t.kind.namesMember (u :: rest), s.workspace⟩ := by
  obtain ⟨_, w⟩ := s
  obtain ⟨_, w'⟩ := s'
  obtain ⟨shadow, workspace, ends, keywords⟩ := h
  cases tokens
  cases shadow
  cases workspace
  refine ⟨rfl, rfl, rfl, rfl, ?_, keywords.imp_right fun same => ?_⟩
  · rwa [List.getLast?_cons_cons] at ends
  · exact (List.cons.inj same).2

/-- The next two tokens of both runs.  In front of an arrow, both runs are at the same token. -/
theorem two (h : Shadow on named s s') {t u : Token} {rest : List Token}
    (tokens : s.tokens = t :: u :: rest) :
    ∃ t' u' rest', s'.tokens = t' :: u' :: rest' ∧ (u.kind = .symbol .arrow → t' = t) ∧
      (u'.kind = .symbol .arrow ↔ u.kind = .symbol .arrow) := by
  refine ⟨_, _, _, by rw [h.tokens, tokens, abbreviate, abbreviate], fun arrow => ?_, ?_⟩
  · refine if_pos (Bool.or_eq_true_iff.2 (Or.inr ?_))
    exact beq_iff_eq.2 arrow
  · exact kind_headToken_abbreviate_iff (Or.inr rfl) t.kind.namesMember (u :: rest)

/-- At a context keyword that is no name of a lambda, the second run is at its sign.  There the
keywords are enabled in the first run, since a sign is no identifier. -/
theorem sign (h : Shadow on false s s') {t u : Token} {rest : List Token} {sign : Symbol}
    (tokens : s.tokens = t :: u :: rest) (keyword : t.contextSign? = some sign)
    (noArrow : u.kind ≠ .symbol .arrow) :
    on = true ∧ (headToken s'.tokens).kind = .symbol sign := by
  have next : (headToken (u :: rest)).isSymbol .arrow = false := beq_false_of_ne noArrow
  have written : t.abbreviated = ⟨.symbol sign, sign.text, t.offset⟩ := by
    rw [Token.abbreviated, keyword]
  have head : headToken (abbreviate false s.tokens) = ⟨.symbol sign, sign.text, t.offset⟩ := by
    rw [tokens, abbreviate, next, written]
    rfl
  refine ⟨h.keywords.resolve_right fun same => ?_, by rw [h.tokens, head]⟩
  rw [same, tokens] at head
  have kind : t.kind = .symbol sign := congrArg Token.kind head
  rw [(Token.contextSign?_cases keyword).1] at kind
  cases kind

/-- Where the first run is at no context keyword, the second run is at the same token. -/
theorem abreast (h : Shadow on false s s') (plain : (headToken s.tokens).contextSign? = none) :
    Abreast on (headToken s.tokens).kind s s' := by
  refine ⟨h, rfl, plain, ?_⟩
  rw [h.tokens]
  exact headToken_abbreviate_of_none plain

theorem kind_iff (h : Shadow on named s s') {κ : TokenKind} (steady : κ.isSteady = true) :
    (headToken s'.tokens).kind = κ ↔ (headToken s.tokens).kind = κ := by
  rw [h.tokens]
  exact kind_headToken_abbreviate_iff (Or.inl steady) named s.tokens

end Shadow

namespace Binder

variable {α β : Type} {on named a b d : Bool} {κ : TokenKind}
  {P P' Q Q' R : BindState → BindState → Prop}

/-- Where the first run has a result, the second one has the same, from states of one relation to
states of another one.  If `b`, the first run may end instead at a place from where it is bound to
fail; if `a`, it ends at such a place if it starts at one. -/
structure Trails [GuidFormat] (on a : Bool) (P : BindState → BindState → Prop) (x : Binder α)
    (b : Bool) (Q : BindState → BindState → Prop) : Prop where
  stays {c : BindContext} {s t : BindState} {v : α} :
    Blocked a s.tokens → x c s = (.ok v, t) → Blocked b t.tokens
  keeps {c c' : BindContext} {s s' t : BindState} {v : α} : Toggled on c c' → P s s' →
    x c s = (.ok v, t) → Blocked b t.tokens ∨ ∃ t', x c' s' = (.ok v, t') ∧ Q t t'

/-- The second run follows the first one, between names of members. -/
abbrev Tracks (on a b : Bool) (x : Binder α) : Prop :=
  Trails on a (Shadow on false) x b (Shadow on false)

/-- The second run follows the first one through an operand; this may end at a place from where the
first run is bound to fail. -/
abbrev TracksOperand (on : Bool) (x : Binder α) : Prop := Tracks on false true x

/-! ## Steps -/

namespace Trails

theorem pure (v : α) : Trails on a P (pure v) a P where
  stays := by
    rintro c s t _ blocked ⟨⟩
    exact blocked
  keeps := by
    rintro c c' s s' t _ - hs ⟨⟩
    exact Or.inr ⟨s', rfl, hs⟩

theorem bind {x : Binder α} {f : α → Binder β} (hx : Trails on a P x b Q)
    (hf : ∀ v, Trails on b Q (f v) d R) : Trails on a P (x >>= f) d R where
  stays := by
    intro c s t v blocked run
    obtain ⟨u, s₁, first, rest⟩ := Runs.of_bind run
    exact (hf u).stays (hx.stays blocked first) rest
  keeps := by
    intro c c' s s' t v peers hs run
    obtain ⟨u, s₁, first, rest⟩ := Runs.of_bind run
    obtain blocked | ⟨s₂, first', hs₁⟩ := hx.keeps peers hs first
    · exact Or.inl ((hf u).stays blocked rest)
    · rw [Runs.bind_eq first']
      exact (hf u).keeps peers hs₁ rest

theorem mono {x : Binder α} (h : Trails on a P x b Q) (hP : ∀ s s', P' s s' → P s s')
    (hQ : ∀ s s', Q s s' → Q' s s') : Trails on a P' x b Q' where
  stays := h.stays
  keeps peers hs run := by
    obtain blocked | ⟨t', run', hq⟩ := h.keeps peers (hP _ _ hs) run
    · exact Or.inl blocked
    · exact Or.inr ⟨t', run', hQ _ _ hq⟩

/-- More is known of the states in the beginning. -/
theorem of {x : Binder α} (h : Trails on a P x b Q) (hP : ∀ s s', P' s s' → P s s') :
    Trails on a P' x b Q :=
  h.mono hP fun _ _ => id

/-- Both runs are at the same token, but this does not matter. -/
theorem abreast {x : Binder α} (h : Trails on a (Shadow on false) x b Q) :
    Trails on a (Abreast on κ) x b Q :=
  h.of fun _ _ => Abreast.shadow

/-- Where the first run starts is not said to be a place where it stays. -/
theorem start {x : Binder α} (h : Trails on a P x b Q) : Trails on false P x b Q where
  stays blocked := (not_blocked_false blocked).elim
  keeps := h.keeps

/-- The first run may end anywhere. -/
theorem free {x : Binder α} (h : Trails on a P x false Q) : Trails on a P x b Q where
  stays blocked run := (not_blocked_false (h.stays blocked run)).elim
  keeps peers hs run := (h.keeps peers hs run).imp_left fun blocked =>
    (not_blocked_false blocked).elim

/-- Nothing is read. -/
theorem stop (v : α) : Trails on false (Abreast on κ) (.pure v) b (Shadow on false) :=
  .free (.abreast (.pure v))

theorem fails {x : Binder α} (h : ∀ c s, Fails c x s) : Trails on a P x b Q where
  stays {c s t v} _ run := by
    obtain ⟨e, s', failed⟩ := h c s
    rw [failed] at run
    cases run
  keeps {c c' s s' t v} _ _ run := by
    obtain ⟨e, s', failed⟩ := h c s
    rw [failed] at run
    cases run

/-- What is looked up without a change of the state, and is the same in both runs. -/
theorem look {x : Binder α} (v : BindContext → BindState → α)
    (run : ∀ c s, x c s = (.ok (v c s), s))
    (same : ∀ c c' s s', Toggled on c c' → P s s' → v c' s' = v c s) : Trails on a P x a P where
  stays := by
    intro c s t u blocked h
    rw [run] at h
    cases h
    exact blocked
  keeps := by
    intro c c' s s' t u peers hs h
    rw [run] at h
    cases h
    exact Or.inr ⟨s', by rw [run, same c c' s s' peers hs], hs⟩

end Trails

theorem fail_trails (cause : ParseCause) (offset : Nat) :
    Trails on a P (fail cause offset : Binder α) b Q :=
  .fails fun _ _ => fails_fail cause offset

theorem throw_trails (e : CompileError) : Trails on a P (throw e : Binder α) b Q :=
  .fails fun _ s => ⟨e, s, rfl⟩

theorem unexpected_trails (expected : String) :
    Trails on a P (unexpected expected : Binder α) b Q :=
  .fails fun _ _ => fails_unexpected expected

theorem lift_trails (r : Except CompileError α) : Trails on a P (liftM r) a P := by
  cases r with
  | ok v => exact .pure v
  | error e => exact throw_trails e

theorem inScope_trails {t : Ty} {alias? : Option String} {x : Binder α}
    (h : Trails on a P x b Q) : Trails on a P (inScope t alias? x) b Q where
  stays blocked run := h.stays blocked run
  keeps peers hs run := h.keeps (peers.push t alias?) hs run

/-! ## The scope and the registry -/

theorem scope_trails : Trails on a P scope a P :=
  .look (fun c _ => c.scope) (fun _ _ => rfl) fun _ _ _ _ peers _ => peers.scope

theorem tokenCount_trails : Trails on a P tokenCount a P :=
  .look (fun c _ => c.tokenCount) (fun _ _ => rfl) fun _ _ _ _ peers _ => peers.count

theorem schema_trails : Trails on a (Shadow on named) schema a (Shadow on named) :=
  .look (fun _ s => s.workspace.registry.schema) (fun _ _ => rfl) fun _ _ _ _ _ hs => by
    rw [hs.workspace]

/-- What is made of the workspace alone, without a change of the tokens. -/
theorem Trails.work {x : Binder α} (v : BindContext → Workspace → α × Workspace)
    (run : ∀ c s, x c s = (.ok (v c s.workspace).1, ⟨s.tokens, (v c s.workspace).2⟩))
    (same : ∀ c c' w, Toggled on c c' → v c' w = v c w) :
    Trails on a (Shadow on named) x a (Shadow on named) where
  stays := by
    intro c s t u blocked h
    rw [run] at h
    cases h
    exact blocked
  keeps := by
    intro c c' s s' t u peers hs h
    rw [run] at h
    cases h
    refine Or.inr ⟨⟨s'.tokens, (v c s.workspace).2⟩, ?_, hs.tokens, rfl, hs.ends, hs.keywords⟩
    rw [run, hs.workspace, same c c' _ peers]

theorem members_trails (t : Ty) :
    Trails on a (Shadow on named) (members t) a (Shadow on named) :=
  .work (fun _ w => w.members t) (fun _ _ => rfl) fun _ _ _ _ => rfl

theorem findMember?_trails (t : Ty) (name : String) :
    Trails on a (Shadow on named) (findMember? t name) a (Shadow on named) :=
  (members_trails t).bind fun _ => .pure _

theorem findMethods_trails (t : Ty) (name : String) :
    Trails on a (Shadow on named) (findMethods t name) a (Shadow on named) :=
  (members_trails t).bind fun _ => .pure _

theorem findType?_trails (name : String) :
    Trails on a (Shadow on named) (findType? name) a (Shadow on named) :=
  .work (fun c w => ((w.findType name c.scope.base.ty).1.or (Ty.predefined? name),
    (w.findType name c.scope.base.ty).2)) (fun _ _ => rfl) fun _ _ _ peers => by
      rw [peers.scope]

theorem anonymousRecord_trails (fields : List (String × Ty)) :
    Trails on a (Shadow on named) (anonymousRecord fields) a (Shadow on named) :=
  .work (fun _ w => (⟨.anonymous w.nextAnonymous, s!"AnonymousType{w.nextAnonymous}", fields,
    .structural, false⟩, { w with nextAnonymous := w.nextAnonymous + 1 }))
    (fun _ _ => rfl) fun _ _ _ _ => rfl

theorem bound_trails (rule : Schema → Except CompileError α) :
    Trails on a (Shadow on named) (bound rule) a (Shadow on named) :=
  schema_trails.bind fun s => lift_trails (rule s)

/-! ## Tokens -/

/-- Only the position of the current token matters. -/
theorem current_blind {f : Token → Binder α}
    (same : ∀ t u : Token, t.offset = u.offset → f t = f u)
    (h : ∀ t, Trails on a (Shadow on named) (f t) b Q) :
    Trails on a (Shadow on named) (current >>= f) b Q where
  stays blocked run := (h _).stays blocked run
  keeps := by
    intro c c' s s' t v peers hs run
    have offset : (headToken s'.tokens).offset = (headToken s.tokens).offset := by
      rw [hs.tokens]
      exact offset_headToken_abbreviate named s.tokens
    obtain blocked | ⟨t', run', hq⟩ := (h _).keeps peers hs run
    · exact Or.inl blocked
    · refine Or.inr ⟨t', ?_, hq⟩
      rw [← run', ← same _ _ offset]
      rfl

/-- Both runs see the token that they are at. -/
theorem current_abreast {f : Token → Binder α}
    (h : ∀ t, t.kind = κ → Trails on false (Abreast on κ) (f t) b Q) :
    Trails on false (Abreast on κ) (current >>= f) b Q where
  stays blocked := (not_blocked_false blocked).elim
  keeps := by
    intro c c' s s' t v peers abreast run
    change f (headToken s.tokens) c s = _ at run
    show _ ∨ ∃ t', f (headToken s'.tokens) c' s' = _ ∧ _
    rw [abreast.head]
    exact (h _ abreast.kind).keeps peers abreast run

/-- Of the steady kinds, both runs see the same one. -/
theorem current_steady {f : Token → Binder α} {y : Binder α}
    (here : ∀ t, t.kind.isSteady = true → Trails on false (Abreast on t.kind) (f t) b Q)
    (other : ∀ t, t.kind.isSteady = false → f t = y)
    (hy : Trails on a (Shadow on false) y b Q) :
    Trails on a (Shadow on false) (current >>= f) b Q where
  stays := by
    intro c s t v blocked run
    change f (headToken s.tokens) c s = _ at run
    rw [other _ blocked.not_steady] at run
    exact hy.stays blocked run
  keeps := by
    intro c c' s s' t v peers hs run
    change f (headToken s.tokens) c s = _ at run
    show _ ∨ ∃ t', f (headToken s'.tokens) c' s' = _ ∧ _
    cases steady : (headToken s.tokens).kind.isSteady with
    | true =>
      have abreast := hs.abreast (Token.contextSign?_of_kind fun kind => by
        rw [kind] at steady
        cases steady)
      rw [abreast.head]
      exact (here _ steady).keeps peers abreast run
    | false =>
      have steady' : (headToken s'.tokens).kind.isSteady = false := by
        refine Bool.eq_false_iff.2 fun steady' => ?_
        have seen := (hs.kind_iff steady').1 rfl
        rw [seen, steady'] at steady
        cases steady
      rw [other _ steady] at run
      rw [other _ steady']
      exact hy.keeps peers hs run

/-- Where nothing is read at a place from where the first run is bound to fail. -/
theorem current_operator {f : Token → Binder α} {v : α}
    (here : ∀ t, ¬ t.Blocks → Trails on false (Abreast on t.kind) (f t) true (Shadow on false))
    (other : ∀ t, t.Blocks → f t = pure v) : Tracks on true true (current >>= f) where
  stays := by
    intro c s t u blocked run
    change f (headToken s.tokens) c s = _ at run
    rw [other _ blocked.2] at run
    cases run
    exact blocked
  keeps := by
    intro c c' s s' t u peers hs run
    change f (headToken s.tokens) c s = _ at run
    show _ ∨ ∃ t', f (headToken s'.tokens) c' s' = _ ∧ _
    by_cases blocks : (headToken s.tokens).Blocks
    · rw [other _ blocks] at run
      cases run
      exact Or.inl ⟨rfl, blocks⟩
    · have abreast := hs.abreast (Option.not_isSome_iff_eq_none.1 fun sign => blocks (Or.inr sign))
      rw [abreast.head]
      exact (here _ blocks).keeps peers abreast run

/-- A steady kind is seen in both runs or in none. -/
theorem ifKind_trails (steady : κ.isSteady = true) {x y : Binder α}
    (hx : Trails on false (Abreast on κ) x b Q) (hy : Trails on a (Shadow on false) y b Q) :
    Trails on a (Shadow on false) (isKind κ >>= fun h => if h = true then x else y) b Q := by
  have test : (isKind κ >>= fun h => if h = true then x else y) =
      current >>= fun t => if t.kind = κ then x else y := by
    simp [isKind]
  rw [test]
  refine current_steady (fun t _ => ?_) (fun t unsteady => if_neg ?_) hy
  · split
    next here => exact here ▸ hx
    next => exact hy.start.abreast
  · rintro rfl
    rw [steady] at unsteady
    cases unsteady

theorem ifSymbol_trails {s : Symbol} (steady : (TokenKind.symbol s).isSteady = true)
    {x y : Binder α} (hx : Trails on false (Abreast on (.symbol s)) x b Q)
    (hy : Trails on a (Shadow on false) y b Q) :
    Trails on a (Shadow on false) (isSymbol s >>= fun h => if h = true then x else y) b Q :=
  ifKind_trails steady hx hy

/-- Whether there is a sign does not matter where this is not used. -/
theorem unusedSymbol_trails {s : Symbol} {x : Binder α} (h : Trails on a P x b Q) :
    Trails on a P (isSymbol s >>= fun _ => x) b Q :=
  h

/-- Both runs leave the token that they are at. -/
theorem advance_trails (proper : κ ≠ .finish) :
    Trails on false (Abreast on κ) advance b (Shadow on κ.namesMember) where
  stays blocked := (not_blocked_false blocked).elim
  keeps := by
    rintro c c' s s' t v peers ⟨hs, rfl, -, head⟩ run
    obtain ⟨t₁, u, rest, tokens⟩ := hs.more proper
    obtain ⟨first, second, shadow⟩ := hs.step tokens c c'
    rw [tokens] at head ⊢
    rw [first] at run
    cases run
    rw [head] at second
    exact Or.inr ⟨_, second, shadow⟩

/-- A steady kind that is expected stands in both runs or in none. -/
theorem expect_trails (steady : κ.isSteady = true) (proper : κ ≠ .finish) :
    Trails on a (Shadow on false) (expect κ) b (Shadow on κ.namesMember) :=
  ifKind_trails steady (advance_trails proper) (unexpected_trails _)

/-- The name of a member stands in both runs or in none. -/
theorem expectIdentifier_trails :
    Trails on false (Shadow on true) expectIdentifier b (Shadow on false) where
  stays blocked := (not_blocked_false blocked).elim
  keeps := by
    intro c c' s s' t v peers hs run
    have head : headToken s'.tokens = headToken s.tokens := by
      rw [hs.tokens]
      exact headToken_abbreviate_named s.tokens
    have expected (c : BindContext) (s : BindState) : expectIdentifier c s =
        (if (headToken s.tokens).kind = .identifier then advance
          else unexpected TokenKind.identifier.describe) c s := by
      show (if ((headToken s.tokens).kind == .identifier) = true then advance else _) c s = _
      simp only [beq_iff_eq]
    rw [expected] at run
    rw [expected, head]
    by_cases here : (headToken s.tokens).kind = .identifier
    · rw [if_pos here] at run ⊢
      obtain ⟨t₁, u, rest, tokens⟩ := hs.more (by rw [here]; rintro ⟨⟩)
      obtain ⟨first, second, shadow⟩ := hs.step tokens c c'
      rw [tokens] at head here
      rw [show t₁.kind = .identifier from here] at shadow second
      rw [first] at run
      cases run
      rw [head] at second
      exact Or.inr ⟨_, second, shadow⟩
    · rw [if_neg here] at run
      cases run

/-- Nothing but the end of the text is accepted. -/
theorem expectEnd_trails : Tracks on a b expectEnd :=
  ifKind_trails rfl (.stop ()) (unexpected_trails _)

/-! ## Repetition -/

theorem chainFrom_trails {step : α → Binder (Option α)} (h : ∀ v, Tracks on a a (step v)) :
    ∀ fuel v, Tracks on a a (chainFrom step fuel v)
  | 0, v => .pure v
  | fuel + 1, v => by
    refine (h v).bind fun u? => ?_
    cases u? with
    | some u => exact chainFrom_trails h fuel u
    | none => exact .pure v

theorem chain_trails {step : α → Binder (Option α)} (h : ∀ v, Tracks on a a (step v)) (v : α) :
    Tracks on a a (chain step v) :=
  tokenCount_trails.bind fun fuel => chainFrom_trails h fuel v

theorem separatedFrom_trails {item : α → Binder α} (h : ∀ v, TracksOperand on (item v)) :
    ∀ fuel v, TracksOperand on (separatedFrom item fuel v)
  | 0, v => .free (.pure v)
  | fuel + 1, v => by
    refine (h v).bind fun u => ifSymbol_trails rfl ?_ (.pure u)
    exact (advance_trails (κ := .symbol .comma) nofun).bind fun _ =>
      separatedFrom_trails h fuel u

/-- Items that are followed make lists that are. -/
theorem separated_trails {item : α → Binder α} (h : ∀ v, TracksOperand on (item v)) (v : α) :
    TracksOperand on (separated item v) :=
  tokenCount_trails.bind fun fuel => separatedFrom_trails h fuel v

theorem foldlM_trails {step : β → α → Binder β} (h : ∀ u v, Tracks on a a (step u v)) :
    ∀ (vs : List α) (u : β), Tracks on a a (vs.foldlM step u)
  | [], u => .pure u
  | v :: vs, u => by
    rw [List.foldlM_cons]
    exact (h u v).bind fun u => foldlM_trails h vs u

end Binder

end TypedExpr
