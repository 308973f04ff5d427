import TypedExpr.Proofs.Grouping.Spelling
import TypedExpr.Proofs.Lockstep.Aligned
import TypedExpr.Proofs.Precedence.Parsing

/-!
# Texts inside of texts

A text that is parsed on its own is read in the same way where it stands inside of another text, in
front of a closing parenthesis, of a comma, or of the end.

* `Source.parseAt` — a whole text as an operand of a level.
* `Source.level_encloses` — what is read in front of an end closes its parentheses.
* **`Source.exists_phrase`** — a text that is parsed closes its parentheses, and has no comma
  outside of them.
* **`Source.level_follows`** — the text inside of another one.
* **`Source.parseAt_alike`** — texts of tokens of one meaning.
-/

namespace TypedExpr

variable {format : GuidFormat}

open Binder Grammar

/-! ## Whole texts -/

namespace Grammar

/-- An operand of a level. -/
def anyLevel [GuidFormat] (l : Nat) : Binder Expr := do
  level (expression (← tokenCount)) l

/-- What is read up to the end of the text. -/
def entire (x : Binder Expr) : Binder Expr := do
  let e ← x
  expectEnd
  return e

theorem anyLevel_apply (l : Nat) (c : BindContext) (s : BindState) :
    anyLevel l c s = level (expression c.tokenCount) l c s := rfl

theorem entire_eq {x : Binder Expr} {c : BindContext} {s s' : BindState} {e : Expr}
    (h : x c s = (.ok e, s')) (last : (headToken s'.tokens).kind = .finish) :
    entire x c s = (.ok e, s') := by
  refine (Runs.bind_eq h).trans ?_
  refine Runs.bind (a := ()) ?_ .pure
  show (if ((headToken s'.tokens).kind == .finish) = true then (pure () : Binder Unit)
    else unexpected _) c s' = _
  rw [last]
  rfl

/-- Text that is left over is an error. -/
theorem entire_fails {x : Binder Expr} {c : BindContext} {s s' : BindState} {e : Expr}
    (h : x c s = (.ok e, s')) (more : (headToken s'.tokens).kind ≠ .finish) :
    Fails c (entire x) s := by
  refine Runs.fails_bind (a := e) h (Fails.bind _ ?_)
  show Fails c (isKind .finish >>= fun b =>
    if b = true then pure () else unexpected "operator or end of expression") s'
  refine Runs.fails_bind (a := (headToken s'.tokens).kind == .finish) rfl ?_
  rw [beq_false_of_ne more]
  exact fails_unexpected _

theorem entire_fails_of_fails {x : Binder Expr} {c : BindContext} {s : BindState}
    (h : Fails c x s) : Fails c (entire x) s :=
  h.bind _

theorem exists_of_entire {x : Binder Expr} {c : BindContext} {s s' : BindState} {e : Expr}
    (h : entire x c s = (.ok e, s')) :
    x c s = (.ok e, s') ∧ (headToken s'.tokens).kind = .finish := by
  rcases run : x c s with ⟨error | e', s₁⟩
  · obtain ⟨error', s₂, failed⟩ := entire_fails_of_fails ⟨_, _, run⟩
    rw [failed] at h
    cases h
  · by_cases last : (headToken s₁.tokens).kind = .finish
    · rw [entire_eq run last] at h
      cases h
      exact ⟨rfl, last⟩
    · obtain ⟨error', s₂, failed⟩ := entire_fails run last
      rw [failed] at h
      cases h

end Grammar

/-- What a compilation makes of a workspace. -/
abbrev Outcome [GuidFormat] (α : Type) := ExceptT CompileError (StateM Workspace) α

namespace Source

variable {source : Source} {w v : Workspace} {l : Nat} {e : Expr}

/-- The whole text as an operand of a level; of the loosest level, every expression is one. -/
def parseAt [GuidFormat] (source : Source) (l : Nat) : Outcome Expr :=
  source.run (entire (anyLevel l))

theorem parse_eq_parseAt (source : Source) : source.parse = source.parseAt 0 := rfl

/-- What the rule reads in a text of these tokens. -/
theorem parseAt_eq {tokens : List Token} {fault : Option LexError}
    (h : Lexer.tokens source.text = (tokens, fault)) (nonempty : tokens ≠ []) {s : BindState}
    {r : Except CompileError Expr}
    (run : entire (anyLevel l) { source.context tokens.length with fault } ⟨tokens, w⟩ = (r, s)) :
    source.parseAt l w = (r, s.workspace) := by
  unfold parseAt Source.run
  rw [h]
  cases tokens with
  | nil => exact absurd rfl nonempty
  | cons t ts => exact congrArg (fun r => (r.1, r.2.workspace)) run

end Source

/-! ## Phrases -/

/-- Every parenthesis is closed, and outside of the parentheses there is no comma. -/
def Enclosed (κs : List TokenKind) : Prop := nesting? 0 κs = some 0

/-- The text is read as tokens of the shapes, which close the parentheses that they open. -/
structure Phrase (text : String) (ss : List Shape) : Prop where
  spells : Spells text.toList ss
  nonempty : ss ≠ []
  enclosed : Enclosed (ss.map Shape.kind)

theorem map_kind_shape (ts : List Token) : (ts.map Token.shape).map Shape.kind =
    ts.map Token.kind := by
  rw [List.map_map]
  rfl

theorem Token.alike_refl (t : Token) : t.Alike t := ⟨rfl, fun _ => rfl⟩

theorem Token.Alike.symm {t u : Token} (h : t.Alike u) : u.Alike t := by
  refine ⟨h.kind.symm, fun spelled => (h.text ?_).symm⟩
  rcases TokenKind.eq_or_hasSynonym h.kind with same | ⟨left, right⟩
  · rw [← same]
    exact spelled
  · unfold TokenKind.hasSynonym at right
    split at right <;> simp_all [TokenKind.isSpelled]

theorem Token.alike_of_kind {t u : Token} (kind : t.kind.canonical = u.kind.canonical)
    (unspelled : t.kind.isSpelled = false) : t.Alike u :=
  ⟨kind, fun spelled => absurd spelled (by simp [unspelled])⟩

theorem Token.alike_of_shape {t u : Token} (h : t.shape = u.shape) : t.Alike u :=
  ⟨congrArg (TokenKind.canonical ∘ Shape.kind) h, fun _ => congrArg Shape.text h⟩

theorem forall₂_alike_refl (ts : List Token) : List.Forall₂ Token.Alike ts ts :=
  List.forall₂_same.2 fun t _ => t.alike_refl

theorem forall₂_alike_of_shapes {ts us : List Token} (h : ts.map Token.shape = us.map Token.shape) :
    List.Forall₂ Token.Alike ts us := by
  have same : List.Forall₂ (fun t u : Token => t.shape = u.shape) ts us := by
    rwa [← List.forall₂_map_right_iff, ← List.forall₂_map_left_iff, List.forall₂_eq_eq_eq]
  exact same.imp fun _ _ => Token.alike_of_shape

namespace Source

variable {source : Source} {w v : Workspace} {l : Nat} {e : Expr}

/-- **What is read in front of an end closes its parentheses.** The run is compared with itself. -/
theorem level_encloses {c : BindContext} {d : Nat} {ts : List Token} {s : BindState}
    (nonempty : ts ≠ []) (hd : ts.length ≤ d)
    (cut : (∀ t ∈ ts, t.kind ≠ .finish) → c.fault.isSome = true)
    (run : level (expression d) l c ⟨ts, w⟩ = (.ok e, s))
    (ends : (headToken s.tokens).kind.isEnd = true) :
    ∃ front, ts = front ++ s.tokens ∧ s.tokens ≠ [] ∧ Enclosed (front.map Token.kind) ∧
      (∀ t ∈ front, t.kind ≠ .finish) ∧ w.Akin s.workspace := by
  obtain ⟨front, tail, depth, rfl, nesting, proper, barrier⟩ := exists_barrier 0 ts
  have tails : Tails (tail = []) depth tail tail := by
    refine ⟨heads_of_barrier barrier, ?_⟩
    by_cases empty : tail = []
    · exact Or.inr ⟨empty, empty, empty⟩
    · exact Or.inl ⟨empty, empty⟩
  have aligned := aligned_alignment (P := (· ≠ .finish)) (fun _ => id) tails
    (Workspace.kept_together w) (Or.inr (Workspace.numbers_together w))
  have start : Aligned (· ≠ .finish) (Workspace.Together w) depth tail tail 0 front.length
      ⟨front ++ tail, w⟩ ⟨front ++ tail, w⟩ :=
    ⟨front, front, rfl, rfl, forall₂_alike_refl front, rfl, nesting, proper, nonempty,
      ⟨⟨.refl w, rfl⟩, .refl w⟩⟩
  have le : front.length ≤ d := by
    rw [List.length_append] at hd
    exact Nat.le_trans (Nat.le_add_right _ _) hd
  have fault (empty : tail = []) : c.fault.isSome = true := by
    rw [empty, List.append_nil] at cut
    exact cut proper
  have agree := level_agree aligned le le
    ⟨rfl, rfl, rfl, Or.inr rfl, fun empty => ⟨fault empty, fault empty⟩⟩ l start
  rw [run] at agree
  obtain ⟨-, m, -, aligned⟩ := agree
  obtain ⟨rfl, remaining, tokens, -, workspace⟩ | ⟨more, -⟩ := Aligned.halted (fun _ => id) aligned
  · refine ⟨front, ?_, remaining, nesting, proper, workspace.left⟩
    rw [tokens]
  · rw [more] at ends
    cases ends

/-- A run over tokens up to the end reads all of them. -/
theorem enclosed_of_entire {c : BindContext} {body rest : List Token} {s : BindState}
    (count : c.tokenCount = (body ++ rest).length) (proper : ∀ t ∈ body, t.kind ≠ .finish)
    (ends : ∀ t ∈ rest, t.kind = .finish) (cut : rest = [] → c.fault.isSome = true)
    (nonempty : body ++ rest ≠ [])
    (h : entire (anyLevel l) c ⟨body ++ rest, w⟩ = (.ok e, s)) :
    rest ≠ [] ∧ Enclosed (body.map Token.kind) ∧ w.Akin s.workspace := by
  obtain ⟨run, last⟩ := exists_of_entire h
  rw [anyLevel_apply] at run
  have broken (none : ∀ t ∈ body ++ rest, t.kind ≠ .finish) : c.fault.isSome = true := by
    refine cut (List.eq_nil_iff_forall_not_mem.2 fun t ht => ?_)
    exact none t (List.mem_append_right _ ht) (ends t ht)
  obtain ⟨front, split, more, enclosed, front_proper, akin⟩ := level_encloses nonempty
    (Nat.le_of_eq count.symm) broken run (by rw [last]; rfl)
  obtain ⟨u, us, tokens⟩ := List.exists_cons_of_ne_nil more
  rw [tokens] at last split
  -- The end of the text is the first token that is not among the others.
  obtain ⟨rfl, rfl⟩ : body = front ∧ rest = u :: us := by
    obtain ⟨extra, rfl, behind⟩ | ⟨extra, rfl, behind⟩ := List.append_eq_append_iff.1 split
    · cases extra with
      | nil => exact ⟨(List.append_nil _).symm, behind⟩
      | cons t extra =>
        refine absurd (ends t ?_) (front_proper t (List.mem_append_right _ List.mem_cons_self))
        rw [behind]
        exact List.mem_cons_self
    · cases extra with
      | nil => exact ⟨List.append_nil _, behind.symm⟩
      | cons t extra =>
        obtain ⟨rfl, -⟩ := List.cons.inj behind
        exact absurd last (proper u (List.mem_append_right _ List.mem_cons_self))
  exact ⟨List.cons_ne_nil _ _, enclosed, akin⟩

/-- No operand starts with the end of the text. -/
theorem anyLevel_fails {c : BindContext} {t : Token} (l : Nat) (last : t.kind = .finish)
    (rest : List Token) (w : Workspace) : Fails c (anyLevel l) ⟨t :: rest, w⟩ := by
  refine runs_tokenCount.fails_bind (level_fails (runs_current.fails_bind ?_) ?_ l)
  · rw [last]
    exact fails_unexpected _
  · rw [last]
    rfl

/-- **A text that is parsed closes its parentheses**, and has no comma outside of them.  Parsing
leaves the declarations as they are. -/
theorem exists_phrase (h : source.parseAt l w = (.ok e, v)) :
    (∃ ss, Phrase source.text ss) ∧ w.Akin v := by
  rcases Lexer.tokens_cases source.text with
    ⟨body, finish, tokens, last, spells⟩ | ⟨ts, error, tokens, proper⟩
  · rcases run : entire (anyLevel l) { source.context (body ++ [finish]).length with fault := none }
      ⟨body ++ [finish], w⟩ with ⟨r, s⟩
    rw [parseAt_eq tokens (by simp) run] at h
    obtain ⟨rfl, rfl⟩ := Prod.mk.inj h
    have proper : ∀ t ∈ body, t.kind ≠ .finish :=
      fun t ht => spells.proper t.shape (List.mem_map_of_mem ht)
    have ends : ∀ t ∈ [finish], t.kind = .finish := List.forall_mem_singleton.2 last
    obtain ⟨-, enclosed, akin⟩ := enclosed_of_entire rfl proper ends nofun (by simp) run
    refine ⟨⟨body.map Token.shape, spells, ?_, ?_⟩, akin⟩
    · intro empty
      obtain rfl := List.map_eq_nil_iff.1 empty
      obtain ⟨error, s', failed⟩ := entire_fails_of_fails (anyLevel_fails
        (c := { source.context ([] ++ [finish]).length with fault := none }) l last [] w)
      rw [List.nil_append] at run failed
      rw [failed] at run
      cases run
    · rw [map_kind_shape]
      exact enclosed
  · exfalso
    by_cases empty : ts = []
    · unfold parseAt Source.run at h
      rw [tokens, empty] at h
      cases h
    · rcases run : entire (anyLevel l) { source.context ts.length with fault := some error }
        ⟨ts, w⟩ with ⟨r, s⟩
      rw [parseAt_eq tokens empty run] at h
      obtain ⟨rfl, rfl⟩ := Prod.mk.inj h
      have ends : ∀ t ∈ ([] : List Token), t.kind = .finish := nofun
      rw [← List.append_nil ts] at run empty
      exact (enclosed_of_entire rfl proper ends (fun _ => rfl) empty run).1 rfl

/-! ## Texts inside of texts -/

/-- The rule fails, or stops in front of a token that ends nothing. -/
def Stops (r : Except CompileError Expr × BindState) : Prop :=
  ∀ e s, r = (.ok e, s) → (headToken s.tokens).kind.isEnd = false

/-- In the context, texts are read as the text of the source is on its own, and there are at least
`n` tokens. -/
structure Hosts (source : Source) (n : Nat) (c : BindContext) : Prop where
  scope : c.scope = .ofElement source.element
  params : c.params = source.params
  contextKeywords : c.contextKeywords = source.contextKeywords
  count : n ≤ c.tokenCount

section Inside

variable {P : TokenKind → Prop} {W : Workspace → Workspace → Prop} {body ts tail tail' : List Token}
  {finish : Token} {c c' : BindContext} {d d' : Nat} {w' : Workspace}

/-- Both runs read all that is in front of the tails, or both stopped in front of a token that ends
nothing. -/
def Halted (W : Workspace → Workspace → Prop) (tail tail' : List Token) (s s' : BindState) : Prop :=
  (s.tokens = tail ∧ s'.tokens = tail' ∧ W s.workspace s'.workspace) ∨
    (headToken s.tokens).kind.isEnd = false ∧ (headToken s'.tokens).kind.isEnd = false

/-- **Tokens of one meaning in front of two ends** are read alike. -/
theorem level_beside (proper : ∀ κ, P κ → κ ≠ .finish) (kept : Workspace.Kept W)
    (numbers : (∀ κ, P κ → κ ≠ .keyword .new) ∨ Workspace.Numbers W)
    (all : ∀ t ∈ body, P t.kind) (enclosed : Enclosed (body.map Token.kind))
    (peers : Peers False (body.length + 1) c c') (hd : body.length ≤ d) (hd' : body.length ≤ d')
    (alike : List.Forall₂ Token.Alike body ts) (nonempty : tail ≠ []) (nonempty' : tail' ≠ [])
    (ends : (headToken tail).kind.isEnd = true) (ends' : (headToken tail').kind.isEnd = true)
    (hw : W w w') :
    Agree (fun e e' s s' => e = e' ∧ Halted W tail tail' s s')
      (level (expression d) l c ⟨body ++ tail, w⟩)
      (level (expression d') l c' ⟨ts ++ tail', w'⟩) := by
  have tails : Tails False 0 tail tail' := ⟨.ended rfl ends ends', Or.inl ⟨nonempty, nonempty'⟩⟩
  have aligned := aligned_alignment proper tails kept numbers
  have start : Aligned P W 0 tail tail' 0 body.length ⟨body ++ tail, w⟩ ⟨ts ++ tail', w'⟩ :=
    ⟨body, ts, rfl, rfl, alike, rfl, enclosed, all,
      fun empty => nonempty (List.append_eq_nil_iff.1 empty).2, hw⟩
  refine (level_agree aligned hd hd' peers l start).mono ?_
  rintro e _ s s' ⟨rfl, m, -, aligned⟩
  exact ⟨rfl, (aligned.halted proper).imp (fun h => h.2.2) id⟩

/-- **The text inside of another one.** What is parsed on its own is read there, up to the end of
its last token; what is not parsed on its own is not read there, or not up to there. -/
theorem level_follows (proper : ∀ κ, P κ → κ ≠ .finish) (kept : Workspace.Kept W)
    (numbers : (∀ κ, P κ → κ ≠ .keyword .new) ∨ Workspace.Numbers W)
    (tokens : Lexer.tokens source.text = (body ++ [finish], none)) (last : finish.kind = .finish)
    (all : ∀ t ∈ body, P t.kind) (enclosed : Enclosed (body.map Token.kind))
    (host : source.Hosts (body.length + 1) c) (hd : body.length ≤ d)
    (alike : List.Forall₂ Token.Alike body ts) (nonempty : tail ≠ [])
    (ends : (headToken tail).kind.isEnd = true) (hw : W w w') :
    (∀ e v, source.parseAt l w = (.ok e, v) → ∃ v', W v v' ∧
      level (expression d) l c ⟨ts ++ tail, w'⟩ = (.ok e, ⟨tail, v'⟩)) ∧
    ∀ error v, source.parseAt l w = (.error error, v) →
      Stops (level (expression d) l c ⟨ts ++ tail, w'⟩) := by
  have count : (body ++ [finish]).length = body.length + 1 := by simp
  have peers : Peers False (body.length + 1) (source.context (body ++ [finish]).length) c :=
    ⟨host.scope, host.params, host.contextKeywords, Or.inl ⟨Nat.le_of_eq count.symm, host.count⟩,
      False.elim⟩
  have le : body.length ≤ (body ++ [finish]).length := by
    rw [count]
    exact Nat.le_succ _
  have ends₀ : (headToken [finish]).kind.isEnd = true := by
    rw [headToken, List.headD_cons, last]
    rfl
  have agree := level_beside (l := l) proper kept numbers all enclosed peers le hd alike
    (List.cons_ne_nil finish []) nonempty ends₀ ends hw
  have own {r : Except CompileError Expr} {s : BindState}
      (run : entire (anyLevel l) (source.context (body ++ [finish]).length)
        ⟨body ++ [finish], w⟩ = (r, s)) : source.parseAt l w = (r, s.workspace) :=
    parseAt_eq tokens (by simp) run
  change Agree _ (anyLevel l (source.context (body ++ [finish]).length) ⟨body ++ [finish], w⟩) _
    at agree
  rcases run : anyLevel l (source.context (body ++ [finish]).length) ⟨body ++ [finish], w⟩ with
    ⟨error | a, s⟩
  · rw [run] at agree
    obtain ⟨error', s', run'⟩ := agree.exists_error
    obtain ⟨error₂, s₂, failed⟩ := entire_fails_of_fails ⟨error, s, run⟩
    rw [own failed, run']
    exact ⟨nofun, fun _ _ _ _ _ => nofun⟩
  · rw [run] at agree
    obtain ⟨_, s', run', rfl, ⟨done, done', hw'⟩ | ⟨more, more'⟩⟩ := agree.exists_ok
    · have parsed := own (entire_eq run (by rw [done]; exact last))
      rw [run', parsed]
      refine ⟨?_, nofun⟩
      rintro _ _ ⟨⟩
      exact ⟨s'.workspace, hw', by rw [← done']⟩
    · have unfinished : (headToken s.tokens).kind ≠ .finish := by
        intro finished
        rw [finished] at more
        cases more
      obtain ⟨error, s₁, failed⟩ := entire_fails run unfinished
      rw [own failed, run']
      refine ⟨nofun, ?_⟩
      rintro _ _ _ _ _ ⟨⟩
      exact more'

end Inside

/-! ## The same text in two workspaces -/

section Elsewhere

variable {source' : Source} {w' : Workspace} {ts us : List Token}

/-- **Texts of tokens of one meaning are parsed alike**, in workspaces that stay related. -/
theorem parseAt_alike {P : TokenKind → Prop} {W : Workspace → Workspace → Prop}
    (proper : ∀ κ, P κ → κ ≠ .finish) (kept : Workspace.Kept W)
    (numbers : (∀ κ, P κ → κ ≠ .keyword .new) ∨ Workspace.Numbers W)
    (same : source' = { source with text := source'.text })
    (tokens : Lexer.tokens source.text = (ts, none))
    (tokens' : Lexer.tokens source'.text = (us, none)) (alike : List.Forall₂ Token.Alike ts us)
    (all : ∀ t ∈ ts, t.kind ≠ .finish → P t.kind) (hw : W w w')
    (h : source.parseAt l w = (.ok e, v)) :
    ∃ v', W v v' ∧ source'.parseAt l w' = (.ok e, v') := by
  obtain ⟨⟨ss, spells, -, enclosed⟩, -⟩ := exists_phrase h
  obtain ⟨body, finish, read, rfl, last⟩ := Lexer.tokens_of_spells spells
  obtain ⟨body', finish', read', last'⟩ := Lexer.exists_finish tokens'
  rw [tokens] at read
  obtain ⟨rfl, -⟩ := Prod.mk.inj read
  subst read'
  have length : body.length = body'.length := by simpa using alike.length_eq
  have bodies : List.Forall₂ Token.Alike body body' := by
    have front := List.forall₂_take_append _ _ _ alike
    rwa [← length, List.take_left] at front
  rw [map_kind_shape] at enclosed
  have host : source.Hosts (body.length + 1) (source'.context (body' ++ [finish']).length) := by
    rw [same]
    exact ⟨rfl, rfl, rfl, by simp [context, length]⟩
  have proper' : ∀ t ∈ body, P t.kind := by
    intro t ht
    exact all t (List.mem_append_left _ ht) (spells.proper t.shape (List.mem_map_of_mem ht))
  have ends : (headToken [finish']).kind.isEnd = true := by
    rw [headToken, List.headD_cons, last']
    rfl
  have le : body.length ≤ (body' ++ [finish']).length := by simp [length]
  obtain ⟨v', hv, run⟩ := (level_follows proper kept numbers tokens last proper' enclosed host le
    bodies (List.cons_ne_nil _ _) ends hw).1 e v h
  exact ⟨v', hv, parseAt_eq tokens' (by simp) (entire_eq run last')⟩

/-- The text makes no records. -/
def IsPlain (text : String) : Prop := ∀ t ∈ (Lexer.tokens text).1, t.kind ≠ .keyword .new

instance (text : String) : Decidable (IsPlain text) :=
  inferInstanceAs (Decidable (∀ t ∈ (Lexer.tokens text).1, t.kind ≠ .keyword .new))

/-- **A text that makes no records** is parsed alike wherever the declarations are the same, and
leaves the number of the next record as it is. -/
theorem parseAt_elsewhere (plain : IsPlain source.text) (hw : w.Akin w')
    (h : source.parseAt l w = (.ok e, v)) :
    w.Similar v ∧ ∃ v', w'.Similar v' ∧ source.parseAt l w' = (.ok e, v') := by
  obtain ⟨⟨ss, spells, -, -⟩, -⟩ := exists_phrase h
  obtain ⟨body, finish, tokens, -, -⟩ := Lexer.tokens_of_spells spells
  unfold IsPlain at plain
  rw [tokens] at plain
  obtain ⟨v', apart, run⟩ := parseAt_alike
    (P := fun κ => κ ≠ .finish ∧ κ ≠ .keyword .new) (fun _ => And.left)
    (Workspace.kept_apart w w.nextAnonymous w'.nextAnonymous) (Or.inl fun _ => And.right) rfl
    tokens tokens (forall₂_alike_refl _) (fun t ht more => ⟨more, plain t ht⟩)
    ⟨.refl w, hw, rfl, rfl⟩ h
  exact ⟨⟨apart.left, apart.next⟩, v', ⟨hw.symm.trans apart.right, apart.next'⟩, run⟩

end Elsewhere

end Source

end TypedExpr
