import TypedExpr.Proofs.Grouping.Synonyms
import TypedExpr.Proofs.Keywords.Grammar
import TypedExpr.Proofs.Keywords.Respelling
import TypedExpr.Proofs.Resolution.Composed

/-!
# What the toggle of the context keywords changes

The context keywords abbreviate signs, and enabling them changes nothing else: a text means what it
means with the signs in their place, and a text without context keywords means the same under either
setting.

* `Source.toggled` — a source under a setting.
* `Source.runTokens` — what the tokens of a text are read as.
* `Binder.Entire` — the rules for whole texts, `Grammar.whole_entire`, `Grammar.ordering_entire`.
* `Source.runTokens_trails` — the tokens of a text with signs for the context keywords.
* `Source.run_toggled`, `Source.parseOrdering_toggled` — texts without context keywords.
* `Source.parse_of_runTokens` — texts of the same tokens, wherever these stand.
* **`Source.contextKeywords_abbreviate`** — the keywords stand for signs, and nothing else changes.
-/

namespace TypedExpr

open Binder Grammar

/-! ## Up to the end of the text -/

namespace Binder

variable {format : GuidFormat}

/-- A rule that reads a text up to its end. -/
structure Entire {α : Type} (x : Binder α) : Prop where
  composed : Composed x
  trails (on : Bool) : Tracks on false false x
  ended {c : BindContext} {s t : BindState} {v : α} :
    x c s = (.ok v, t) → (headToken t.tokens).kind = .finish

end Binder

namespace Grammar

variable {format : GuidFormat}

theorem finish_of_expectEnd {c : BindContext} {s t : BindState} {v : Unit}
    (h : expectEnd c s = (.ok v, t)) : (headToken t.tokens).kind = .finish := by
  change (if ((headToken s.tokens).kind == .finish) = true then pure ()
    else unexpected "operator or end of expression" : Binder Unit) c s = _ at h
  split at h
  next last =>
    cases h
    exact beq_iff_eq.1 last
  next => cases h

theorem whole_entire : Entire whole where
  composed := whole_composed
  trails _ := whole_trails
  ended run := by
    obtain ⟨e, s', -, rest⟩ := Runs.of_bind run
    obtain ⟨_, s', last, done⟩ := Runs.of_bind rest
    cases done
    exact finish_of_expectEnd last

theorem ordering_entire : Entire ordering where
  composed := ordering_composed
  trails _ := ordering_trails
  ended run := by
    obtain ⟨clauses, s', -, rest⟩ := Runs.of_bind run
    obtain ⟨_, s', last, done⟩ := Runs.of_bind rest
    cases done
    exact finish_of_expectEnd last

end Grammar

namespace Source

section

variable {format : GuidFormat} {α : Type} {x : Binder α} {r : α} {source : Source} {w v : Workspace}
  {e : Expr} {ts us : List Token} {on on' : Bool}

/-! ## Signs in place of keywords -/

/-- The source under a setting of the context keywords. -/
def toggled (source : Source) (on : Bool) : Source := { source with contextKeywords := on }

/-- What a part of the grammar makes of the tokens of a text. -/
def runTokens (source : Source) (tokens : List Token) (x : Binder α) (w : Workspace) :
    Except CompileError α × Workspace :=
  let (result, s) := x (source.context tokens.length) ⟨tokens, w⟩
  (result, s.workspace)

/-- A text is read as its tokens are. -/
theorem run_eq_runTokens (tokens : Lexer.tokens source.text = (ts, none)) :
    source.run x w = source.runTokens ts x w := by
  unfold run
  rw [tokens]
  cases ts <;> rfl

/-- What is read up to its end has no token that cannot be read. -/
theorem tokens_of_run (entire : Entire x) (h : source.run x w = (.ok r, v)) :
    ∃ ts, Lexer.tokens source.text = (ts, none) := by
  obtain ⟨body, finish, tokens, -⟩ | ⟨ts, error, tokens, proper⟩ := Lexer.tokens_cases source.text
  · exact ⟨_, tokens⟩
  · exfalso
    unfold run at h
    rw [tokens] at h
    cases ts with
    | nil => cases h
    | cons t ts =>
      let c : BindContext := { source.context (t :: ts).length with fault := some error }
      change ((x c ⟨t :: ts, w⟩).1, (x c ⟨t :: ts, w⟩).2.workspace) = _ at h
      obtain ⟨⟨front, split⟩, more⟩ := entire.composed.suffix c ⟨t :: ts, w⟩
      have last := entire.ended (Prod.ext (Prod.mk.inj h).1 rfl)
      obtain ⟨u, rest, left⟩ := List.exists_cons_of_ne_nil (more (List.cons_ne_nil t ts))
      rw [left] at split last
      have among : u ∈ front ++ u :: rest := List.mem_append_right _ List.mem_cons_self
      rw [split] at among
      exact proper u among last

/-- **Tokens with signs for their context keywords**, under any setting, are read as the tokens of a
text under which the keywords are enabled, or in which there are none. -/
theorem runTokens_trails (entire : Entire x) (tokens : Lexer.tokens source.text = (ts, none))
    (keywords : on = true ∨ abbreviate false ts = ts)
    (h : (source.toggled on).run x w = (.ok r, v)) :
    (source.toggled on').runTokens (abbreviate false ts) x w = (.ok r, v) := by
  obtain ⟨body, finish, rfl, last⟩ := Lexer.exists_finish tokens
  have read : Lexer.tokens (source.toggled on).text = (body ++ [finish], none) := tokens
  rcases run : x ((source.toggled on).context (body ++ [finish]).length) ⟨body ++ [finish], w⟩ with
    ⟨r', s⟩
  rw [run_eq_runTokens read, runTokens, run] at h
  cases h
  have start : Shadow on false ⟨body ++ [finish], w⟩ ⟨abbreviate false (body ++ [finish]), w⟩ := by
    refine ⟨rfl, rfl, ?_, keywords⟩
    rw [List.getLast?_concat]
    exact congrArg some last
  have peers : Toggled on ((source.toggled on).context (body ++ [finish]).length)
      ((source.toggled on').context (abbreviate false (body ++ [finish])).length) :=
    ⟨rfl, rfl, length_abbreviate _ _, rfl⟩
  obtain blocked | ⟨s', run', shadow⟩ := (entire.trails on).keeps peers start run
  · exact (not_blocked_false blocked).elim
  · rw [runTokens, run']
    exact congrArg (Prod.mk _) shadow.workspace

/-- A text that stays the same with signs for its keywords is read alike under every setting. -/
theorem run_toggled (entire : Entire x)
    (same : abbreviate false (Lexer.tokens source.text).1 = (Lexer.tokens source.text).1)
    (h : (source.toggled on).run x w = (.ok r, v)) :
    (source.toggled on').run x w = (.ok r, v) := by
  obtain ⟨ts, tokens⟩ := tokens_of_run entire h
  change Lexer.tokens source.text = _ at tokens
  rw [tokens] at same
  have read : Lexer.tokens (source.toggled on').text = (ts, none) := tokens
  rw [run_eq_runTokens read, ← runTokens_trails entire tokens (Or.inr same) h]
  exact congrArg (fun ts => runTokens _ ts x w) same.symm

/-! ## Tokens and texts -/

/-- Tokens of the same shapes up to their ends are read as the same expression. -/
theorem entire_of_shapes {c c' : BindContext} {l : Nat} {front body : List Token}
    {finish finish' : Token} {s : BindState} (peers : Peers False (front.length + 1) c c')
    (count : c.tokenCount = (front ++ [finish]).length) (room : front.length ≤ c'.tokenCount)
    (shapes : front.map Token.shape = body.map Token.shape)
    (proper : ∀ t ∈ front, t.kind ≠ .finish) (last : finish.kind = .finish)
    (last' : finish'.kind = .finish)
    (run : entire (anyLevel l) c ⟨front ++ [finish], w⟩ = (.ok e, s)) :
    ∃ s', entire (anyLevel l) c' ⟨body ++ [finish'], w⟩ = (.ok e, s') := by
  obtain ⟨-, enclosed, -⟩ := enclosed_of_entire count proper (List.forall_mem_singleton.2 last)
    nofun (by simp) run
  have isEnd {t : Token} (last : t.kind = .finish) : (headToken [t]).kind.isEnd = true := by
    rw [headToken, List.headD_cons, last]
    rfl
  have fits : front.length ≤ c.tokenCount := by
    rw [count, List.length_append]
    exact Nat.le_add_right _ _
  have agree := level_beside (l := l) (P := (· ≠ .finish)) (fun _ => id)
    (Workspace.kept_together w) (Or.inr (Workspace.numbers_together w)) proper enclosed peers
    fits room (forall₂_alike_of_shapes shapes) (List.cons_ne_nil finish [])
    (List.cons_ne_nil finish' []) (isEnd last) (isEnd last') ⟨.refl w, .refl w⟩
  rw [← anyLevel_apply, ← anyLevel_apply] at agree
  obtain ⟨first, ended⟩ := exists_of_entire run
  rw [first] at agree
  obtain ⟨_, s', second, rfl, ⟨-, done, -⟩ | ⟨more, -⟩⟩ := agree.exists_ok
  · exact ⟨s', entire_eq second (by rw [done]; exact last')⟩
  · rw [ended] at more
    cases more

/-- Texts of the same tokens, wherever these stand, are parsed as the tokens are. -/
theorem parse_of_runTokens {text : String} (h : source.runTokens ts whole w = (.ok e, v))
    (yields : Lexer.Yields text ts) : ((source.withText text).parse w).1 = .ok e := by
  obtain ⟨us, tokens, same⟩ := yields
  obtain ⟨body, finish', read, last', spells⟩ | ⟨_, error, read, -⟩ := Lexer.tokens_cases text
  case inr =>
    rw [tokens] at read
    cases read
  rw [tokens] at read
  obtain rfl := (Prod.mk.inj read).1
  rw [List.map_append] at same
  obtain ⟨front, back, rfl, shapes, ends⟩ := List.map_eq_append_iff.1 same.symm
  obtain ⟨finish, rfl, shape⟩ := List.map_eq_singleton_iff.1 ends
  have last : finish.kind = .finish := (congrArg Shape.kind shape).trans last'
  have proper : ∀ t ∈ front, t.kind ≠ .finish := fun t ht =>
    spells.proper t.shape (shapes ▸ List.mem_map_of_mem ht)
  have count : front.length = body.length := by
    rw [← List.length_map Token.shape, shapes, List.length_map]
  have peers : Peers False (front.length + 1) (source.context (front ++ [finish]).length)
      ((source.withText text).context (body ++ [finish']).length) :=
    ⟨rfl, rfl, rfl, Or.inl ⟨by simp [context], by simp [context, count]⟩, False.elim⟩
  rcases run : whole (source.context (front ++ [finish]).length) ⟨front ++ [finish], w⟩ with
    ⟨r, s⟩
  rw [runTokens, run] at h
  cases h
  rw [show whole = entire (anyLevel 0) from rfl] at run
  obtain ⟨s', run'⟩ := entire_of_shapes peers rfl (by simp [context, count]) shapes proper last
    last' run
  rw [parse_eq_parseAt, parseAt_eq (show Lexer.tokens (source.withText text).text = _ from tokens)
    (by simp) run']

/-- Ordering keys without context keywords are read alike under either setting. -/
theorem parseOrdering_toggled {keys : List (Expr × Bool)}
    (same : abbreviate false (Lexer.tokens source.text).1 = (Lexer.tokens source.text).1) :
    (source.toggled true).parseOrdering w = (.ok keys, v) ↔
      (source.toggled false).parseOrdering w = (.ok keys, v) :=
  ⟨run_toggled ordering_entire same, run_toggled ordering_entire same⟩

/-- **The context keywords are abbreviations of signs, and the toggle affects nothing else.**

What is parsed where the keywords are enabled has tokens which are, with signs for the keywords,
read as the same expression where the keywords are disabled.  There is a text of these tokens, and
every such text is parsed as that expression, wherever the tokens stand in it.  A text that stays
the same with signs for its keywords is parsed alike under either setting. -/
theorem contextKeywords_abbreviate (source : Source) (w v : Workspace) (e : Expr) :
    ((source.toggled true).parse w = (.ok e, v) →
      ∃ ts, Lexer.tokens source.text = (ts, none) ∧
        (source.toggled false).runTokens (abbreviate false ts) whole w = (.ok e, v) ∧
        (∃ text, Lexer.Yields text (abbreviate false ts)) ∧
        ∀ text, Lexer.Yields text (abbreviate false ts) →
          (((source.toggled false).withText text).parse w).1 = .ok e) ∧
    (abbreviate false (Lexer.tokens source.text).1 = (Lexer.tokens source.text).1 →
      ((source.toggled true).parse w = (.ok e, v) ↔
        (source.toggled false).parse w = (.ok e, v))) := by
  refine ⟨fun h => ?_, fun same => ⟨run_toggled whole_entire same, run_toggled whole_entire same⟩⟩
  obtain ⟨ts, tokens⟩ := tokens_of_run whole_entire h
  change Lexer.tokens source.text = _ at tokens
  have signs : (source.toggled false).runTokens (abbreviate false ts) whole w = (.ok e, v) :=
    runTokens_trails whole_entire tokens (Or.inl rfl) h
  exact ⟨ts, tokens, signs, Lexer.exists_yields_abbreviate tokens,
    fun text => parse_of_runTokens signs⟩

end

set_option maxRecDepth 8000 in
theorem contextKeywords_abbreviate_lambda :
    let items : Expr := .parameter 0 (.sequence (.int .int32))
    let count : Expr := .sequenceCall items .count none none (.int .int32)
    let test : Expr := .binary (.compare .gt) (.parameter 1 (.int .int32)) count .boolean
    let e : Expr := .sequenceCall items .any (some test) none .boolean
    (Source.parse ⟨"Any(it => it > Parent.Count())", .sequence (.int .int32), [], true⟩ .empty).1 =
        .ok e ∧
      (Source.parse ⟨"Any(it => $ > ^.Count())", .sequence (.int .int32), [], false⟩ .empty).1 =
        .ok e ∧
      (Source.parse ⟨"Any(it => $ > ^.Count())", .sequence (.int .int32), [], true⟩ .empty).1 =
        .ok e := by
  intro items count test e
  have parsed : (Source.parse ⟨"Any(it => it > Parent.Count())", .sequence (.int .int32), [],
    true⟩ .empty).1 = .ok e := rfl
  obtain ⟨ts, tokens, -, -, texts⟩ := (contextKeywords_abbreviate
    ⟨"Any(it => it > Parent.Count())", .sequence (.int .int32), [], true⟩ .empty _ e).1
    (Prod.ext parsed rfl)
  have words : Lexer.tokens "Any(it => it > Parent.Count())" = ([⟨.identifier, "Any", 0⟩,
    ⟨.symbol .leftParen, "(", 3⟩, ⟨.identifier, "it", 4⟩, ⟨.symbol .arrow, "=>", 7⟩,
    ⟨.identifier, "it", 10⟩, ⟨.symbol .greater, ">", 13⟩, ⟨.identifier, "Parent", 15⟩,
    ⟨.symbol .dot, ".", 21⟩, ⟨.identifier, "Count", 22⟩, ⟨.symbol .leftParen, "(", 27⟩,
    ⟨.symbol .rightParen, ")", 28⟩, ⟨.symbol .rightParen, ")", 29⟩, ⟨.finish, "", 30⟩], none) := rfl
  have signs : Lexer.tokens "Any(it => $ > ^.Count())" = ([⟨.identifier, "Any", 0⟩,
    ⟨.symbol .leftParen, "(", 3⟩, ⟨.identifier, "it", 4⟩, ⟨.symbol .arrow, "=>", 7⟩,
    ⟨.symbol .dollar, "$", 10⟩, ⟨.symbol .greater, ">", 12⟩, ⟨.symbol .caret, "^", 14⟩,
    ⟨.symbol .dot, ".", 15⟩, ⟨.identifier, "Count", 16⟩, ⟨.symbol .leftParen, "(", 21⟩,
    ⟨.symbol .rightParen, ")", 22⟩, ⟨.symbol .rightParen, ")", 23⟩, ⟨.finish, "", 24⟩], none) := rfl
  obtain rfl := (Prod.mk.inj (tokens.symm.trans words)).1
  have disabled := texts _ ⟨_, signs, rfl⟩
  have enabled := ((contextKeywords_abbreviate
    ⟨"Any(it => $ > ^.Count())", .sequence (.int .int32), [], true⟩ .empty _ e).2
    (by rw [signs]; rfl)).2 (Prod.ext disabled rfl)
  exact ⟨parsed, disabled, congrArg Prod.fst enabled⟩

end Source

end TypedExpr
