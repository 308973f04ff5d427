import TypedExpr.Proofs.Grouping.Containment

/-!
# Membership in a sequence

A membership in a sequence means that the sequence contains the item, as long as the sequence is
not written with a parenthesis that is closed in front of its end.  Behind the word of a membership,
an opening parenthesis starts a list of candidates, and nothing continues an operand behind the
list.

* `Source.ClosesEarly` — a text starts with a parenthesis that is closed in front of its end.
* `Source.exists_wrap` — an operand that starts with a parenthesis closes it behind an expression.
* `Source.exists_inside` — what stands in these parentheses.
* **`Source.parse_membership`** — the statement about texts.
-/

namespace TypedExpr

open Binder Grammar

variable {c : BindContext} {ss σ σx inside rest : List Shape} {F : TokenKind → Prop}
  {source : Source} {x e : String} {i s t e' : Expr} {d l n : Nat}

section

variable {format : GuidFormat} {w v : Workspace} {inner : Binder Expr} {m : Outcome Expr}

/-! ## Operands -/

/-- What goes on behind a relation goes on with none of the looser levels. -/
theorem passes_of_not_ends {κ : TokenKind} (h : ¬ Ends 4 κ) {l : Nat} (hl : l ≤ 3) :
    Passes l κ := by
  have all : ∀ l ≤ 3, Passes l κ := by
    cases κ with
    | symbol s => revert h; cases s <;> decide
    | keyword k => revert h; cases k <;> decide
    | placeholder index =>
      intro l _
      refine ⟨?_, nofun, nofun⟩
      match l with
      | 0 | 1 | 2 | 3 | 4 | 5 | 6 | _ + 7 => rfl
    | _ => decide
  exact all l hl

/-- An operand that starts with a parenthesis has an expression in it, up to the closing one. -/
theorem exists_run_inside {opening u : Token} {ts us : List Token}
    (opens : opening.kind = .symbol .leftParen)
    (h : ¬ Fails c (level inner l) ⟨opening :: (ts ++ u :: us), w⟩) :
    ∃ s st, inner c ⟨ts ++ u :: us, w⟩ = (.ok s, st) ∧
      (headToken st.tokens).kind = .symbol .rightParen := by
  by_contra none
  refine h (Source.level_fails (runs_current.fails_bind ?_) ?_ l)
  · rw [opens]
    refine (runs_advance_append ts).fails_bind ?_
    rcases run : inner c ⟨ts ++ u :: us, w⟩ with ⟨error | s, st⟩
    · exact Fails.bind _ ⟨_, _, run⟩
    · refine Runs.fails_bind run ((fails_expect fun here => none ?_).bind _)
      exact ⟨s, st, run, here⟩
  · rw [opens]
    rfl

namespace Source

/-- An expression that was read up to a closing parenthesis is read in front of any end. -/
theorem expression_together {N n d d' : Nat} {body us tail others : List Token} {next : Token}
    {st : BindState} {w' : Workspace} (proper : ∀ t ∈ body, t.kind ≠ .finish)
    (enclosed : Enclosed (body.map Token.kind)) (nonempty : tail ≠ [])
    (closes : (headToken tail).kind.isEnd = true)
    (run : expression d (source.context N) ⟨body ++ tail, w⟩ = (.ok s, st))
    (here : (headToken st.tokens).kind = .symbol .rightParen)
    (hN : body.length < N) (hd : body.length < d) (hn : body.length < n) (hd' : body.length < d')
    (alike : List.Forall₂ Token.Alike body us) (ends : next.kind.isEnd = true)
    (hw : w.Similar w') :
    ∃ w₁, Workspace.Together w st.workspace w₁ ∧
      expression d' (source.context n) ⟨us ++ next :: others, w'⟩ =
        (.ok s, ⟨next :: others, w₁⟩) := by
  obtain ⟨d, rfl⟩ : ∃ k, d = k + 1 := ⟨d - 1, by omega⟩
  obtain ⟨d', rfl⟩ : ∃ k, d' = k + 1 := ⟨d' - 1, by omega⟩
  have peers : Peers False (body.length + 1) (source.context N) (source.context n) :=
    ⟨rfl, rfl, rfl, Or.inl ⟨hN, hn⟩, False.elim⟩
  have agree := level_beside (P := (· ≠ .finish)) (l := 0) (fun _ => id)
    (Workspace.kept_together w) (Or.inr (Workspace.numbers_together w)) proper enclosed peers
    (Nat.le_of_lt_succ hd) (Nat.le_of_lt_succ hd') alike nonempty (List.cons_ne_nil next others)
    closes ends ⟨hw, .refl w⟩
  have run : level (expression d) 0 (source.context N) ⟨body ++ tail, w⟩ = (.ok s, st) := run
  rw [run] at agree
  obtain ⟨_, ⟨_, w₁⟩, run', rfl, ⟨-, rfl, together⟩ | ⟨more, -⟩⟩ := agree.exists_ok
  · exact ⟨w₁, together, run'⟩
  · rw [here] at more
    cases more

/-- Behind an opening parenthesis, a text that is parsed has an expression up to the closing one. -/
theorem exists_run_opened {opening u : Token} {ts us : List Token}
    (tokens : Lexer.tokens (source.withText e).text = (opening :: (ts ++ u :: us), none))
    (count : (opening :: (ts ++ u :: us)).length = n)
    (opens : opening.kind = .symbol .leftParen)
    (h : (source.withText e).parseAt l w = (.ok s, v)) :
    ∃ s' st, expression n (source.context n) ⟨ts ++ u :: us, w⟩ = (.ok s', st) ∧
      (headToken st.tokens).kind = .symbol .rightParen := by
  refine exists_run_inside (l := l) opens fun fails => ?_
  have level : Fails (source.context n) (anyLevel l) ⟨opening :: (ts ++ u :: us), w⟩ := by
    unfold Fails
    rw [anyLevel_apply]
    exact fails
  obtain ⟨error, st, failed⟩ := entire_fails_of_fails level
  rw [← count] at failed
  rw [parseAt_eq tokens (List.cons_ne_nil _ _) failed] at h
  cases h

/-- What is not the end of a list stands in front of the end. -/
theorem exists_append_of_ne {α : Type} {xs front ys : List α} {x y : α}
    (h : xs ++ [x] = front ++ y :: ys) (ne : x ≠ y) : ∃ zs, xs = front ++ y :: zs := by
  obtain rfl | ⟨zs, z, rfl⟩ := ys.eq_nil_or_concat
  · exact absurd (List.head_eq_of_cons_eq (List.append_inj' h rfl).2) ne
  · rw [List.concat_eq_append, ← List.cons_append, ← List.append_assoc] at h
    exact ⟨zs, (List.append_inj' h rfl).1⟩

/-- **An operand that starts with a parenthesis** closes it behind an expression. -/
theorem exists_wrap {first : Shape} (spells : Spells e.toList (first :: σ))
    (opens : first.kind = .symbol .leftParen)
    (h : (source.withText e).parseAt l w = (.ok s, v)) :
    ∃ inside rest, first :: σ = Shape.wrap inside ++ rest ∧
      Enclosed (inside.map Shape.kind) := by
  obtain ⟨ts, finish, tokens, shapes, last⟩ := Lexer.tokens_of_spells spells
  have tokens : Lexer.tokens (source.withText e).text = _ := tokens
  obtain ⟨opening, ts, rfl, rfl, rfl⟩ := List.map_eq_cons_iff.1 shapes
  obtain ⟨s', st, run, here⟩ := exists_run_opened tokens rfl opens h
  rw [List.length_cons] at run
  have run : level (expression (ts ++ [finish]).length) 0
      (source.context ((ts ++ [finish]).length + 1)) ⟨ts ++ [finish], w⟩ = (.ok s', st) := run
  have cut (none : ∀ t ∈ ts ++ [finish], t.kind ≠ .finish) : False :=
    none finish (List.mem_append_right _ List.mem_cons_self) last
  obtain ⟨front, split, more, enclosed, -, -⟩ := level_encloses (by simp) (Nat.le_refl _)
    (fun none => (cut none).elim) run (by rw [here]; rfl)
  obtain ⟨closing, us, behind⟩ := List.exists_cons_of_ne_nil more
  rw [behind] at here split
  have closes : closing.kind = .symbol .rightParen := here
  have inner : finish ≠ closing := by
    rintro rfl
    rw [last] at closes
    cases closes
  obtain ⟨us, rfl⟩ := exists_append_of_ne split inner
  refine ⟨front.map Token.shape, us.map Token.shape, ?_, ?_⟩
  · have sign {t : Token} {x : Symbol} (mem : t ∈ opening :: (front ++ closing :: us))
        (kind : t.kind = .symbol x) : t.shape = .sign x := by
      refine spells.sign_eq t.shape ?_ x kind
      rw [← List.map_cons]
      exact List.mem_map_of_mem mem
    rw [sign List.mem_cons_self opens, List.map_append, List.map_cons, sign (by simp) closes]
    simp [Shape.wrap]
  · rw [map_kind_shape]
    exact enclosed

/-- **What stands in the parentheses at the start of an operand** is an expression, and is read as
this expression in the parentheses of other texts. -/
theorem exists_inside (spells : Spells e.toList (Shape.wrap inside ++ rest))
    (enclosed : Enclosed (inside.map Shape.kind))
    (h : (source.withText e).parseAt l w = (.ok s, v)) :
    ∃ s' v', w.Akin v' ∧ ∀ {n d : Nat}, inside.length < n → inside.length < d →
      EchoesAt w (source.context n) (expression d) inside (fun _ => (.ok s', v')) := by
  obtain ⟨ts, finish, tokens, shapes, last⟩ := Lexer.tokens_of_spells spells
  have tokens : Lexer.tokens (source.withText e).text = _ := tokens
  rw [Shape.wrap, List.cons_append, List.append_assoc, List.singleton_append] at shapes
  obtain ⟨opening, ts, rfl, opens, others⟩ := List.map_eq_cons_iff.1 shapes
  obtain ⟨body, ts, rfl, rfl, behind⟩ := List.map_eq_append_iff.1 others
  obtain ⟨closing, more, rfl, closes, -⟩ := List.map_eq_cons_iff.1 behind
  have opens : opening.kind = .symbol .leftParen := congrArg Shape.kind opens
  have closes : closing.kind = .symbol .rightParen := congrArg Shape.kind closes
  rw [List.cons_append, List.append_assoc, List.cons_append] at tokens
  generalize more ++ [finish] = tail at tokens
  generalize count : (opening :: (body ++ closing :: tail)).length = n
  have size : body.length < n := by
    rw [← count, List.length_cons, List.length_append]
    omega
  obtain ⟨s', st, run, here⟩ := exists_run_opened tokens count opens h
  have proper : ∀ t ∈ body, t.kind ≠ .finish := by
    intro t ht
    refine spells.proper t.shape (List.mem_append_left _ (List.mem_cons_of_mem _ ?_))
    exact List.mem_append_left _ (List.mem_map_of_mem ht)
  rw [map_kind_shape] at enclosed
  rw [List.length_map]
  have ends : (headToken (closing :: tail)).kind.isEnd = true := by
    rw [headToken, List.headD_cons, closes]
    rfl
  have again {n d : Nat} {us : List Token} {next : Token} {w' : Workspace}
      (hn : body.length < n) (hd : body.length < d) (alike : List.Forall₂ Token.Alike body us)
      (stops : next.kind.isEnd = true) (others : List Token) (hw : w.Similar w') :
      ∃ w₁, Workspace.Together w st.workspace w₁ ∧
        expression d (source.context n) ⟨us ++ next :: others, w'⟩ =
          (.ok s', ⟨next :: others, w₁⟩) :=
    expression_together proper enclosed (List.cons_ne_nil _ _) ends run here size size hn hd alike
      stops hw
  refine ⟨s', st.workspace, ?_, fun {n d} hn hd us next others w' shapes stops hw => ?_⟩
  · have stops : closing.kind.isEnd = true := ends
    obtain ⟨w₁, together, -⟩ := again size size (forall₂_alike_refl body) stops tail (.refl w)
    exact together.left
  · obtain ⟨w₁, together, run'⟩ :=
      again hn hd (forall₂_alike_of_shapes shapes.symm) stops others hw
    constructor
    · rintro _ _ ⟨⟩
      exact ⟨w₁, together.toSimilar, run'⟩
    · rintro _ _ ⟨⟩

end Source

/-! ## Memberships over known tokens -/

/-- A membership in an operand that does not start with a parenthesis. -/
theorem operand_membership_covers {first : Shape}
    (operand : EchoesAt w c (level inner 4) (first :: σ) m)
    (noParen : first.kind ≠ .symbol .leftParen) (result : m w = (.ok s, v)) (item : Expr)
    (offset : Nat) :
    Covers w c (membership inner item offset) (first :: σ) (·.isEnd = true) (do
      let source ← m
      Outcome.bound (Binding.contains · source item 0)) := by
  refine .isKind_bind _ false (fun _ _ => beq_false_of_ne noParen) ?_
  exact (operand.covers result).bind_last fun source _ _ => bound_contains_covers source item offset

/-- A membership in a list of one expression. -/
theorem wrap_membership_covers (candidate : EchoesAt w c inner inside m) (more : 0 < c.tokenCount)
    (item : Expr) (offset : Nat) :
    Covers w c (membership inner item offset) (Shape.wrap inside) F (do
      let e ← m
      amongst item [e]) := by
  have list := closedList_covers (F := F) (P := id) candidate .nil more
  rw [List.intercalate_singleton] at list
  have membership := list_covers list item offset
  simpa using membership

/-- An item, the word of a membership, and what is behind it, as an expression. -/
theorem in_covers (item : Covers w c (level inner 4) (Shape.wrap σx) (Ends 4) (pure i))
    (right : ∀ offset, Covers w c (membership inner i offset) ss F m) (more : 0 < c.tokenCount)
    (passes : ∀ κ, F κ → ∀ l ≤ 3, Passes l κ) :
    Covers w c (level inner 0) (Shape.wrap σx ++ Shape.isIn :: ss) F m := by
  have membership := membership_covers (k := fun _ => m) item
    (fun e v run offset => by cases run; exact right offset) more
    fun κ follows => passes κ follows 3 (Nat.le_refl 3)
  rw [pure_bind] at membership
  exact Covers.descend (n := 0) (k := 3) membership (by decide) fun κ follows l _ less =>
    passes κ follows l (Nat.le_of_lt less)

end

/-! ## Texts -/

namespace Source

section

variable {format : GuidFormat} {w v : Workspace} {m : Outcome Expr}

/-- The text `(x) in e`. -/
def inText (x e : String) : String := "(" ++ x ++ ") in " ++ e

/-- The text starts with a parenthesis that is closed in front of its end. -/
def ClosesEarly (text : String) : Prop :=
  ∃ inside next rest, Spells text.toList (Shape.wrap inside ++ next :: rest) ∧
    Enclosed (inside.map Shape.kind)

/-- A text that starts with another token closes no parenthesis early. -/
theorem not_closesEarly {first : Shape} (he : Spells e.toList (first :: σ))
    (noParen : first.kind ≠ .symbol .leftParen) : ¬ ClosesEarly e := by
  rintro ⟨inside, next, rest, spells, -⟩
  obtain ⟨rfl, -⟩ := List.cons.inj (Lexer.shapes_unique he spells)
  exact noParen rfl

theorem spells_inText (hx : Phrase x σx) (he : Spells e.toList σ) :
    Spells (inText x e).toList (Shape.wrap σx ++ Shape.isIn :: σ) := by
  have word : Spells "in".toList [Shape.isIn] := .token (n := 1) rfl rfl (by decide) rfl nofun .nil
  have right := word.append Lexeme.separates_space he.space
  simpa [inText] using hx.spells.wrap right.space

/-- An operand of a level is an expression. -/
theorem parse_of_parseAt (h : source.parseAt l w = (.ok e', v)) (hl : l ≤ 7) :
    (source.parse w).1 = .ok e' := by
  obtain ⟨⟨σ, phrase⟩, -⟩ := exists_phrase h
  have host : source.Hosts (σ.length + 1) (source.context (σ.length + 1)) :=
    ⟨rfl, rfl, rfl, Nat.le_refl _⟩
  have operand := (level_echoes (l := l) phrase host (Nat.le_succ _) w).covers h
  have all := Covers.descend (n := 0) (k := l) (by rwa [Nat.zero_add])
    (by rwa [Nat.zero_add]) fun κ isEnd l _ _ => (ends_of_isEnd isEnd 0).passes l (Nat.zero_le l)
  exact (parse_of_covers source phrase.spells all rfl e').2 (congrArg Prod.fst h)

/-- The text of a membership, where it is known what the tokens behind the word are. -/
theorem parse_inText (steady : source.Steady x w i) (hx : Phrase x σx) (he : Spells e.toList σ)
    (right : ∀ n offset, σ.length < n → Covers w (source.context n)
      (membership (expression n) i offset) σ (·.isEnd = true) m) (t : Expr) :
    (source.parseText (inText x e) w).1 = .ok t ↔ (m w).1 = .ok t := by
  refine parse_of_covers (F := (·.isEnd = true)) (source.withText _) (spells_inText hx he) ?_ rfl t
  generalize count : (Shape.wrap σx ++ Shape.isIn :: σ).length = n
  have size : n = σx.length + σ.length + 3 := by
    rw [← count]
    simp
    omega
  have item : Covers w (source.context (n + 1)) (level (expression (n + 1)) 4) (Shape.wrap σx)
      (Ends 4) (pure i) := steady.covers hx (.refl w) (by omega) (by omega) (by decide)
  exact in_covers item (fun offset => right (n + 1) offset (by omega)) (Nat.succ_pos n)
    fun κ isEnd l _ => (ends_of_isEnd isEnd 0).passes l (Nat.zero_le l)

/-- The membership in an operand that does not start with a parenthesis. -/
theorem parse_inText_operand {first : Shape} (steady : source.Steady x w i) (hx : Phrase x σx)
    (he : Phrase e (first :: σ)) (noParen : first.kind ≠ .symbol .leftParen)
    (h : (source.withText e).parseAt 4 w = (.ok s, v)) (t : Expr) :
    (source.parseText (inText x e) w).1 = .ok t ↔
      Binding.contains w.registry.schema s i 0 = .ok t := by
  have phrase : Phrase (source.withText e).text (first :: σ) := he
  have operand (n : Nat) (hn : (first :: σ).length < n) :
      EchoesAt w (source.context n) (level (expression n) 4) (first :: σ)
        ((source.withText e).parseAt 4) := by
    have host : (source.withText e).Hosts ((first :: σ).length + 1) (source.context n) :=
      ⟨rfl, rfl, rfl, hn⟩
    exact level_echoes phrase host (Nat.le_of_lt hn) w
  rw [parse_inText steady hx he.spells fun n offset hn =>
    operand_membership_covers (operand n hn) noParen h i offset]
  rw [bind_of_ok h, ← (exists_phrase h).2.schema]
  rfl

/-- The membership in an operand in parentheses. -/
theorem parse_inText_wrap (steady : source.Steady x w i) (hx : Phrase x σx)
    (spells : Spells e.toList (Shape.wrap inside)) (enclosed : Enclosed (inside.map Shape.kind))
    (h : (source.withText e).parseAt 4 w = (.ok s, v)) (sequence : s.ty.element?.isSome = true)
    (t : Expr) : (source.parseText (inText x e) w).1 = .ok t ↔
      Binding.contains w.registry.schema s i 0 = .ok t := by
  have whole : Spells e.toList (Shape.wrap inside ++ []) := by rwa [List.append_nil]
  obtain ⟨s', v', akin, echo⟩ := exists_inside whole enclosed h
  have text : Spells (source.withText e).text.toList (Shape.wrap inside) := spells
  have own : ((source.withText e).parseAt 4 w).1 = .ok s' := by
    have fits : inside.length < (Shape.wrap inside).length + 1 := by
      rw [Shape.length_wrap]
      omega
    have covers := parenthesized_covers (n := 4) (echo fits fits) (by decide)
    exact (parseAt_of_covers text covers (ends_of_isEnd rfl 4) s').2 rfl
  rw [h] at own
  obtain rfl := Except.ok.inj own
  have right (n offset : Nat) (hn : (Shape.wrap inside).length < n) :
      Covers w (source.context n) (membership (expression n) i offset) (Shape.wrap inside)
        (·.isEnd = true) (fun _ => amongst i [s] v') := by
    rw [Shape.length_wrap] at hn
    exact wrap_membership_covers (echo (by omega) (by omega)) (Nat.zero_lt_of_lt hn) i offset
  rw [parse_inText steady hx spells right, ← akin.schema]
  show (amongst i [s] v').1 = _ ↔ _
  rw [amongst, sequence?, if_pos sequence]
  rfl

/-- The membership in an operand that closes its first parenthesis early. -/
theorem parse_inText_ne {next : Shape} (steady : source.Steady x w i) (hx : Phrase x σx)
    (spells : Spells e.toList (Shape.wrap inside ++ next :: rest))
    (enclosed : Enclosed (inside.map Shape.kind))
    (h : (source.withText e).parseAt 4 w = (.ok s, v)) (t : Expr) :
    (source.parseText (inText x e) w).1 ≠ .ok t := by
  obtain ⟨s', v', akin, echo⟩ := exists_inside spells enclosed h
  -- The operand goes on behind the parentheses, so that what is there goes on with an operand.
  have goes : ¬ Ends 4 next.kind := by
    intro ends
    have fits : inside.length < (Shape.wrap inside ++ next :: rest).length + 1 := by
      rw [List.length_append, Shape.length_wrap]
      omega
    have covers := parenthesized_covers (n := 4) (echo fits fits) (by decide)
    have text : Spells (source.withText e).text.toList _ := spells
    exact parseAt_ne_of_covers text rfl covers ends s (congrArg Prod.fst h)
  have text : Spells (source.withText (inText x e)).text.toList _ := spells_inText hx spells
  rw [← List.cons_append, ← List.append_assoc] at text
  generalize count : (Shape.wrap σx ++ Shape.isIn :: Shape.wrap inside ++ next :: rest).length + 1
    = n
  have size : σx.length + inside.length + 5 < n := by
    rw [← count]
    simp
    omega
  have membership := wrap_membership_covers (c := source.context n) (F := fun κ => ¬ Ends 4 κ)
    (echo (n := n) (d := n) (by omega) (by omega)) (Nat.zero_lt_of_lt size) i
  have item : Covers w (source.context n) (level (expression n) 4) (Shape.wrap σx)
      (Ends 4) (pure i) := steady.covers hx (.refl w) (by omega) (by omega) (by decide)
  have covers := in_covers item membership (Nat.zero_lt_of_lt size)
    fun κ goes l hl => passes_of_not_ends goes hl
  exact parseAt_ne_of_covers text count.symm covers goes t

/-- **A membership means that the sequence contains the item**, unless the sequence starts with a
parenthesis that is closed in front of its end.  The item makes no records, and the sequence is an
operand of the equalities and memberships.

A call of `Contains` on the sequence is always the test whether the sequence contains the item.  If
the sequence closes its first parenthesis early, then the membership is not parsed at all, since
what stands in these parentheses is taken for the candidates. -/
theorem parse_membership (source : Source) (w : Workspace) {x e : String} {i s : Expr}
    (hx : (source.parseText x w).1 = .ok i) (plain : IsPlain x)
    (he : ((source.withText e).parseAt 4 w).1 = .ok s) (sequence : s.ty.element?.isSome = true) :
    (∀ t, (source.parseText (containsText e x) w).1 = .ok t ↔
      Binding.contains w.registry.schema s i 0 = .ok t) ∧
    (¬ ClosesEarly e → ∀ t, (source.parseText (inText x e) w).1 = .ok t ↔
      (source.parseText (containsText e x) w).1 = .ok t) ∧
    (ClosesEarly e → ∀ t, (source.parseText (inText x e) w).1 ≠ .ok t) := by
  obtain ⟨u, item⟩ := fst_eq_ok.1 hx
  obtain ⟨v, operand⟩ := fst_eq_ok.1 he
  obtain ⟨v', parsed⟩ := fst_eq_ok.1 (parse_of_parseAt operand (by decide))
  obtain ⟨⟨σx, hxs⟩, -⟩ := exists_phrase (l := 0) item
  obtain ⟨⟨σ, hes⟩, -⟩ := exists_phrase operand
  have hxs : Phrase x σx := hxs
  have hes : Phrase e σ := hes
  have steady : source.Steady x w i := steady_of_parseText plain item
  have call (t : Expr) : (source.parseText (containsText e x) w).1 = .ok t ↔
      Binding.contains w.registry.schema s i 0 = .ok t := by
    rw [parse_containsText hes hxs parsed sequence, steady.contained_eq parsed]
  refine ⟨call, fun notEarly t => ?_, ?_⟩
  · rw [call]
    obtain ⟨first, σ, rfl⟩ := List.exists_cons_of_ne_nil hes.nonempty
    by_cases opens : first.kind = .symbol .leftParen
    · obtain ⟨inside, rest, split, enclosed⟩ := exists_wrap hes.spells opens operand
      have spells := hes.spells
      rw [split] at spells
      cases rest with
      | nil =>
        rw [List.append_nil] at spells
        exact parse_inText_wrap steady hxs spells enclosed operand sequence t
      | cons next rest => exact absurd ⟨inside, next, rest, spells, enclosed⟩ notEarly
    · exact parse_inText_operand steady hxs hes opens operand t
  · rintro ⟨inside, next, rest, spells, enclosed⟩
    exact parse_inText_ne steady hxs spells enclosed operand

end

set_option maxRecDepth 4000 in
theorem parse_membership_booleans :
    let source : Source := ⟨"", .sequence .boolean, [], true⟩
    let among : Expr := .sequenceCall (.parameter 0 (.sequence .boolean)) .contains none
      (some (Expr.ofValue (.boolean true))) .boolean
    (source.parseText "(true) in $" .empty).1 = .ok among ∧
      (source.parseText "($).Contains(true)" .empty).1 = .ok among := by
  intro source among
  have parsed : (parse ⟨"(true) in $", .sequence .boolean, [], true⟩ .empty).1 = .ok among := rfl
  have item : (parse ⟨"true", .sequence .boolean, [], true⟩ .empty).1 =
      .ok (Expr.ofValue (.boolean true)) := rfl
  have operand : (parseAt ⟨"$", .sequence .boolean, [], true⟩ 4 .empty).1 =
      .ok (.parameter 0 (.sequence .boolean)) := rfl
  have dollar : Spells "$".toList [.sign .dollar] := .sign (fun _ => rfl) rfl rfl .nil
  have same := (parse_membership source .empty (x := "true") (e := "$") item (by decide) operand
    rfl).2.1 (not_closesEarly dollar nofun) among
  exact ⟨parsed, same.1 parsed⟩

set_option maxRecDepth 4000 in
/-- A sequence that starts with a parenthesis and goes on behind it contains items, but there is no
membership in it. -/
theorem parse_membership_where :
    let source : Source := ⟨"", .sequence .boolean, [], true⟩
    let filtered : Expr := .sequenceCall (.parameter 0 (.sequence .boolean)) .filter
      (some (.parameter 1 .boolean)) none (.sequence .boolean)
    (source.parseText "true" .empty).1 = .ok (Expr.ofValue (.boolean true)) ∧ IsPlain "true" ∧
      ((source.withText "($).Where($)").parseAt 4 .empty).1 = .ok filtered ∧
      (∀ t, (source.parseText "(true) in ($).Where($)" .empty).1 ≠ .ok t) ∧
      (source.parseText "(($).Where($)).Contains(true)" .empty).1 = .ok (.sequenceCall filtered
        .contains none (some (Expr.ofValue (.boolean true))) .boolean) := by
  intro source filtered
  have item : (parse ⟨"true", .sequence .boolean, [], true⟩ .empty).1 =
      .ok (Expr.ofValue (.boolean true)) := rfl
  have operand : (parseAt ⟨"($).Where($)", .sequence .boolean, [], true⟩ 4 .empty).1 =
      .ok filtered := rfl
  have call : (parse ⟨"(($).Where($)).Contains(true)", .sequence .boolean, [], true⟩ .empty).1 =
      .ok (.sequenceCall filtered .contains none (some (Expr.ofValue (.boolean true))) .boolean) :=
    rfl
  have fails : ∃ error, (parse ⟨"(true) in ($).Where($)", .sequence .boolean, [], true⟩
      .empty).1 = .error error := ⟨_, rfl⟩
  obtain ⟨error, failed⟩ := fails
  refine ⟨item, by decide, operand, fun t parsed => ?_, call⟩
  have differ := failed.symm.trans parsed
  cases differ

end Source

end TypedExpr
