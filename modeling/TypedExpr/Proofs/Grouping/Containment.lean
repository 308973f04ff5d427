import TypedExpr.Proofs.Grouping.Operators
import TypedExpr.Proofs.Grouping.Transparency

/-!
# Calls of `Contains`

The text of a call of `Contains`, whose receiver and argument are texts in parentheses.  A text
that makes no records is the same expression wherever it is parsed, so that it does not matter
whether the receiver or the argument is written first.

* `Source.Steady` — a text is the same expression wherever the declarations are the same.
* `Source.steady_of_parseText` — a text that makes no records is, where it is parsed.
* `Source.Steady.covers` — such a text in parentheses.
* **`Source.parse_containsText`** — the text of a call.
-/

namespace TypedExpr.Source

variable {format : GuidFormat}

open Binder Grammar

variable {source : Source} {w v u : Workspace} {x e : String} {i s : Expr} {σ σx : List Shape}

/-- The expression of another text over the same elements. -/
abbrev parseText [GuidFormat] (source : Source) (text : String) : Outcome Expr :=
    (source.withText text).parse

/-- Something is computed if there is a result. -/
theorem fst_eq_ok {m : Outcome Expr} {t : Expr} : (m w).1 = .ok t ↔ ∃ v, m w = (.ok t, v) :=
  ⟨fun h => ⟨(m w).2, Prod.ext h rfl⟩, fun ⟨_, h⟩ => congrArg Prod.fst h⟩

/-! ## Texts that make no records -/

/-- Wherever the declarations are those of the workspace, the text is the expression, and makes no
records. -/
def Steady (source : Source) (x : String) (w : Workspace) (i : Expr) : Prop :=
  ∀ u, w.Akin u → ∃ v, u.Similar v ∧ source.parseText x u = (.ok i, v)

/-- A text that makes no records is steady where it is parsed. -/
theorem steady_of_parseText (plain : IsPlain x) (h : source.parseText x w = (.ok i, v)) :
    source.Steady x w i := by
  intro u akin
  have plain : IsPlain (source.withText x).text := plain
  obtain ⟨-, v', similar, parsed⟩ := parseAt_elsewhere (l := 0) plain akin h
  exact ⟨v', similar, parsed⟩

/-- A text that makes no records is parsed wherever the declarations are the same, or nowhere. -/
theorem steady_or_fails (plain : IsPlain x) (source : Source) (w : Workspace) :
    (∃ i, source.Steady x w i) ∨
      ∀ u, w.Akin u → ∃ error v, source.parseText x u = (.error error, v) := by
  rcases run : source.parseText x w with ⟨error | i, v⟩
  · refine Or.inr fun u akin => ?_
    rcases run' : source.parseText x u with ⟨error' | i, v'⟩
    · exact ⟨error', v', rfl⟩
    · obtain ⟨_, -, parsed⟩ := steady_of_parseText plain run' w akin.symm
      rw [run] at parsed
      cases parsed
  · exact Or.inl ⟨i, steady_of_parseText plain run⟩

/-- In parentheses, the text is the expression as well. -/
theorem Steady.covers (h : source.Steady x w i) (phrase : Phrase x σ) (akin : w.Akin v)
    {n d l : Nat} (hn : σ.length < n) (hd : σ.length < d) (hl : l ≤ 7) :
    Covers v (source.context n) (level (expression d) l) (Shape.wrap σ) (Ends l) (pure i) := by
  obtain ⟨v', similar, parsed⟩ := h v akin
  exact (parenthesized_covers (echoes_withText phrase hn hd v) hl).congr parsed rfl similar

/-! ## Calls -/

/-- The text `(e).Contains(x)`. -/
def containsText (e x : String) : String := "(" ++ e ++ ").Contains(" ++ x ++ ")"

theorem spells_containsText (he : Phrase e σ) (hx : Phrase x σx) :
    Spells (containsText e x).toList
      (Shape.wrap σ ++ .sign .dot :: ⟨.identifier, "Contains"⟩ :: Shape.wrap σx) := by
  have name : Spells "Contains".toList [⟨.identifier, "Contains"⟩] :=
    .token (n := 7) rfl rfl (by decide) rfl nofun .nil
  have argument := name.append Lexeme.separates_leftParen (hx.spells.wrap .nil)
  have dot := Spells.sign (c := '.') (s := .dot) (fun _ => rfl) rfl rfl argument
  simpa [containsText] using he.spells.wrap dot

/-- **The text of a call of `Contains`**, whose receiver is a sequence. -/
theorem parse_containsText (he : Phrase e σ) (hx : Phrase x σx)
    (parsed : source.parseText e w = (.ok s, v)) (sequence : s.ty.element?.isSome = true)
    (t : Expr) : (source.parseText (containsText e x) w).1 = .ok t ↔
      (contained (source.parseText e) (source.parseText x) w).1 = .ok t := by
  have sequences (s' : Expr) (v' : Workspace) (parsed' : source.parseText e w = (.ok s', v')) :
      s'.ty.element?.isSome = true := by
    rw [parsed] at parsed'
    cases parsed'
    exact sequence
  refine parse_of_covers (source.withText _) (spells_containsText he hx) ?_ (ends_of_isEnd rfl 0) t
  generalize count : (Shape.wrap σ ++ _ :: _ :: Shape.wrap σx : List Shape).length = n
  have size : n = σ.length + σx.length + 6 := by
    rw [← count]
    simp
    omega
  have call := contains_covers (w := w) (c := source.context (n + 1))
    (echoes_withText (d := n + 1) he (by omega) (by omega) w)
    (echoes_withText hx (by omega) (by omega)) sequences (Nat.succ_pos n)
  exact call.lower rfl (Nat.zero_le 7)

/-- Both parts of a call are parsed where the call stands, if the argument makes no records. -/
theorem Steady.contained_eq (h : source.Steady x w i)
    (parsed : source.parseText e w = (.ok s, u)) :
    (contained (source.parseText e) (source.parseText x) w).1 =
      Binding.contains w.registry.schema s i 0 := by
  have akin : w.Akin u := (exists_phrase (l := 0) parsed).2
  obtain ⟨v, similar, item⟩ := h u akin
  rw [contained, bind_of_ok parsed, bind_of_ok item, ← akin.schema, ← similar.schema]
  rfl

end TypedExpr.Source
