import TypedExpr.Grammar

/-!
# Signs for the context keywords

The identifiers `it`, `parent` and `root` written as the signs that stand for the same frames.  The
name of a member stays as it is, and so does the name of a lambda.

* `contextSigns` — the keywords and the signs.
* `Token.contextSign?`, `Token.abbreviated` — one token.
* `abbreviate` — some tokens, one after the other.
* `Blocked` — a place that an expression never reaches behind an operand.
-/

namespace TypedExpr

open Binder

namespace TokenKind

/-- Whether what stands behind a token of the kind is the name of a member. -/
def namesMember : TokenKind → Bool
  | .symbol .dot | .keyword .asName => true
  | _ => false

/-- Kinds that are told apart in the same way, whether or not context keywords are written as
signs. -/
def isSteady : TokenKind → Bool
  | .identifier | .symbol .arrow | .symbol .dollar | .symbol .caret | .symbol .tilde => false
  | _ => true

end TokenKind

/-- The context keywords and the signs for them. -/
def contextSigns : List (String × Symbol) :=
  [("it", .dollar), ("parent", .caret), ("root", .tilde)]

namespace Token

/-- The sign for a context keyword. -/
def contextSign? (t : Token) : Option Symbol :=
  (contextSigns.find? fun k => t.isWord k.1).map Prod.snd

/-- The token, written as a sign if it is a context keyword. -/
def abbreviated (t : Token) : Token :=
  match t.contextSign? with
  | some s => ⟨.symbol s, s.text, t.offset⟩
  | none => t

theorem contextSign?_cases {t : Token} {s : Symbol} (h : t.contextSign? = some s) :
    t.kind = .identifier ∧
      ∃ word, (word, s) ∈ contextSigns ∧ Text.eqIgnoreCase t.text word = true := by
  obtain ⟨⟨word, _⟩, found, rfl⟩ := Option.map_eq_some_iff.1 h
  have spelled := List.find?_some found
  obtain ⟨kind, same⟩ := Bool.and_eq_true_iff.1 spelled
  exact ⟨beq_iff_eq.1 kind, word, List.mem_of_find?_eq_some found, same⟩

theorem contextSign?_mem {t : Token} {s : Symbol} (h : t.contextSign? = some s) :
    s ∈ [Symbol.dollar, .caret, .tilde] := by
  obtain ⟨-, word, known, -⟩ := contextSign?_cases h
  exact List.mem_map_of_mem (f := Prod.snd) known

theorem kind_of_contextSign? {t : Token} (h : t.contextSign?.isSome = true) :
    t.kind = .identifier := by
  obtain ⟨s, sign⟩ := Option.isSome_iff_exists.1 h
  exact (contextSign?_cases sign).1

theorem contextSign?_of_kind {t : Token} (h : t.kind ≠ .identifier) : t.contextSign? = none :=
  Option.not_isSome_iff_eq_none.1 fun sign => h (kind_of_contextSign? sign)

theorem abbreviated_of_none {t : Token} (h : t.contextSign? = none) : t.abbreviated = t := by
  rw [abbreviated, h]

@[simp] theorem abbreviated_offset (t : Token) : t.abbreviated.offset = t.offset := by
  unfold abbreviated
  split <;> rfl

/-- A kind that neither context keywords nor their signs have is the kind of the token as written
exactly if it is the kind of the token. -/
theorem abbreviated_kind_iff {κ : TokenKind} (h : κ.isSteady = true ∨ κ = .symbol .arrow)
    (t : Token) : t.abbreviated.kind = κ ↔ t.kind = κ := by
  unfold abbreviated
  split
  next s sign =>
    have signs : ∀ s ∈ [Symbol.dollar, .caret, .tilde],
        (TokenKind.symbol s).isSteady = false ∧ s ≠ .arrow := by decide
    obtain ⟨unsteady, noArrow⟩ := signs s (contextSign?_mem sign)
    rw [(contextSign?_cases sign).1]
    constructor
    · rintro rfl
      rcases h with steady | arrow
      · rw [unsteady] at steady
        cases steady
      · exact absurd (TokenKind.symbol.inj arrow) noArrow
    · rintro rfl
      rcases h with h | h <;> cases h
  next => exact Iff.rfl

end Token

/-! ## Some tokens -/

/-- The tokens with signs for the context keywords, except for names of members and of lambdas.
`named` says whether the first one names a member. -/
def abbreviate (named : Bool) : List Token → List Token
  | [] => []
  | t :: rest =>
    (if named || (headToken rest).isSymbol .arrow then t else t.abbreviated) ::
      abbreviate t.kind.namesMember rest

section Lists

variable {t : Token} {named : Bool} {ts rest : List Token}

@[simp] theorem length_abbreviate : ∀ (named : Bool) (ts : List Token),
    (abbreviate named ts).length = ts.length
  | _, [] => rfl
  | named, t :: rest => by
    rw [abbreviate, List.length_cons, List.length_cons, length_abbreviate]

/-- The name of a member stays. -/
theorem headToken_abbreviate_named (ts : List Token) :
    headToken (abbreviate true ts) = headToken ts := by
  cases ts <;> rfl

/-- The first token stays, or is a context keyword that is written as a sign. -/
theorem headToken_abbreviate (named : Bool) (ts : List Token) :
    headToken (abbreviate named ts) = headToken ts ∨
      headToken (abbreviate named ts) = (headToken ts).abbreviated := by
  cases ts with
  | nil => exact Or.inl rfl
  | cons t rest =>
    rw [abbreviate]
    split
    · exact Or.inl rfl
    · exact Or.inr rfl

theorem headToken_abbreviate_of_none (h : (headToken ts).contextSign? = none) :
    headToken (abbreviate named ts) = headToken ts := by
  rcases headToken_abbreviate named ts with same | sign
  · exact same
  · rw [sign, Token.abbreviated_of_none h]

theorem offset_headToken_abbreviate (named : Bool) (ts : List Token) :
    (headToken (abbreviate named ts)).offset = (headToken ts).offset := by
  rcases headToken_abbreviate named ts with h | h <;> rw [h]
  exact Token.abbreviated_offset _

theorem kind_headToken_abbreviate_iff {κ : TokenKind}
    (h : κ.isSteady = true ∨ κ = .symbol .arrow) (named : Bool) (ts : List Token) :
    (headToken (abbreviate named ts)).kind = κ ↔ (headToken ts).kind = κ := by
  rcases headToken_abbreviate named ts with same | sign
  · rw [same]
  · rw [sign]
    exact Token.abbreviated_kind_iff h _

/-- The end of the text stays. -/
theorem abbreviate_append_finish {finish : Token} (last : finish.kind = .finish)
    (body : List Token) : ∀ named,
    abbreviate named (body ++ [finish]) = abbreviate named body ++ [finish] := by
  have kept : finish.abbreviated = finish :=
    Token.abbreviated_of_none (Token.contextSign?_of_kind (by rw [last]; exact nofun))
  induction body with
  | nil =>
    intro named
    simp only [List.nil_append, abbreviate, kept, ite_self]
  | cons t rest ih =>
    intro named
    have next : (headToken (rest ++ [finish])).isSymbol .arrow =
        (headToken rest).isSymbol .arrow := by
      cases rest with
      | nil => simp [headToken, Token.isSymbol, last]
      | cons u rest => rfl
    rw [List.cons_append, abbreviate, abbreviate, next, ih, List.cons_append]

end Lists

/-! ## Behind an operand -/

/-- The token stands behind no operand of an expression: an arrow, or a context keyword. -/
def Token.Blocks (t : Token) : Prop := t.kind = .symbol .arrow ∨ t.contextSign?.isSome = true

/-- If `may` says so, what comes next stands behind no operand of an expression. -/
def Blocked (may : Bool) (ts : List Token) : Prop := may = true ∧ (headToken ts).Blocks

theorem Token.Blocks.kind {t : Token} (h : t.Blocks) :
    t.kind = .symbol .arrow ∨ t.kind = .identifier :=
  h.imp_right kind_of_contextSign?

theorem Token.Blocks.not_steady {t : Token} (h : t.Blocks) : t.kind.isSteady = false := by
  rcases h.kind with h | h <;> rw [h] <;> rfl

theorem Blocked.not_steady {may : Bool} {ts : List Token} (h : Blocked may ts) :
    (headToken ts).kind.isSteady = false := h.2.not_steady

theorem not_blocked_false {ts : List Token} : ¬ Blocked false ts := fun h => Bool.false_ne_true h.1

end TypedExpr
