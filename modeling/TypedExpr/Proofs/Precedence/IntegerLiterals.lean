import TypedExpr.Proofs.Lexing.Numerals
import TypedExpr.Proofs.Precedence.Parsing

/-!
# Integer literals

What a text is bound to that is a written integer, perhaps with a minus in front.  Nothing but the
end stands behind the integer, so every level of the grammar gives what the literal gives, or its
error.

* `Grammar.level_last` — what stands in front of the end goes through the levels.
* `Grammar.integerLiteral` — what a token is bound to that is an integer.
* **`Binding.negate_literal`** — the negative of a literal is exact.
* **`Source.parse_numeral`** — a written integer is bound to the integer, with or without a sign.
-/

namespace TypedExpr

variable {n : Nat} {s : IntegerSuffix} {cs : List Char}

namespace Binder

variable {format : GuidFormat} {c : BindContext} {st st' : BindState} {α β : Type} {b : Binder α}
  {r : Except CompileError α}

/-- Where the steps behind a rule do not change anything, what they give is what the rule gives, or
its error. -/
theorem bind_settles {f : α → Binder β} {g : α → Except CompileError β}
    (first : b c st = (r, st')) (steps : ∀ a, f a c st' = (g a, st')) :
    (b >>= f) c st = (r >>= g, st') := by
  rw [Binder.bind_apply, first]
  cases r with
  | ok a => exact steps a
  | error e => rfl

/-- Steps that do nothing can be left out. -/
theorem bind_stays {f : α → Binder α} (first : b c st = (r, st'))
    (steps : ∀ a, Runs c (f a) st' a st') : (b >>= f) c st = (r, st') := by
  have settled : r >>= Except.ok = r := bind_pure r
  rw [bind_settles first steps, settled]

end Binder

namespace Grammar

open Binder

variable {format : GuidFormat} {c : BindContext} {inner : Binder Expr} {st : BindState}
  {w : Workspace} {m t u : Token} {x : Except CompileError Expr}

/-! ## In front of the end -/

/-- In front of the end of the text, what a level gives, the next looser level gives. -/
theorem level_last (last : u.kind = .finish) {l : Nat} (hl : l ≤ 6)
    (h : level inner (l + 1) c st = (x, ⟨[u], w⟩)) : level inner l c st = (x, ⟨[u], w⟩) := by
  have ends : Ends l u.kind := last ▸ Follows.finish.ends
  match l with
  | 0 =>
    have current : Runs c current st (headToken st.tokens) st := rfl
    refine current.bind_eq.trans (bind_stays h fun e => (runs_isSymbol _).bind ?_)
    rw [last]
    exact .pure
  | l + 1 =>
    rw [level_eq inner (Nat.succ_pos l) hl]
    have passes := ends.passes (l + 1) (Nat.le_refl _)
    exact bind_stays h fun e => chain_ends (levelStep_ends passes e)

/-- In front of the end of the text, what signs and their operand give is the whole expression. -/
theorem whole_last (last : u.kind = .finish)
    (h : unary (expression c.tokenCount) c st = (x, ⟨[u], w⟩)) :
    whole c st = (x, ⟨[u], w⟩) := by
  have levels : ∀ k ≤ 7, level (expression c.tokenCount) (7 - k) c st = (x, ⟨[u], w⟩) := by
    intro k hk
    induction k with
    | zero => exact h
    | succ k ih =>
      have next : 7 - (k + 1) + 1 = 7 - k := by omega
      exact level_last last (by omega) (next ▸ ih (by omega))
  have any : anyExpression c st = (x, ⟨[u], w⟩) :=
    runs_tokenCount.bind_eq.trans (levels 7 (by omega))
  exact bind_stays any fun e => (runs_expectEnd last).bind .pure

/-! ## Literals -/

/-- What the token of an integer is bound to. -/
def integerLiteral (t : Token) : Except CompileError Expr :=
  match integerValue? t.text with
  | some v => .ok (.ofValue v)
  | none => .error (.lex ⟨.invalidNumber t.text, t.offset⟩)

/-- An integer in front of the end of the text is a primary. -/
theorem primary_integer (integer : t.kind = .integer) (last : u.kind = .finish) :
    primary inner c ⟨[t, u], w⟩ = (integerLiteral t, ⟨[u], w⟩) := by
  have start : primaryStart inner c ⟨[t, u], w⟩ = (integerLiteral t, ⟨[u], w⟩) := by
    refine runs_current.bind_eq.trans ?_
    rw [integer]
    refine runs_advance.bind_eq.trans ?_
    unfold integerLiteral
    cases integerValue? t.text <;> rfl
  have ends : Ends 0 u.kind := last ▸ Follows.finish.ends
  exact bind_stays start fun e => chain_ends (suffixStep_ends ends e)

theorem signStep_integer (integer : t.kind = .integer) (signs : List (UnaryOp × Nat)) :
    Runs c (signStep signs) ⟨[t, u], w⟩ none ⟨[t, u], w⟩ := by
  refine runs_current.bind ?_
  rw [integer]
  exact .pure

theorem unary_integer (integer : t.kind = .integer) (last : u.kind = .finish) :
    unary inner c ⟨[t, u], w⟩ = (integerLiteral t, ⟨[u], w⟩) := by
  have signs : Runs c (chain signStep []) ⟨[t, u], w⟩ [] ⟨[t, u], w⟩ :=
    chain_ends (signStep_integer integer [])
  exact signs.bind_eq.trans (bind_stays (primary_integer integer last) fun e => .pure)

/-- A minus in front of an integer. -/
theorem unary_negative (minus : m.kind = .symbol .minus) (integer : t.kind = .integer)
    (last : u.kind = .finish) (count : 0 < c.tokenCount) :
    unary inner c ⟨[m, t, u], w⟩ =
      (integerLiteral t >>= fun e => Binding.negate w.registry.schema e m.offset, ⟨[u], w⟩) := by
  have sign : Runs c (signStep []) ⟨[m, t, u], w⟩ (some [(.negate, m.offset)]) ⟨[t, u], w⟩ := by
    refine runs_current.bind ?_
    rw [minus]
    exact runs_advance.bind .pure
  have signs : Runs c (chain signStep []) ⟨[m, t, u], w⟩ [(.negate, m.offset)] ⟨[t, u], w⟩ := by
    refine runs_tokenCount.bind ?_
    obtain ⟨fuel, hf⟩ := Nat.exists_eq_succ_of_ne_zero (Nat.ne_of_gt count)
    rw [hf]
    exact (chainFrom_step fuel sign).trans (chainFrom_ends (signStep_integer integer _) fuel)
  refine signs.bind_eq.trans (bind_settles (primary_integer integer last) fun e => ?_)
  have bound : bound (Binding.negate · e m.offset) c ⟨[u], w⟩ =
      (Binding.negate w.registry.schema e m.offset, ⟨[u], w⟩) := rfl
  exact bind_stays bound fun e => .pure

theorem integerLiteral_numeral (h : IsNumeral n s cs) (small : n < 0x10000000000000000)
    (offset : Nat) : ∃ t, s.types.find? (fun t => (n : Int) ≤ t.max) = some t ∧
      integerLiteral ⟨.integer, String.ofList cs, offset⟩ =
        .ok (.literal (.int t (Word.wrap t n)) (.int t)) := by
  obtain ⟨t, first, value⟩ := integerValue?_numeral h small
  refine ⟨t, first, ?_⟩
  simp only [integerLiteral, value]
  rfl

theorem integerLiteral_large (h : IsNumeral n s cs) (large : 0x10000000000000000 ≤ n)
    (offset : Nat) : integerLiteral ⟨.integer, String.ofList cs, offset⟩ =
      .error (.lex ⟨.invalidNumber (String.ofList cs), offset⟩) := by
  have none : integerValue? (String.ofList cs) = none :=
    integerValue?_eq_none.2 ((integerNumber_numeral h).symm ▸ large)
  simp only [integerLiteral, none]

end Grammar

/-! ## Signs -/

/-- In the range, a natural number is a word as it is. -/
theorem Word.val_wrap_natCast {t : IntType} (h : (n : Int) ≤ t.max) : (wrap t n).val = n := by
  have least : t.min ≤ 0 := by cases t <;> decide
  exact IntType.reduce_of_mem (by omega) h

namespace IntegerSuffix

/-- The first type that holds a number without a suffix. -/
theorem first_cases {t : IntType}
    (first : none.types.find? (fun t => (n : Int) ≤ t.max) = some t) :
    (t = .int32 ∧ n ≤ 0x7FFFFFFF) ∨ (t = .uint32 ∧ 0x7FFFFFFF < n ∧ n ≤ 0xFFFFFFFF) ∨
      (t = .int64 ∧ 0xFFFFFFFF < n ∧ n ≤ 0x7FFFFFFFFFFFFFFF) ∨
      (t = .uint64 ∧ 0x7FFFFFFFFFFFFFFF < n) := by
  have number : IntType.max .int32 = 0x7FFFFFFF ∧ IntType.max .uint32 = 0xFFFFFFFF ∧
      IntType.max .int64 = 0x7FFFFFFFFFFFFFFF := ⟨rfl, rfl, rfl⟩
  by_cases h₁ : (n : Int) ≤ IntType.max .int32
  · obtain rfl : .int32 = t := by simpa [types, h₁] using first
    exact Or.inl ⟨rfl, by omega⟩
  by_cases h₂ : (n : Int) ≤ IntType.max .uint32
  · obtain rfl : .uint32 = t := by simpa [types, h₁, h₂] using first
    exact Or.inr (Or.inl ⟨rfl, by omega, by omega⟩)
  by_cases h₃ : (n : Int) ≤ IntType.max .int64
  · obtain rfl : .int64 = t := by simpa [types, h₁, h₂, h₃] using first
    exact Or.inr (Or.inr (Or.inl ⟨rfl, by omega, by omega⟩))
  · have holds : (n : Int) ≤ t.max := by simpa using List.find?_some first
    have among := List.mem_of_find?_eq_some first
    simp only [types, List.mem_cons, List.not_mem_nil, or_false] at among
    rcases among with rfl | rfl | rfl | rfl
    · exact absurd holds h₁
    · exact absurd holds h₂
    · exact absurd holds h₃
    · exact Or.inr (Or.inr (Or.inr ⟨rfl, by omega⟩))

/-- The type of a negative integer without a suffix. -/
def negativeType (k : Int) : IntType :=
  if IntType.min .int32 ≤ k then .int32 else .int64

end IntegerSuffix

namespace Binding

variable {format : GuidFormat} {t : IntType} {schema : Schema} {offset : Nat}

/-- A literal with a negative is replaced by it. -/
theorem negate_of_literal {v u : Value} {ty : Ty} (h : negateLiteral? v = some u) :
    negate schema (.literal v ty) offset = .ok (.ofValue u) := by
  simp only [negate, negatedLiteral?, h, Option.map_some]

/-- **The negative of a literal without a suffix** is exact, up to the least integer of 64 bits. -/
theorem negate_literal
    (first : IntegerSuffix.none.types.find? (fun t => (n : Int) ≤ t.max) = some t)
    (small : n ≤ 0x8000000000000000) :
    ∃ m : Word (IntegerSuffix.negativeType (-n)), m.val = -n ∧
      negate schema (.literal (.int t (Word.wrap t n)) (.int t)) offset =
        .ok (.literal (.int _ m) (.int (IntegerSuffix.negativeType (-n)))) := by
  have narrow (h : n ≤ 0x80000000) : IntegerSuffix.negativeType (-n) = .int32 :=
    if_pos (by simp only [IntType.min]; omega)
  have wide (h : 0x80000000 < n) : IntegerSuffix.negativeType (-n) = .int64 :=
    if_neg (by simp only [IntType.min]; omega)
  have exact32 (h : n ≤ 0x80000000) : (Word.wrap .int32 (-n)).val = -n :=
    IntType.reduce_of_mem (by simp only [IntType.min]; omega) (by simp only [IntType.max]; omega)
  have exact64 : (Word.wrap .int64 (-n)).val = -n :=
    IntType.reduce_of_mem (by simp only [IntType.min]; omega) (by simp only [IntType.max]; omega)
  have holds : (n : Int) ≤ t.max := by simpa using List.find?_some first
  have same := Word.val_wrap_natCast holds
  rcases IntegerSuffix.first_cases first with ⟨rfl, le⟩ | ⟨rfl, lt, le⟩ | ⟨rfl, lt, le⟩ | ⟨rfl, lt⟩
  · rw [narrow (by omega)]
    refine ⟨_, exact32 (by omega), negate_of_literal ?_⟩
    rw [negateLiteral?, Word.neg, same]
  · rcases Nat.lt_or_ge 0x80000000 n with h | h
    · rw [wide h]
      refine ⟨_, exact64, negate_of_literal ?_⟩
      rw [negateLiteral?, same, if_neg (by omega)]
    · obtain rfl : n = 0x80000000 := by omega
      rw [narrow h]
      refine ⟨_, exact32 h, negate_of_literal ?_⟩
      rw [negateLiteral?, same]
      rfl
  · rw [wide (by omega)]
    refine ⟨_, exact64, negate_of_literal ?_⟩
    rw [negateLiteral?, Word.neg, same]
  · obtain rfl : n = 0x8000000000000000 := by omega
    rw [wide (by omega)]
    exact ⟨_, exact64, negate_of_literal rfl⟩

/-- A literal that is greater has no negative. -/
theorem negate_literal_large
    (first : IntegerSuffix.none.types.find? (fun t => (n : Int) ≤ t.max) = some t)
    (large : 0x8000000000000000 < n) :
    negate schema (.literal (.int t (Word.wrap t n)) (.int t)) offset =
      .error (.ofCause (.incompatibleOperand "-" (.int .uint64)) offset) := by
  have holds : (n : Int) ≤ t.max := by simpa using List.find?_some first
  obtain rfl : t = .uint64 := by
    rcases IntegerSuffix.first_cases first with ⟨-, le⟩ | ⟨-, -, le⟩ | ⟨-, -, le⟩ | ⟨wide, -⟩
    · omega
    · omega
    · omega
    · exact wide
  have same := Word.val_wrap_natCast holds
  have refused : negateLiteral? (.int .uint64 (Word.wrap .uint64 n)) = none := by
    rw [negateLiteral?, same, if_neg (by omega)]
  simp only [negate, negatedLiteral?, refused, Option.map_none]
  rfl

end Binding

/-! ## Texts -/

namespace Source

section

variable {format : GuidFormat} {source : Source} {w : Workspace}

theorem parse_integer (h : IsNumeral n s cs) (text : source.text = String.ofList cs) :
    (source.parse w).1 = Grammar.integerLiteral ⟨.integer, String.ofList cs, 0⟩ := by
  have tokens := Lexer.tokens_numeral h
  rw [← text] at tokens
  rw [parse_eq tokens, Grammar.whole_last rfl (Grammar.unary_integer rfl rfl), text]

theorem parse_negative (h : IsNumeral n s cs) (text : source.text = String.ofList ('-' :: cs)) :
    (source.parse w).1 = (Grammar.integerLiteral ⟨.integer, String.ofList cs, 1⟩ >>= fun e =>
      Binding.negate w.registry.schema e 0) := by
  have tokens := Lexer.tokens_negative h
  rw [← text] at tokens
  rw [parse_eq tokens,
    Grammar.whole_last rfl (Grammar.unary_negative rfl rfl rfl (Nat.succ_pos 2))]

/-- The text of the source is bound to an integer of a type. -/
def BindsInteger (source : Source) (w : Workspace) (t : IntType) (k : Int) : Prop :=
  ∃ m : Word t, m.val = k ∧ (source.parse w).1 = .ok (.literal (.int t m) (.int t))

/-- **Integer literals denote what is written.**  A written number is one token.  It is bound to the
number in the first type that holds it among those of its suffix, and behind a minus to the exact
negative in the first signed type that holds it.  There is an error if the number has more than 64
bits, or if its negative has. -/
theorem parse_numeral (h : IsNumeral n s cs) (source : Source) (w : Workspace) :
    let text := String.ofList cs
    let plain : Source := { source with text := text }
    let negative : Source := { source with text := "-" ++ text }
    Lexer.tokenize text = .ok [⟨.integer, text, 0⟩, ⟨.finish, "", text.length⟩] ∧
      (n < 0x10000000000000000 → ∃ t, s.types.find? (fun t => (n : Int) ≤ t.max) = some t ∧
        plain.BindsInteger w t n) ∧
      (0x10000000000000000 ≤ n → (plain.parse w).1 = .error (.lex ⟨.invalidNumber text, 0⟩)) ∧
      (s = .none → n ≤ 0x8000000000000000 →
        negative.BindsInteger w (IntegerSuffix.negativeType (-n)) (-n)) ∧
      (s = .none → 0x8000000000000000 < n → n < 0x10000000000000000 →
        (negative.parse w).1 = .error (.ofCause (.incompatibleOperand "-" (.int .uint64)) 0)) ∧
      (0x10000000000000000 ≤ n →
        (negative.parse w).1 = .error (.lex ⟨.invalidNumber text, 1⟩)) := by
  intro text plain negative
  have signed : negative.text = String.ofList ('-' :: cs) := by
    simp [negative, text]
  have positive : (plain.parse w).1 = Grammar.integerLiteral ⟨.integer, text, 0⟩ :=
    parse_integer h rfl
  have below : (negative.parse w).1 = (Grammar.integerLiteral ⟨.integer, text, 1⟩ >>= fun e =>
      Binding.negate w.registry.schema e 0) := parse_negative h signed
  refine ⟨?_, ?_, ?_, ?_, ?_, ?_⟩
  · simp only [Lexer.tokenize, Lexer.tokens_numeral h, text, String.length_ofList]
  · intro small
    obtain ⟨t, first, literal⟩ := Grammar.integerLiteral_numeral h small 0
    have holds : (n : Int) ≤ t.max := by simpa using List.find?_some first
    exact ⟨t, first, Word.wrap t n, Word.val_wrap_natCast holds, positive.trans literal⟩
  · intro large
    exact positive.trans (Grammar.integerLiteral_large h large 0)
  · rintro rfl small
    obtain ⟨t, first, literal⟩ := Grammar.integerLiteral_numeral h (by omega) 1
    obtain ⟨m, same, negated⟩ := Binding.negate_literal first small
    refine ⟨m, same, below.trans ?_⟩
    rw [literal]
    exact negated
  · rintro rfl large small
    obtain ⟨t, first, literal⟩ := Grammar.integerLiteral_numeral h small 1
    rw [below, literal]
    exact Binding.negate_literal_large first large
  · intro large
    rw [below, Grammar.integerLiteral_large h large 1]
    rfl

end

/-- One past the greatest integer of 32 bits.  Alone it is unsigned, and behind a minus it is the
least integer of 32 bits. -/
theorem parse_numeral_least :
    let digits := ['0', '0', '8', '0', '0', '0', '0', '0', '0', '0']
    let text := String.ofList ('0' :: 'X' :: digits)
    let plain : Source := ⟨text, .boolean, [], true⟩
    let negative : Source := ⟨"-" ++ text, .boolean, [], true⟩
    IsNumeral 0x80000000 .none ('0' :: 'X' :: digits) ∧
      Lexer.tokenize text = .ok [⟨.integer, text, 0⟩, ⟨.finish, "", text.length⟩] ∧
      plain.BindsInteger .empty .uint32 0x80000000 ∧
      negative.BindsInteger .empty .int32 (-0x80000000) := by
  intro digits text plain negative
  have same : digits.map Char.toLower = padded 16 2 0x80000000 := by decide
  have written : IsNumeral 0x80000000 .none ('0' :: 'X' :: (digits ++ [])) :=
    .hexadecimal 2 (Or.inr rfl) same rfl
  rw [List.append_nil] at written
  obtain ⟨tokens, value, -, least, -⟩ := parse_numeral written plain .empty
  obtain ⟨t, first, binds⟩ := value (by decide)
  obtain rfl : .uint32 = t := Option.some.inj first
  exact ⟨written, tokens, binds, least rfl (by decide)⟩

end Source

end TypedExpr
