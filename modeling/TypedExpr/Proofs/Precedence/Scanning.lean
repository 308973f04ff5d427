import TypedExpr.Token.Lexer

/-!
# Scanners and separators

A token ends at a space, a parenthesis or a comma: what a scanner finds in some characters, it finds
in the same characters with such a separator and more behind them.

* `Lexeme.Separates` — the characters that end every token in front of them.
* `Lexeme.symbolAt?_append`, `Lexeme.number_append`, … — the single scanners.
* **`Lexeme.scan_append`** — all of them.
-/

namespace TypedExpr.Lexeme

variable {c d : Char} {cs : List Char} {p : Char → Bool}

/-! ## Separators -/

/-- The character continues no token. -/
structure Separates (d : Char) : Prop where
  word : continuesWord d = false
  digit : d.isDigit = false
  hexDigit : isHexDigit d = false
  letter : d.isAlpha = false
  second : d ∉ ['=', '>', '<', '&', '|']
  inNumber : d ∉ ['.', '-', '+', 'e', 'E', 'x', 'X']
  quote : d ≠ '\x22' ∧ d ≠ '\x27'

theorem separates_space : Separates ' ' := ⟨rfl, rfl, rfl, rfl, by decide, by decide, by decide⟩

theorem separates_leftParen : Separates '(' :=
  ⟨rfl, rfl, rfl, rfl, by decide, by decide, by decide⟩

theorem separates_rightParen : Separates ')' :=
  ⟨rfl, rfl, rfl, rfl, by decide, by decide, by decide⟩

theorem separates_comma : Separates ',' := ⟨rfl, rfl, rfl, rfl, by decide, by decide, by decide⟩

/-! ## Characters of a class -/

/-- A character ends the characters of a class that it does not belong to. -/
theorem takeWhile_append_of_not (hp : p d = false) (cs r : List Char) :
    (cs ++ d :: r).takeWhile p = cs.takeWhile p := by
  rw [List.takeWhile_append]
  split
  next all =>
    have whole : cs.takeWhile p = cs := (List.takeWhile_prefix p).eq_of_length all
    rw [List.takeWhile_cons, hp, whole]
    exact List.append_nil cs
  next => rfl

theorem length_takeWhile_le (p : Char → Bool) (cs : List Char) :
    (cs.takeWhile p).length ≤ cs.length :=
  (List.takeWhile_prefix p).length_le

/-! ## Signs -/

/-- A separator is not the second character of a sign. -/
theorem ne_cons_of_append_ne {b : Char} (hb : d ≠ b) (h : ∀ tail, cs = b :: tail → False)
    (r : List Char) : ∀ tail, cs ++ d :: r = b :: tail → False := by
  intro tail he
  cases cs with
  | nil => exact hb (List.head_eq_of_cons_eq he)
  | cons d ds => exact h ds (by rw [(List.cons.inj he).1])

theorem symbolAt?_append (hd : Separates d) (c : Char) (cs r : List Char) :
    symbolAt? (c :: cs ++ d :: r) = symbolAt? (c :: cs) := by
  have behind {b : Char} {cs : List Char} (h : ∀ tail, cs = b :: tail → False)
      (hb : b ∈ ['=', '>', '<', '&', '|']) : ∀ tail, cs ++ d :: r = b :: tail → False :=
    ne_cons_of_append_ne (fun same => hd.second (by rw [same]; exact hb)) h r
  generalize hx : c :: cs = x
  fun_cases symbolAt? x
  -- the signs that could be longer by one character
  case case3 h₁ h₂ => exact symbolAt?.eq_3 _ (behind h₁ (by decide)) (behind h₂ (by decide))
  case case5 h => exact symbolAt?.eq_5 _ (behind h (by decide))
  case case9 h₁ h₂ h₃ =>
    exact symbolAt?.eq_9 _ (behind h₁ (by decide)) (behind h₂ (by decide)) (behind h₃ (by decide))
  case case12 h₁ h₂ => exact symbolAt?.eq_12 _ (behind h₁ (by decide)) (behind h₂ (by decide))
  case case14 h => exact symbolAt?.eq_14 _ (behind h (by decide))
  case case16 h => exact symbolAt?.eq_16 _ (behind h (by decide))
  -- no sign starts with the first character
  case case33 =>
    clear behind
    subst hx
    apply symbolAt?.eq_33
    all_goals
      intro tail he
      obtain ⟨rfl, -⟩ := List.cons.inj he
      solve_by_elim
  all_goals rfl

/-! ## Words and parameters -/

theorem word_append (hd : Separates d) (cs r : List Char) : word (cs ++ d :: r) = word cs := by
  unfold word
  rw [takeWhile_append_of_not hd.word]

theorem parameter_append (hd : Separates d) (cs r : List Char) :
    parameter (cs ++ d :: r) = parameter cs := by
  unfold parameter
  rw [takeWhile_append_of_not hd.digit]

/-! ## String literals -/

/-- A string literal that was closed stays as it is. -/
theorem quoted_append {quote : Char} (hq : d ≠ quote) (cs r : List Char)
    (closed : (quoted quote cs).closed = true) :
    quoted quote (cs ++ d :: r) = quoted quote cs := by
  fun_induction quoted quote cs with
  | case1 => cases closed
  | case2 ds ih =>
    simp only [List.cons_append, quoted, ↓reduceIte]
    rw [ih closed]
  | case3 d ds other => simp only [List.cons_append, quoted, ↓reduceIte, other]
  | case4 => simp only [List.cons_append, List.nil_append, quoted, ↓reduceIte, hq]
  | case5 => cases closed
  | case6 d ds e escape other ih =>
    simp only [List.cons_append, quoted, ↓reduceIte, other, escape]
    rw [ih closed]
  | case7 d ds escape other ih =>
    have ih := ih closed
    rw [List.cons_append] at ih
    rw [List.cons_append, List.cons_append, quoted]
    simp only [↓reduceIte, other, escape]
    rw [ih]
  | case8 d ds other plain ih =>
    rw [List.cons_append, quoted.eq_def]
    simp only [↓reduceIte, other, plain]
    rw [ih closed]

theorem string_append {quote : Char} (hq : d ≠ quote) (cs r : List Char)
    (read : ∀ cause, (string quote cs).1 ≠ .fault cause) :
    string quote (cs ++ d :: r) = string quote cs := by
  have closed : (quoted quote cs).closed = true := by
    cases h : (quoted quote cs).closed with
    | true => rfl
    | false => exact absurd (by simp [string, h]) (read .unterminatedString)
  unfold string
  rw [quoted_append hq cs r closed]

/-! ## Numbers -/

theorem fractionLength_append (hd : Separates d) (cs r : List Char) :
    fractionLength (cs ++ d :: r) = fractionLength cs := by
  have digits := takeWhile_append_of_not hd.digit
  cases h : cs with
  | nil =>
    refine fractionLength.eq_2 _ fun _ h => hd.inNumber ?_
    rw [(List.cons.inj h).1]
    decide
  | cons c ds =>
    by_cases point : c = '.'
    · simp only [point, List.cons_append, fractionLength, digits]
    · have none (es : List Char) : fractionLength (c :: es) = 0 :=
        fractionLength.eq_2 _ fun _ h => point (List.cons.inj h).1
      rw [List.cons_append, none, none]

theorem fractionLength_le (cs : List Char) : fractionLength cs ≤ cs.length := by
  unfold fractionLength
  split
  next cs =>
    have h := length_takeWhile_le Char.isDigit cs
    simp only [List.length_cons]
    split <;> omega
  next => exact Nat.zero_le _

theorem readSign_append (hd : Separates d) (cs r : List Char) :
    (readSign (cs ++ d :: r)).2 = (readSign cs).2 ++ d :: r := by
  fun_cases readSign cs
  case case3 minus plus =>
    rw [readSign.eq_3 (cs ++ d :: r)]
    · exact ne_cons_of_append_ne (fun h => hd.inNumber (by rw [h]; decide)) minus r
    · exact ne_cons_of_append_ne (fun h => hd.inNumber (by rw [h]; decide)) plus r
  all_goals rfl

theorem length_readSign_le (cs : List Char) : (readSign cs).2.length ≤ cs.length := by
  fun_cases readSign cs
  case case3 => exact Nat.le_refl _
  all_goals exact Nat.le_succ _

theorem exponentLength_append (hd : Separates d) (cs r : List Char) :
    exponentLength (cs ++ d :: r) = exponentLength cs := by
  cases cs with
  | nil =>
    refine if_neg fun letter => ?_
    rcases Bool.or_eq_true_iff.1 letter with h | h <;>
      exact hd.inNumber (by rw [of_decide_eq_true h]; decide)
  | cons c cs =>
    have h : cs.length + (r.length + 1) - ((readSign cs).2.length + (r.length + 1)) =
        cs.length - (readSign cs).2.length := by omega
    simp only [List.cons_append, exponentLength, readSign_append hd,
      takeWhile_append_of_not hd.digit,
      List.length_append, List.length_cons, h]

theorem exponentLength_le (cs : List Char) : exponentLength cs ≤ cs.length := by
  cases cs with
  | nil => exact Nat.le_refl _
  | cons c cs =>
    have h₁ := length_readSign_le cs
    have h₂ := length_takeWhile_le Char.isDigit (readSign cs).2
    simp only [exponentLength, List.length_cons]
    split
    · split <;> omega
    · exact Nat.zero_le _

theorem suffixed_append (hd : Separates d) {length : Nat} (hex real : Bool)
    (h : length ≤ cs.length) (r : List Char) :
    suffixed (cs ++ d :: r) hex real length = suffixed cs hex real length := by
  have total : length + ((cs.drop length).takeWhile Char.isAlpha).length ≤ cs.length := by
    have h' := length_takeWhile_le Char.isAlpha (cs.drop length)
    rw [List.length_drop] at h'
    omega
  simp only [suffixed, List.drop_append_of_le_length h,
    takeWhile_append_of_not hd.letter,
    List.take_append_of_le_length total]

theorem decimal_append (hd : Separates d) (cs r : List Char) :
    decimal (cs ++ d :: r) = decimal cs := by
  have whole := length_takeWhile_le Char.isDigit cs
  have fraction := fractionLength_le (cs.drop (cs.takeWhile Char.isDigit).length)
  rw [List.length_drop] at fraction
  have both : (cs.takeWhile Char.isDigit).length +
      fractionLength (cs.drop (cs.takeWhile Char.isDigit).length) ≤ cs.length := by omega
  have exponent := exponentLength_le (cs.drop ((cs.takeWhile Char.isDigit).length +
    fractionLength (cs.drop (cs.takeWhile Char.isDigit).length)))
  rw [List.length_drop] at exponent
  simp only [decimal, takeWhile_append_of_not hd.digit,
    List.drop_append_of_le_length whole, fractionLength_append hd,
    List.drop_append_of_le_length both, exponentLength_append hd]
  exact suffixed_append hd _ _ (by omega) r

theorem number_append (hd : Separates d) (c : Char) (cs r : List Char) :
    number (c :: cs ++ d :: r) = number (c :: cs) := by
  by_cases zero : c = '0'
  · subst zero
    cases cs with
    | nil =>
      have alone : number ['0'] = decimal ['0'] := number.eq_2 _ nofun
      have behind : number ('0' :: d :: r) = decimal ('0' :: d :: r) := by
        rw [number]
        refine if_neg fun letter => ?_
        rcases Bool.or_eq_true_iff.1 letter with h | h <;>
          exact hd.inNumber (by rw [of_decide_eq_true h]; decide)
      have read := decimal_append hd ['0'] r
      rw [List.cons_append, List.nil_append] at read ⊢
      rw [behind, alone, read]
    | cons x digits =>
      have read := decimal_append hd ('0' :: x :: digits) r
      have within : 2 + (digits.takeWhile isHexDigit).length ≤ ('0' :: x :: digits).length := by
        have h := length_takeWhile_le isHexDigit digits
        simp only [List.length_cons]
        omega
      have hex := suffixed_append hd true false within r
      rw [List.cons_append, List.cons_append] at read hex ⊢
      simp only [number, read, takeWhile_append_of_not hd.hexDigit, hex]
  · have other (ds : List Char) : number (c :: ds) = decimal (c :: ds) :=
      number.eq_2 _ fun x digits h => zero (List.cons.inj h).1
    rw [List.cons_append, other, other]
    exact decimal_append hd (c :: cs) r

/-! ## All lexemes -/

/-- **What is read in front of a separator does not depend on what is behind it.** -/
theorem scan_append (hd : Separates d) (c : Char) (cs r : List Char)
    (read : ∀ cause, (scan (c :: cs)).1 ≠ .fault cause) :
    scan (c :: cs ++ d :: r) = scan (c :: cs) := by
  have sign := symbolAt?_append hd c cs r
  have spelled := word_append hd (c :: cs) r
  have counted := number_append hd c cs r
  rw [List.cons_append] at sign spelled counted
  rw [List.cons_append]
  simp only [scan, sign, spelled, counted, parameter_append hd] at read ⊢
  split
  next => rfl
  next none =>
    simp only [none] at read
    split
    next => rfl
    next other =>
      rw [if_neg other] at read
      split
      next quote =>
        rw [if_pos quote] at read
        refine string_append ?_ cs r read
        rcases Bool.or_eq_true_iff.1 quote with h | h
        · exact of_decide_eq_true h ▸ hd.quote.1
        · exact of_decide_eq_true h ▸ hd.quote.2
      next => rfl

end TypedExpr.Lexeme
