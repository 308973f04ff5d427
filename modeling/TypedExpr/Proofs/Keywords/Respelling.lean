import TypedExpr.Proofs.Grouping.Spelling
import TypedExpr.Proofs.Keywords.Abbreviation

/-!
# Texts with signs for their context keywords

The characters that a token takes are read as this token wherever they stand in front of a
separator.  So a text can be written anew, token by token, with a sign in place of each context
keyword.

* `Lexeme.decimal_take`, `Lexeme.quoted_take`, … — the single scanners.
* **`Lexeme.scan_take`** — a token is found in the characters that it takes.
* `Lexer.Yields` — a text has the tokens, wherever they stand.
* **`Lexer.exists_yields_abbreviate`** — the tokens of a text with signs are those of a text.
-/

namespace TypedExpr

/-! ## Characters that a token takes -/

namespace Lexeme

variable {p : Char → Bool} {cs : List Char} {n : Nat}

theorem takeWhile_take (h : (cs.takeWhile p).length ≤ n) :
    (cs.take n).takeWhile p = cs.takeWhile p := by
  induction cs generalizing n with
  | nil => rw [List.take_nil]
  | cons c cs ih =>
    cases hc : p c with
    | false =>
      cases n with
      | zero => simp [hc]
      | succ n => simp [hc]
    | true =>
      rw [List.takeWhile_cons, if_pos hc, List.length_cons] at h
      obtain ⟨n, rfl⟩ : ∃ m, n = m + 1 := ⟨n - 1, by omega⟩
      rw [List.take_succ_cons, List.takeWhile_cons, List.takeWhile_cons, if_pos hc, if_pos hc,
        ih (Nat.le_of_succ_le_succ h)]

theorem symbolAt?_take {s : Symbol} (h : symbolAt? cs = some s) :
    symbolAt? (cs.take s.text.length) = some s := by
  revert h
  fun_cases symbolAt? cs
  case case33 => rintro ⟨⟩
  all_goals
    rintro ⟨⟩
    rfl

/-- Whether a sign starts with a character does not depend on what is behind it. -/
theorem symbolAt?_eq_none {c : Char} (h : symbolAt? (c :: cs) = none) (r : List Char) :
    symbolAt? (c :: r) = none := by
  generalize hx : c :: cs = x at h
  revert h
  fun_cases symbolAt? x
  case case33 =>
    intro
    subst hx
    apply symbolAt?.eq_33
    all_goals
      intro tail he
      obtain ⟨rfl, -⟩ := List.cons.inj he
      solve_by_elim
  all_goals rintro ⟨⟩

theorem word_take : word (cs.take (word cs).2) = word cs := by
  have same : (cs.take (cs.takeWhile continuesWord).length).takeWhile continuesWord =
    cs.takeWhile continuesWord := takeWhile_take (Nat.le_refl _)
  show word (cs.take (cs.takeWhile continuesWord).length) = word cs
  unfold word
  rw [same]

theorem parameter_take (h : (cs.takeWhile Char.isDigit).length ≤ n) :
    parameter (cs.take n) = parameter cs := by
  unfold parameter
  rw [takeWhile_take h]

/-- The closing quote is taken. -/
theorem length_quoted_pos {quote : Char} (closed : (quoted quote cs).closed = true) :
    0 < (quoted quote cs).length := by
  revert closed
  fun_cases quoted quote cs
  case case1 => rintro ⟨⟩
  case case5 => rintro ⟨⟩
  all_goals
    intro
    simp only [Quoted.cons]
    omega

theorem quoted_take {quote : Char} (closed : (quoted quote cs).closed = true) :
    quoted quote (cs.take (quoted quote cs).length) = quoted quote cs := by
  fun_induction quoted quote cs with
  | case1 => cases closed
  | case2 ds ih =>
    have ih := ih closed
    simp only [Quoted.cons, Nat.add_comm 2, List.take_succ_cons, quoted, ↓reduceIte, ih]
  | case3 d ds other => simp [quoted]
  | case4 => simp [quoted]
  | case5 => cases closed
  | case6 d ds e escape other ih =>
    have ih := ih closed
    simp only [Quoted.cons, Nat.add_comm 2, List.take_succ_cons, quoted, ↓reduceIte, other, escape,
      ih]
  | case7 d ds escape other ih =>
    have ih := ih closed
    obtain ⟨k, length⟩ := Nat.exists_eq_add_of_lt (length_quoted_pos closed)
    rw [Nat.zero_add] at length
    simp only [Quoted.cons, Nat.add_comm 1, length, List.take_succ_cons] at ih ⊢
    rw [quoted]
    simp only [↓reduceIte, other, escape, ih, Quoted.cons, length, Nat.add_comm 1]
  | case8 d ds other plain ih =>
    have ih := ih closed
    simp only [Quoted.cons, Nat.add_comm 1, List.take_succ_cons]
    rw [quoted.eq_def]
    simp only [↓reduceIte, other, plain, ih, Quoted.cons, Nat.add_comm 1]

theorem fractionLength_take (h : fractionLength cs ≤ n) :
    fractionLength (cs.take n) = fractionLength cs := by
  cases cs with
  | nil => rw [List.take_nil]
  | cons c cs =>
    cases n with
    | zero => rw [List.take_zero, Nat.le_zero.1 h]; rfl
    | succ n =>
      rw [List.take_succ_cons]
      by_cases point : c = '.'
      · subst point
        simp only [fractionLength] at h ⊢
        have le : (cs.takeWhile Char.isDigit).length ≤ n := by
          split at h
          next none => simp [List.isEmpty_iff.1 none]
          next => omega
        rw [takeWhile_take le]
      · have none (es : List Char) : fractionLength (c :: es) = 0 :=
          fractionLength.eq_2 _ fun _ h => point (List.cons.inj h).1
        rw [none, none]

theorem readSign_take (cs : List Char) (n : Nat) : (readSign (cs.take n)).2 =
    (readSign cs).2.take (n - (cs.length - (readSign cs).2.length)) := by
  fun_cases readSign cs
  case case1 cs => cases n <;> simp [readSign]
  case case2 cs => cases n <;> simp [readSign]
  case case3 minus plus =>
    cases cs with
    | nil => simp [readSign]
    | cons c cs =>
      cases n with
      | zero => simp [readSign]
      | succ n =>
        rw [List.take_succ_cons, readSign.eq_3 (c :: cs.take n)]
        · simp
        · rintro tail same
          obtain ⟨rfl, -⟩ := List.cons.inj same
          exact minus cs rfl
        · rintro tail same
          obtain ⟨rfl, -⟩ := List.cons.inj same
          exact plus cs rfl

theorem exponentLength_take (h : exponentLength cs ≤ n) :
    exponentLength (cs.take n) = exponentLength cs := by
  cases cs with
  | nil => rw [List.take_nil]
  | cons c cs =>
    cases n with
    | zero => rw [List.take_zero, Nat.le_zero.1 h]; rfl
    | succ n =>
      rw [List.take_succ_cons]
      simp only [exponentLength] at h ⊢
      split
      next letter =>
        rw [if_pos letter] at h
        have sign := length_readSign_le cs
        have le : ((readSign cs).2.takeWhile Char.isDigit).length ≤
            n - (cs.length - (readSign cs).2.length) := by
          split at h <;> omega
        rw [readSign_take, takeWhile_take le, List.length_take, List.length_take]
        split at h
        next none => rw [if_pos none, if_pos none]
        next some =>
          have digits := length_takeWhile_le Char.isDigit (readSign cs).2
          rw [if_neg some, if_neg some]
          omega
      next => rfl

theorem suffixed_snd (cs : List Char) (hex real : Bool) (length : Nat) :
    (suffixed cs hex real length).2 =
      length + ((cs.drop length).takeWhile Char.isAlpha).length := by
  unfold suffixed
  simp only
  split <;> rfl

theorem suffixed_take (cs : List Char) (hex real : Bool) (length : Nat) :
    suffixed (cs.take (suffixed cs hex real length).2) hex real length =
      suffixed cs hex real length := by
  rw [suffixed_snd]
  unfold suffixed
  simp only [List.drop_take, Nat.add_sub_cancel_left, takeWhile_take (Nat.le_refl _),
    List.take_take, Nat.min_self]

/-- A number is found in the characters that it takes. -/
theorem decimal_take (cs : List Char) : decimal (cs.take (decimal cs).2) = decimal cs := by
  have whole := length_takeWhile_le Char.isDigit cs
  generalize taken : (decimal cs).2 = n
  simp only [decimal, suffixed_snd] at taken
  have digits : (cs.take n).takeWhile Char.isDigit = cs.takeWhile Char.isDigit :=
    takeWhile_take (by omega)
  have fraction : fractionLength ((cs.take n).drop (cs.takeWhile Char.isDigit).length) =
      fractionLength (cs.drop (cs.takeWhile Char.isDigit).length) := by
    rw [List.drop_take]
    exact fractionLength_take (by omega)
  have exponent : exponentLength ((cs.take n).drop ((cs.takeWhile Char.isDigit).length +
        fractionLength (cs.drop (cs.takeWhile Char.isDigit).length))) =
      exponentLength (cs.drop ((cs.takeWhile Char.isDigit).length +
        fractionLength (cs.drop (cs.takeWhile Char.isDigit).length))) := by
    rw [List.drop_take]
    exact exponentLength_take (by omega)
  simp only [decimal, digits, fraction, exponent]
  rw [← taken, ← suffixed_snd]
  exact suffixed_take _ _ _ _

theorem number_eq_decimal (h : ∀ x digits, cs = '0' :: x :: digits → ¬ (x = 'x' ∨ x = 'X')) :
    number cs = decimal cs := by
  unfold number
  split
  next x digits =>
    refine if_neg fun letter => h x digits rfl ?_
    exact (Bool.or_eq_true_iff.1 letter).imp of_decide_eq_true of_decide_eq_true
  next => rfl

theorem number_take (read : ∀ cause, (number cs).1 ≠ .fault cause) :
    number (cs.take (number cs).2) = number cs := by
  by_cases hex : ∃ x digits, cs = '0' :: x :: digits ∧ (x = 'x' ∨ x = 'X')
  · obtain ⟨x, digits, rfl, letter⟩ := hex
    have letter : (decide (x = 'x') || decide (x = 'X')) = true := by simpa using letter
    simp only [number, letter, if_true] at read ⊢
    split at read
    next => exact absurd rfl (read _)
    next some =>
      have again := suffixed_take ('0' :: x :: digits) true false
        (2 + (digits.takeWhile isHexDigit).length)
      obtain ⟨m, total, le⟩ : ∃ m, (suffixed ('0' :: x :: digits) true false
          (2 + (digits.takeWhile isHexDigit).length)).2 = m + 2 ∧
          (digits.takeWhile isHexDigit).length ≤ m := by
        rw [suffixed_snd]
        exact ⟨_, by rw [Nat.add_comm 2, Nat.add_right_comm], Nat.le_add_right _ _⟩
      rw [if_neg some]
      rw [total, List.take_succ_cons, List.take_succ_cons] at again ⊢
      simp only [letter, if_true, takeWhile_take le, if_neg some]
      exact again
  · have plain {n : Nat} : number (cs.take n) = decimal (cs.take n) := by
      refine number_eq_decimal fun x digits front letter => hex ⟨x, digits ++ cs.drop n, ?_, letter⟩
      rw [← List.cons_append, ← List.cons_append, ← front, List.take_append_drop]
    have own : number cs = decimal cs :=
      number_eq_decimal fun x digits same letter => hex ⟨x, digits, same, letter⟩
    rw [plain, own]
    exact decimal_take cs

theorem string_snd (quote : Char) (cs : List Char) :
    (string quote cs).2 = 1 + (quoted quote cs).length := by
  unfold string
  simp only
  split <;> rfl

theorem string_take {quote : Char} (read : ∀ cause, (string quote cs).1 ≠ .fault cause) :
    string quote (cs.take (quoted quote cs).length) = string quote cs := by
  have closed : (quoted quote cs).closed = true := by
    cases h : (quoted quote cs).closed with
    | true => rfl
    | false => exact absurd (by simp [string, h]) (read .unterminatedString)
  unfold string
  rw [quoted_take closed]

/-- **A token is found in the characters that it takes.** -/
theorem scan_take {c : Char} {lexeme : Lexeme} (h : scan (c :: cs) = (lexeme, n + 1))
    (read : ∀ cause, lexeme ≠ .fault cause) : scan (c :: cs.take n) = (lexeme, n + 1) := by
  have taken : (scan (c :: cs)).2 = n + 1 := congrArg Prod.snd h
  have found : ∀ cause, (scan (c :: cs)).1 ≠ .fault cause := by rwa [h]
  rw [← h]
  clear h read
  simp only [scan] at taken found ⊢
  cases sign : symbolAt? (c :: cs) with
  | some s =>
    have front := symbolAt?_take sign
    rw [sign] at taken
    rw [show s.text.length = n + 1 from taken, List.take_succ_cons] at front
    rw [front]
  | none =>
    rw [sign] at taken found
    rw [symbolAt?_eq_none sign]
    simp only at taken found ⊢
    by_cases at' : c = '@'
    · simp only [if_pos at'] at taken ⊢
      refine parameter_take ?_
      change 1 + _ = n + 1 at taken
      omega
    simp only [if_neg at'] at taken found ⊢
    split
    next quote =>
      simp only [if_pos quote, string_snd] at taken found
      obtain rfl : (quoted c cs).length = n := by omega
      exact string_take found
    next noQuote =>
      simp only [if_neg noQuote] at taken found
      split
      next starts =>
        have front : word ((c :: cs).take (word (c :: cs)).2) = word (c :: cs) := word_take
        rw [if_pos starts] at taken
        rwa [taken, List.take_succ_cons] at front
      next noWord =>
        simp only [if_neg noWord] at taken found
        split
        next digit =>
          simp only [if_pos digit] at taken found
          have front := number_take found
          rwa [taken, List.take_succ_cons] at front
        next => rfl

end Lexeme

/-! ## Tokens of texts -/

namespace Lexer

/-- The end of a text takes no characters. -/
theorem text_of_finish {l l' : Lexer} {t : Token} (h : next l = (.ok t, l'))
    (last : t.kind = .finish) : t.text = "" := by
  unfold next at h
  simp only at h
  cases rest : l.skipBlanks.rest with
  | nil =>
    rw [rest] at h
    cases h
    rfl
  | cons c cs =>
    have takes := Lexeme.scan_takes c cs
    rw [rest] at h
    generalize Lexeme.scan (c :: cs) = r at h takes
    obtain ⟨lexeme, n⟩ := r
    cases lexeme with
    | plain kind =>
      cases h
      exact absurd last (takes _ rfl).1
    | literal content =>
      cases h
      cases last
    | fault cause => cases h

theorem text_of_finish_mem (fuel : Nat) (l : Lexer) :
    ∀ t ∈ (run fuel l).1, t.kind = .finish → t.text = "" := by
  induction fuel generalizing l with
  | zero => exact List.forall_mem_nil _
  | succ fuel ih =>
    rw [run]
    rcases read : next l with ⟨_ | u, l'⟩
    · exact List.forall_mem_nil _
    · simp only
      split
      next => exact List.forall_mem_singleton.2 (text_of_finish read)
      next => exact List.forall_mem_cons.2 ⟨text_of_finish read, ih l'⟩

/-- Behind the tokens of a text, its end has one shape. -/
theorem shape_of_finish {text : String} {ts : List Token} {t : Token}
    (h : tokens text = (ts ++ [t], none)) (last : t.kind = .finish) : t.shape = ⟨.finish, ""⟩ := by
  have among : t ∈ (tokens text).1 := by
    rw [h]
    exact List.mem_append_right _ List.mem_cons_self
  rw [Token.shape, last, text_of_finish_mem _ _ t among last]

/-- The text has these tokens, wherever they stand. -/
def Yields (text : String) (ts : List Token) : Prop :=
  ∃ us, tokens text = (us, none) ∧ us.map Token.shape = ts.map Token.shape

end Lexer

/-! ## Signs in place of keywords -/

theorem Spells.alone {c : Char} {cs : List Char} {n : Nat} {lexeme : Lexeme} {s : Shape}
    (starts : Text.isBlank c = false) (scan : Lexeme.scan (c :: cs) = (lexeme, n + 1))
    (le : n ≤ cs.length) (read : lexeme.shape? (String.ofList (c :: cs.take n)) = some s)
    (proper : s.kind ≠ .finish) : Spells (c :: cs.take n) [s] := by
  have length : (cs.take n).length = n := by rw [List.length_take, Nat.min_eq_left le]
  refine .token starts (Lexeme.scan_take scan ?_) (Nat.le_of_eq length.symm) ?_ proper ?_
  · rintro cause rfl
    cases read
  · rwa [List.take_take, Nat.min_self]
  · rw [List.drop_eq_nil_of_le (Nat.le_of_eq length)]
    exact .nil

/-- A context keyword can be written as its sign. -/
theorem Token.spells_abbreviated {t : Token} {cs : List Char} {ss : List Shape}
    (keep : ∃ cs', Spells cs' (t.shape :: ss)) (h : Spells cs ss) :
    ∃ cs', Spells cs' (t.abbreviated.shape :: ss) := by
  unfold abbreviated
  split
  next s sign =>
    rcases List.mem_cons.1 (contextSign?_mem sign) with rfl | other
    · exact ⟨'$' :: cs, .sign (fun _ => rfl) rfl rfl h⟩
    rcases List.mem_cons.1 other with rfl | other
    · exact ⟨'^' :: cs, .sign (fun _ => rfl) rfl rfl h⟩
    obtain rfl := List.mem_singleton.1 other
    exact ⟨'~' :: cs, .sign (fun _ => rfl) rfl rfl h⟩
  next => exact keep

/-- Tokens that are written somewhere can be written with signs. -/
theorem Spells.exists_abbreviate {cs : List Char} {ss : List Shape} (h : Spells cs ss) :
    ∀ (named : Bool) (body : List Token), body.map Token.shape = ss →
      ∃ cs', Spells cs' ((abbreviate named body).map Token.shape) := by
  induction h with
  | nil =>
    intro named body shapes
    obtain rfl := List.map_eq_nil_iff.1 shapes
    exact ⟨[], .nil⟩
  | blank _ _ ih => exact ih
  | token starts scan le read proper _ ih =>
    intro named body shapes
    obtain ⟨t, body, rfl, rfl, rest⟩ := List.map_eq_cons_iff.1 shapes
    obtain ⟨cs', behind⟩ := ih t.kind.namesMember body rest
    have keep := (alone starts scan le read proper).append Lexeme.separates_space behind.space
    rw [abbreviate, List.map_cons]
    split
    · exact ⟨_, keep⟩
    · exact Token.spells_abbreviated ⟨_, keep⟩ behind

/-- **The tokens of a text with signs for the context keywords are the tokens of a text.** -/
theorem Lexer.exists_yields_abbreviate {text : String} {ts : List Token}
    (h : tokens text = (ts, none)) : ∃ text', Yields text' (abbreviate false ts) := by
  obtain ⟨body, finish, read, last, spells⟩ | ⟨_, _, read, -⟩ := tokens_cases text
  case inr =>
    rw [read] at h
    cases h
  obtain rfl : ts = body ++ [finish] := (Prod.mk.inj (h.symm.trans read)).1
  obtain ⟨cs, written⟩ := spells.exists_abbreviate false body rfl
  obtain ⟨us, finish', read', shapes, last'⟩ :=
    tokens_of_spells (show Spells (String.ofList cs).toList _ by rwa [String.toList_ofList])
  refine ⟨String.ofList cs, us ++ [finish'], read', ?_⟩
  rw [abbreviate_append_finish last, List.map_append, List.map_append, shapes, List.map_singleton,
    List.map_singleton, shape_of_finish read last, shape_of_finish read' last']

end TypedExpr
