import Mathlib.Data.List.Forall2
import TypedExpr.Proofs.Precedence.Pieces

/-!
# Texts put together

The tokens of a text that is made of other texts.  How a text is read does not depend on where it
stands, nor on what is behind a separator, so the tokens of the parts are those of the whole.

* `Lexeme.Takes` — a scanner that finds a token takes some of the characters for it.
* `Spells` — the characters are read as tokens of these shapes, up to their end.
* **`Spells.append`** — texts with a separator between them.
* **`Lexer.tokens_cases`** — a text spells its tokens, or a fault lies behind them.
-/

namespace TypedExpr

/-! ## What scanners take -/

namespace Lexeme

/-- If there is a token, it is not the end of the text, and takes at least one character, but no
more than there are; a sign is spelled in its own way. -/
def Takes (cs : List Char) (r : Lexeme × Nat) : Prop :=
  ∀ shape, r.1.shape? (String.ofList (cs.take r.2)) = some shape →
    shape.kind ≠ .finish ∧ 0 < r.2 ∧ r.2 ≤ cs.length ∧
      ∀ s, shape.kind = .symbol s → shape.text = s.text

variable {cs : List Char}

theorem takes_plain {kind : TokenKind} {n : Nat} (proper : kind ≠ .finish)
    (noSign : ∀ s, kind ≠ .symbol s) (pos : 0 < n) (le : n ≤ cs.length) :
    Takes cs (.plain kind, n) := by
  rintro _ ⟨⟩
  exact ⟨proper, pos, le, fun s sign => absurd sign (noSign s)⟩

theorem takes_fault (cause : LexCause) (n : Nat) : Takes cs (.fault cause, n) := nofun

theorem symbol_takes {s : Symbol} (h : symbolAt? cs = some s) :
    Takes cs (.plain (.symbol s), s.text.length) := by
  have all : 0 < s.text.length ∧ s.text.length ≤ cs.length ∧
      String.ofList (cs.take s.text.length) = s.text := by
    revert h
    fun_cases symbolAt? cs
    case case33 => rintro ⟨⟩
    all_goals
      rintro ⟨⟩
      exact ⟨by decide, Nat.le_add_left _ _, rfl⟩
  rintro _ ⟨⟩
  refine ⟨?_, all.1, all.2.1, ?_⟩
  · rintro ⟨⟩
  · rintro _ ⟨⟩
    exact all.2.2

theorem word_takes {c : Char} (h : startsWord c = true) : Takes (c :: cs) (word (c :: cs)) := by
  have first : continuesWord c = true := by
    unfold startsWord at h
    unfold continuesWord Text.isAlphanumeric
    rcases Bool.or_eq_true_iff.1 h with h | h <;> simp [h]
  refine takes_plain ?_ ?_ ?_ (length_takeWhile_le _ _)
  · split <;> exact nofun
  · split <;> exact nofun
  · rw [List.takeWhile_cons, if_pos first]
    exact Nat.succ_pos _

theorem parameter_takes (c : Char) : Takes (c :: cs) (parameter cs) := by
  have le := length_takeWhile_le Char.isDigit cs
  unfold parameter
  simp only
  split
  · exact takes_fault _ _
  · split
    · exact takes_plain nofun nofun (by omega) (by rw [List.length_cons]; omega)
    · exact takes_fault _ _

theorem length_quoted_le (quote : Char) (cs : List Char) :
    (quoted quote cs).length ≤ cs.length := by
  fun_induction quoted quote cs with
  | case1 => exact Nat.le_refl 0
  | case2 ds ih => simp only [Quoted.cons, List.length_cons]; omega
  | case3 => simp only [List.length_cons]; omega
  | case4 => exact Nat.le_refl 1
  | case5 => exact Nat.zero_le _
  | case6 d ds e escape other ih => simp only [Quoted.cons, List.length_cons]; omega
  | case7 d ds escape other ih =>
    simp only [Quoted.cons, List.length_cons] at ih ⊢
    omega
  | case8 d ds other plain ih => simp only [Quoted.cons, List.length_cons]; omega

theorem string_takes (quote c : Char) : Takes (c :: cs) (string quote cs) := by
  have le := length_quoted_le quote cs
  unfold string
  simp only
  split
  · rintro _ ⟨⟩
    exact ⟨nofun, by omega, by rw [List.length_cons]; omega, nofun⟩
  · exact takes_fault _ _

theorem numberKind?_cases {hex real : Bool} {suffix : String} {kind : TokenKind}
    (h : numberKind? hex real suffix = some kind) : kind = .integer ∨ kind = .real := by
  unfold numberKind? at h
  split at h
  · split at h <;> cases h <;> decide
  · split at h
    · split at h <;> cases h
      decide
    · split at h
      · split at h <;> cases h
        decide
      · cases h

theorem suffixed_takes (hex real : Bool) {length : Nat} (pos : 0 < length)
    (le : length ≤ cs.length) : Takes cs (suffixed cs hex real length) := by
  have suffix := length_takeWhile_le Char.isAlpha (cs.drop length)
  rw [List.length_drop] at suffix
  unfold suffixed
  simp only
  split
  next kind =>
    rcases numberKind?_cases kind with rfl | rfl <;>
      exact takes_plain nofun nofun (by omega) (by omega)
  next => exact takes_fault _ _

theorem decimal_takes {c : Char} (h : c.isDigit = true) : Takes (c :: cs) (decimal (c :: cs)) := by
  have whole := length_takeWhile_le Char.isDigit (c :: cs)
  have first : 0 < ((c :: cs).takeWhile Char.isDigit).length := by
    rw [List.takeWhile_cons, if_pos h]
    exact Nat.succ_pos _
  unfold decimal
  simp only
  generalize ((c :: cs).takeWhile Char.isDigit).length = digits at whole first ⊢
  have fraction := fractionLength_le ((c :: cs).drop digits)
  rw [List.length_drop] at fraction
  generalize fractionLength ((c :: cs).drop digits) = point at fraction ⊢
  have exponent := exponentLength_le ((c :: cs).drop (digits + point))
  rw [List.length_drop] at exponent
  generalize exponentLength ((c :: cs).drop (digits + point)) = power at exponent ⊢
  exact suffixed_takes _ _ (by omega) (by omega)

theorem number_takes {c : Char} (h : c.isDigit = true) : Takes (c :: cs) (number (c :: cs)) := by
  unfold number
  split
  next x digits same =>
    obtain ⟨rfl, rfl⟩ := List.cons.inj same
    simp only
    split
    · have count := length_takeWhile_le isHexDigit digits
      split
      · exact takes_fault _ _
      · refine suffixed_takes true false (by omega) ?_
        simp only [List.length_cons]
        omega
    · exact decimal_takes rfl
  next => exact decimal_takes h

/-- **A token takes at least one character.** -/
theorem scan_takes (c : Char) (cs : List Char) : Takes (c :: cs) (scan (c :: cs)) := by
  unfold scan
  simp only
  split
  next s sign => exact symbol_takes sign
  next =>
    split
    · exact parameter_takes c
    · split
      · exact string_takes c c
      · split
        next starts => exact word_takes starts
        next =>
          split
          next digit => exact number_takes digit
          next => exact takes_fault _ _

end Lexeme

/-! ## Spelling -/

/-- A list of lists with a separator is the first of them, and the separator in front of the
others. -/
theorem intercalate_cons {α : Type} (s : α) (xs : List α) (xss : List (List α)) :
    [s].intercalate (xs :: xss) = xs ++ xss.flatMap fun ys => s :: ys := by
  induction xss generalizing xs with
  | nil => simp
  | cons ys xss ih =>
    rw [List.intercalate_cons_cons, ih, List.flatMap_cons, List.append_assoc]
    rfl

/-- Each list is a part of the lists with separators between them. -/
theorem length_le_intercalate {α : Type} (s : α) {xs : List α} {xss : List (List α)}
    (h : xs ∈ xss) : xs.length ≤ ([s].intercalate xss).length := by
  cases xss with
  | nil => cases h
  | cons ys xss =>
    rw [intercalate_cons, List.length_append]
    rcases List.mem_cons.1 h with rfl | h
    · exact Nat.le_add_right _ _
    · have part : (s :: xs) ∈ xss.map (s :: ·) := List.mem_map_of_mem h
      have le := (List.sublist_flatten_of_mem part).length_le
      rw [List.length_cons, ← List.flatMap_def] at le
      omega

/-- There are no more lists than entries and separators. -/
theorem length_lists_le {α : Type} (s : α) (xs : List α) (xss : List (List α)) :
    xss.length ≤ ([s].intercalate (xs :: xss)).length := by
  rw [intercalate_cons, List.length_append]
  induction xss with
  | nil => exact Nat.zero_le _
  | cons ys xss ih =>
    rw [List.flatMap_cons, List.length_append, List.length_cons, List.length_cons]
    omega

/-- The shape of a sign. -/
def Shape.sign (s : Symbol) : Shape := ⟨.symbol s, s.text⟩

/-- Shapes between parentheses. -/
def Shape.wrap (ss : List Shape) : List Shape := .sign .leftParen :: (ss ++ [.sign .rightParen])

@[simp] theorem Shape.length_wrap (ss : List Shape) : (wrap ss).length = ss.length + 2 := by
  simp [wrap]

/-- The characters are read as tokens of the shapes, one after the other up to the end. -/
inductive Spells : List Char → List Shape → Prop
  | nil : Spells [] []
  | blank {c : Char} {cs : List Char} {ss : List Shape} (blank : Text.isBlank c = true)
    (rest : Spells cs ss) : Spells (c :: cs) ss
  | token {c : Char} {cs : List Char} {n : Nat} {lexeme : Lexeme} {s : Shape} {ss : List Shape}
    (starts : Text.isBlank c = false) (scan : Lexeme.scan (c :: cs) = (lexeme, n + 1))
    (le : n ≤ cs.length) (read : lexeme.shape? (String.ofList (c :: cs.take n)) = some s)
    (proper : s.kind ≠ .finish) (rest : Spells (cs.drop n) ss) : Spells (c :: cs) (s :: ss)

namespace Spells

variable {c d : Char} {cs r : List Char} {s : Shape} {ss ss' : List Shape}

/-- The end of the text is not among the shapes. -/
theorem proper (h : Spells cs ss) : ∀ s ∈ ss, s.kind ≠ .finish := by
  induction h with
  | nil => exact nofun
  | blank _ _ ih => exact ih
  | token _ _ _ _ proper _ ih => exact List.forall_mem_cons.2 ⟨proper, ih⟩

/-- Each sign is spelled in its own way. -/
theorem sign_eq (h : Spells cs ss) : ∀ s ∈ ss, ∀ x, s.kind = .symbol x → s = .sign x := by
  induction h with
  | nil => exact nofun
  | blank _ _ ih => exact ih
  | @token c cs n lexeme s ss starts scan le read proper _ ih =>
    refine List.forall_mem_cons.2 ⟨fun x kind => ?_, ih⟩
    have takes := Lexeme.scan_takes c cs
    rw [scan] at takes
    rw [Shape.sign, ← kind, ← (takes s read).2.2.2 x kind]

theorem space (rest : Spells cs ss) : Spells (' ' :: cs) ss := .blank rfl rest

/-- **Texts with a separator between them are read one after the other.** -/
theorem append (h : Spells cs ss) (hd : Lexeme.Separates d) (h' : Spells (d :: r) ss') :
    Spells (cs ++ d :: r) (ss ++ ss') := by
  induction h with
  | nil => exact h'
  | blank blank _ ih => exact .blank blank ih
  | @token c cs n lexeme s ss starts scan le read proper rest ih =>
    have same : Lexeme.scan (c :: (cs ++ d :: r)) = (lexeme, n + 1) := by
      rw [← scan]
      refine Lexeme.scan_append hd c cs r fun cause fault => ?_
      rw [scan] at fault
      simp only at fault
      rw [fault] at read
      cases read
    show Spells (c :: (cs ++ d :: r)) (s :: (ss ++ ss'))
    refine .token starts same ?_ ?_ proper ?_
    · rw [List.length_append]
      omega
    · rw [List.take_append_of_le_length le]
      exact read
    · rw [List.drop_append_of_le_length le]
      exact ih

/-- A sign that is one character, and not the first of a longer sign. -/
theorem sign {s : Symbol} (alone : ∀ r, Lexeme.symbolAt? (c :: r) = some s)
    (text : s.text = String.ofList [c]) (starts : Text.isBlank c = false) (rest : Spells cs ss) :
    Spells (c :: cs) (.sign s :: ss) := by
  have scan : Lexeme.scan (c :: cs) = (.plain (.symbol s), 0 + 1) := by
    simp only [Lexeme.scan, alone, text, String.length_ofList]
    rfl
  refine .token starts scan (Nat.zero_le _) ?_ ?_ rest
  · rw [List.take_zero, ← text]
    rfl
  · rintro ⟨⟩

theorem leftParen (rest : Spells cs ss) : Spells ('(' :: cs) (.sign .leftParen :: ss) :=
  sign (fun _ => rfl) rfl rfl rest

theorem rightParen (rest : Spells cs ss) : Spells (')' :: cs) (.sign .rightParen :: ss) :=
  sign (fun _ => rfl) rfl rfl rest

theorem comma (rest : Spells cs ss) : Spells (',' :: cs) (.sign .comma :: ss) :=
  sign (fun _ => rfl) rfl rfl rest

/-- A text between parentheses, in front of another one. -/
theorem wrap (h : Spells cs ss) (rest : Spells r ss') :
    Spells ('(' :: (cs ++ ')' :: r)) (Shape.wrap ss ++ ss') := by
  have inside := h.append Lexeme.separates_rightParen rest.rightParen
  simpa [Shape.wrap] using leftParen inside

/-- Texts with one text between each two of them, which starts with a separator and is read as one
token. -/
theorem intercalate {sep : String} {more : List Char} {x : String} {xs : List String}
    {σ : List Shape} {σs : List (List Shape)} (text : sep.toList = d :: more)
    (hd : Lexeme.Separates d) (reads : ∀ r ss, Spells r ss → Spells (d :: (more ++ r)) (s :: ss))
    (h : List.Forall₂ (fun x σ => Spells (String.toList x) σ) (x :: xs) (σ :: σs)) :
    Spells (sep.intercalate (x :: xs)).toList ([s].intercalate (σ :: σs)) := by
  induction xs generalizing x σ σs with
  | nil =>
    obtain ⟨first, none⟩ := List.forall₂_cons.1 h
    obtain rfl := List.forall₂_nil_left_iff.1 none
    rwa [String.intercalate_singleton, List.intercalate_singleton]
  | cons y ys ih =>
    obtain ⟨first, others⟩ := List.forall₂_cons.1 h
    obtain ⟨τ, τs, -, -, rfl⟩ := List.forall₂_cons_left_iff.1 others
    rw [String.intercalate_cons_cons, List.intercalate_cons_cons, String.toList_append,
      String.toList_append, text, List.append_assoc, List.append_assoc]
    exact first.append hd (reads _ _ (ih others))

end Spells

/-! ## Reading -/

namespace Lexer

variable {cs : List Char} {ss : List Shape}

/-- Where a blank is skipped does not matter. -/
theorem next_blank {c : Char} (h : Text.isBlank c = true) (position : Nat) (cs : List Char) :
    next ⟨position, c :: cs⟩ = next ⟨position + 1, cs⟩ := by
  have skip : skipBlanks ⟨position, c :: cs⟩ = skipBlanks ⟨position + 1, cs⟩ := by
    simp only [skipBlanks, advance, List.takeWhile_cons, h, if_true, List.length_cons,
      List.drop_succ_cons]
    rw [Nat.add_right_comm, Nat.add_assoc]
  unfold next
  rw [skip]

/-- Characters that do not start with a blank are scanned as they are. -/
theorem skipBlanks_start {c : Char} (h : Text.isBlank c = false) (position : Nat) :
    skipBlanks ⟨position, c :: cs⟩ = ⟨position, c :: cs⟩ := by
  simp [skipBlanks, advance, h]

/-- The token that the scanner finds. -/
theorem next_token {c : Char} {n : Nat} {lexeme : Lexeme} {s : Shape}
    (starts : Text.isBlank c = false) (scan : Lexeme.scan (c :: cs) = (lexeme, n + 1))
    (read : lexeme.shape? (String.ofList (c :: cs.take n)) = some s) (position : Nat) :
    next ⟨position, c :: cs⟩ =
      (.ok ⟨s.kind, s.text, position⟩, ⟨position + (n + 1), cs.drop n⟩) := by
  unfold next
  rw [skipBlanks_start starts]
  simp only [scan]
  cases lexeme with
  | plain kind =>
    obtain rfl := Option.some.inj read
    rfl
  | literal content =>
    obtain rfl := Option.some.inj read
    rfl
  | fault cause => cases read

/-- What spells the shapes is read as tokens of the shapes, wherever it stands. -/
theorem run_of_spells (h : Spells cs ss) :
    ∀ position fuel, cs.length < fuel → ∃ ts finish, run fuel ⟨position, cs⟩ =
      (ts ++ [finish], none) ∧ ts.map Token.shape = ss ∧ finish.kind = .finish := by
  induction h with
  | nil =>
    intro position fuel hf
    obtain ⟨fuel, rfl⟩ := Nat.exists_eq_add_of_lt hf
    exact ⟨[], ⟨.finish, "", position⟩, run_end position _, rfl, rfl⟩
  | @blank c cs ss blank _ ih =>
    intro position fuel hf
    obtain ⟨ts, finish, read, shapes, last⟩ := ih (position + 1) fuel (Nat.lt_of_succ_lt hf)
    obtain ⟨fuel, rfl⟩ : ∃ f, fuel = f + 1 := ⟨fuel - 1, by omega⟩
    refine ⟨ts, finish, ?_, shapes, last⟩
    rw [← read, run, next_blank blank, run]
  | @token c cs n lexeme s ss starts scan le read proper _ ih =>
    intro position fuel hf
    obtain ⟨fuel, rfl⟩ : ∃ f, fuel = f + 1 := ⟨fuel - 1, by omega⟩
    have shorter : (cs.drop n).length < fuel := by
      rw [List.length_drop]
      exact Nat.lt_of_le_of_lt (Nat.sub_le _ _) (Nat.lt_of_succ_lt_succ hf)
    obtain ⟨ts, finish, more, shapes, last⟩ := ih (position + (n + 1)) fuel shorter
    refine ⟨⟨s.kind, s.text, position⟩ :: ts, finish, ?_, ?_, last⟩
    · rw [run_succ fuel (next_token starts scan read position) proper, more]
      rfl
    · rw [List.map_cons, shapes]
      rfl

/-- Characters are read in one way. -/
theorem shapes_unique (h : Spells cs ss) {ss' : List Shape} (h' : Spells cs ss') :
    ss = ss' := by
  obtain ⟨ts, finish, read, rfl, -⟩ := run_of_spells h 0 _ (Nat.lt_succ_self _)
  obtain ⟨us, finish', read', rfl, -⟩ := run_of_spells h' 0 _ (Nat.lt_succ_self _)
  rw [read] at read'
  obtain ⟨rfl, -⟩ := List.append_inj' (Prod.mk.inj read').1 rfl
  rfl

/-- What was read to the end spells the shapes of the tokens. -/
theorem spells_of_run {fuel position : Nat} {ts : List Token} (hf : cs.length < fuel)
    (h : run fuel ⟨position, cs⟩ = (ts, none)) :
    ∃ body finish, ts = body ++ [finish] ∧ finish.kind = .finish ∧
      Spells cs (body.map Token.shape) := by
  induction fuel generalizing position cs ts with
  | zero => cases hf
  | succ fuel ih =>
    induction cs generalizing position with
    | nil =>
      rw [run_end] at h
      cases h
      exact ⟨[], _, rfl, rfl, .nil⟩
    | cons c cs inner =>
      cases starts : Text.isBlank c with
      | true =>
        rw [run, next_blank starts, ← run] at h
        obtain ⟨body, finish, rfl, last, spells⟩ := inner (Nat.lt_of_succ_lt hf) h
        exact ⟨body, finish, rfl, last, .blank starts spells⟩
      | false =>
        rcases scan : Lexeme.scan (c :: cs) with ⟨lexeme, n⟩
        have takes := Lexeme.scan_takes c cs
        rw [scan] at takes
        cases read : lexeme.shape? (String.ofList ((c :: cs).take n)) with
        | none =>
          cases lexeme with
          | plain kind => cases read
          | literal content => cases read
          | fault cause =>
            rw [run] at h
            simp only [next, skipBlanks_start starts, scan] at h
            cases h
        | some s =>
          obtain ⟨proper, pos, le, -⟩ := takes s read
          obtain ⟨n, rfl⟩ : ∃ m, n = m + 1 := ⟨n - 1, by simp only at pos; omega⟩
          rw [run_succ fuel (next_token starts scan read position) proper] at h
          have shorter : (cs.drop n).length < fuel := by
            rw [List.length_drop]
            exact Nat.lt_of_le_of_lt (Nat.sub_le _ _) (Nat.lt_of_succ_lt_succ hf)
          rcases more : run fuel ⟨position + (n + 1), cs.drop n⟩ with ⟨us, fault⟩
          rw [more] at h
          obtain ⟨rfl, rfl⟩ := Prod.mk.inj h
          obtain ⟨body, finish, rfl, last, spells⟩ := ih shorter more
          refine ⟨_ :: body, finish, rfl, last, ?_⟩
          exact .token starts scan (Nat.le_of_succ_le_succ le) read proper spells

/-- In front of a fault, there is no end of the text. -/
theorem proper_of_fault {fuel : Nat} {l : Lexer} {ts : List Token} {e : LexError}
    (h : run fuel l = (ts, some e)) : ∀ t ∈ ts, t.kind ≠ .finish := by
  induction fuel generalizing l ts with
  | zero => cases h
  | succ fuel ih =>
    rw [run] at h
    split at h
    · cases h
      rintro _ ⟨⟩
    · split at h
      · cases h
      next t l' _ more =>
        simp only at h
        obtain ⟨rfl, fault⟩ := Prod.mk.inj h
        exact List.forall_mem_cons.2 ⟨more, ih (Prod.ext rfl fault)⟩

/-- **A text spells the shapes of its tokens, or a fault lies behind them.** -/
theorem tokens_cases (text : String) :
    (∃ body finish, tokens text = (body ++ [finish], none) ∧ finish.kind = .finish ∧
      Spells text.toList (body.map Token.shape)) ∨
    ∃ ts e, tokens text = (ts, some e) ∧ ∀ t ∈ ts, t.kind ≠ .finish := by
  rcases h : tokens text with ⟨ts, _ | e⟩
  · have fuel : text.toList.length < text.length + 1 := by
      rw [String.length_toList]
      exact Nat.lt_succ_self _
    obtain ⟨body, finish, rfl, last, spells⟩ := spells_of_run fuel h
    exact Or.inl ⟨body, finish, rfl, last, spells⟩
  · exact Or.inr ⟨ts, e, rfl, proper_of_fault h⟩

/-- Behind the tokens of a text without a fault lies its end. -/
theorem exists_finish {text : String} {ts : List Token} (h : tokens text = (ts, none)) :
    ∃ body finish, ts = body ++ [finish] ∧ finish.kind = .finish := by
  rcases tokens_cases text with ⟨body, finish, read, last, -⟩ | ⟨us, e, read, -⟩
  · rw [read] at h
    exact ⟨body, finish, (Prod.mk.inj h).1.symm, last⟩
  · rw [read] at h
    cases h

/-- All tokens of a text are those up to its end, if there is no fault. -/
theorem tokenize_eq_ok {text : String} {ts : List Token} :
    tokenize text = .ok ts ↔ tokens text = (ts, none) := by
  unfold tokenize
  constructor
  · intro h
    split at h
    next read =>
      obtain rfl := Except.ok.inj h
      exact read
    next => cases h
  · intro h
    rw [h]

/-- The tokens of a text that spells shapes. -/
theorem tokens_of_spells {text : String} (h : Spells text.toList ss) :
    ∃ ts finish, tokens text = (ts ++ [finish], none) ∧ ts.map Token.shape = ss ∧
      finish.kind = .finish := by
  refine run_of_spells h 0 _ ?_
  rw [String.length_toList]
  exact Nat.lt_succ_self _

end Lexer

end TypedExpr
