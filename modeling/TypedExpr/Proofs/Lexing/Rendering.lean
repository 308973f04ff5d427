import TypedExpr.Proofs.Lexing.Spans

/-!
# Texts of tokens

Tokens are written with a space between each two of them, and a string literal with its quotes.
What is written so is read as the same tokens: the characters of a token are read as this token
wherever they stand in front of a separator, and a string literal is read as any content in which
quotes and backslashes were doubled.

* `Text.enclosed` — a content between quotes.
* `Token.written`, `Lexer.written` — the text of a token, and of tokens.
* **`Lexeme.quoted_doubled`** — the scanner of string literals undoes the doubling.
* **`Spells.forall_written`** — each token of a text is found in what is written for it.
* **`Lexer.tokenize_written`** — tokens are found in their text, and every content between quotes.
-/

namespace TypedExpr

/-! ## Contents between quotes -/

/-- A content with its quotes and backslashes doubled. -/
def Text.doubled (quote : Char) (content : List Char) : List Char :=
  content.flatMap fun c => if c = quote ∨ c = '\\' then [c, c] else [c]

/-- A content as a string literal. -/
def Text.enclosed (quote : Char) (content : String) : String :=
  String.ofList (quote :: (doubled quote content.toList ++ [quote]))

theorem Text.toList_enclosed (quote : Char) (content : String) :
    (enclosed quote content).toList = quote :: (doubled quote content.toList ++ [quote]) :=
  String.toList_ofList

theorem Text.doubled_cons (quote c : Char) (cs : List Char) : doubled quote (c :: cs) =
    (if c = quote ∨ c = '\\' then [c, c] else [c]) ++ doubled quote cs := List.flatMap_cons

namespace Lexeme

variable {quote : Char}

/-- **A content is what is read of it with quotes and backslashes doubled.** -/
theorem quoted_doubled (proper : quote ≠ '\\') (cs : List Char) :
    quoted quote (Text.doubled quote cs ++ [quote]) =
      ⟨cs, (Text.doubled quote cs).length + 1, true⟩ := by
  induction cs with
  | nil => simp [Text.doubled, quoted]
  | cons c cs ih =>
    rw [Text.doubled_cons]
    by_cases twice : c = quote ∨ c = '\\'
    · have pair (ds : List Char) : quoted quote (c :: c :: ds) = (quoted quote ds).cons c 2 := by
        rcases twice with rfl | rfl
        · simp only [quoted, if_true]
        · simp only [quoted, if_neg proper.symm, if_true, escape?]
      rw [if_pos twice, List.append_assoc]
      show quoted quote (c :: c :: (Text.doubled quote cs ++ [quote])) = _
      rw [pair, ih, Quoted.cons, List.length_append, Nat.add_assoc]
      rfl
    · obtain ⟨other, plain⟩ := not_or.1 twice
      rw [if_neg twice, List.append_assoc]
      show quoted quote (c :: (Text.doubled quote cs ++ [quote])) = _
      rw [quoted.eq_def]
      simp only [if_neg other, if_neg plain]
      rw [ih, Quoted.cons, List.length_append, Nat.add_assoc]
      rfl

/-- A string literal in quotes is scanned to its end. -/
theorem scan_enclosed (mark : quote = '\x22' ∨ quote = '\x27') (cs : List Char) :
    scan (quote :: (Text.doubled quote cs ++ [quote])) =
      (.literal (String.ofList cs), (Text.doubled quote cs).length + 1 + 1) := by
  have proper : quote ≠ '\\' := by
    rcases mark with rfl | rfl <;> decide
  have found : scan (quote :: (Text.doubled quote cs ++ [quote])) =
      string quote (Text.doubled quote cs ++ [quote]) := by
    rcases mark with rfl | rfl <;> rfl
  simp only [found, string, quoted_doubled proper, if_true, Nat.add_comm 1]

end Lexeme

theorem blank_of_quote {quote : Char} (mark : quote = '\x22' ∨ quote = '\x27') :
    Text.isBlank quote = false := by
  rcases mark with rfl | rfl <;> decide

/-- A content in quotes is one string literal. -/
theorem spells_enclosed {quote : Char} (mark : quote = '\x22' ∨ quote = '\x27')
    (content : String) : Spells (Text.enclosed quote content).toList [⟨.string, content⟩] := by
  rw [Text.toList_enclosed]
  refine .token (blank_of_quote mark) (Lexeme.scan_enclosed mark _) ?_ ?_ nofun ?_
  · simp
  · rw [String.ofList_toList]
    rfl
  · simp [Spells.nil]

/-! ## Tokens -/

/-- The text of a token, with the quotes of a string literal. -/
def Shape.written (s : Shape) : String :=
  if s.kind = .string then Text.enclosed '\x22' s.text else s.text

/-- The text of a token, with the quotes of a string literal. -/
def Token.written (t : Token) : String := t.shape.written

/-- The text of tokens, with a space between each two of them. -/
def Lexer.written (ts : List Token) : String := " ".intercalate (ts.map Token.written)

/-- **Each token of a text is found in what is written for it.** -/
theorem Spells.forall_written {cs : List Char} {ss : List Shape} (h : Spells cs ss) :
    ∀ s ∈ ss, Spells s.written.toList [s] := by
  induction h with
  | nil => exact List.forall_mem_nil _
  | blank _ _ ih => exact ih
  | @token c cs n lexeme s ss starts scan le read proper _ ih =>
    refine List.forall_mem_cons.2 ⟨?_, ih⟩
    have delimits := Lexeme.scan_delimits (c :: cs)
    rw [scan] at delimits
    cases lexeme with
    | plain kind =>
      obtain rfl := Option.some.inj read
      have noString : kind ≠ .string := fun string =>
        delimits.noString (congrArg Lexeme.plain string)
      rw [Shape.written, if_neg noString, String.toList_ofList]
      exact Spells.alone starts scan le read proper
    | literal content =>
      obtain rfl := Option.some.inj read
      exact spells_enclosed (Or.inl rfl) content
    | fault cause => cases read

/-- Tokens with a space behind each of them are read one after the other. -/
theorem spells_spaced {ss : List Shape} (each : ∀ s ∈ ss, Spells s.written.toList [s]) :
    Spells (" ".intercalate (ss.map Shape.written ++ [""])).toList ss := by
  induction ss with
  | nil => exact .nil
  | cons s ss ih =>
    obtain ⟨first, others⟩ := List.forall_mem_cons.1 each
    have spaced : (" ".intercalate ((s :: ss).map Shape.written ++ [""])).toList =
        s.written.toList ++ ' ' :: (" ".intercalate (ss.map Shape.written ++ [""])).toList := by
      rw [List.map_cons, List.cons_append]
      obtain ⟨x, xs, more⟩ := List.exists_cons_of_ne_nil
        (List.append_ne_nil_of_right_ne_nil (ss.map Shape.written) (List.cons_ne_nil "" []))
      rw [more, String.intercalate_cons_cons, String.toList_append, String.toList_append,
        List.append_assoc]
      rfl
    rw [spaced]
    exact first.append Lexeme.separates_space (ih others).space

namespace Lexer

/-- The text of tokens up to the end is the texts of those in front of it, each with a space. -/
theorem written_append_finish {body : List Token} {finish : Token}
    (last : finish.shape = ⟨.finish, ""⟩) : written (body ++ [finish]) =
      " ".intercalate ((body.map Token.shape).map Shape.written ++ [""]) := by
  rw [written, List.map_append, List.map_map, List.map_singleton, Token.written, last]
  rfl

/-- What is written for the tokens of a text is read as these tokens. -/
theorem exists_tokens_written {text : String} {ts : List Token} (h : tokens text = (ts, none)) :
    ∃ us, tokens (written ts) = (us, none) ∧ us.map Token.shape = ts.map Token.shape := by
  obtain ⟨body, finish, read, last, spells⟩ | ⟨_, _, read, -⟩ := tokens_cases text
  case inr =>
    rw [read] at h
    cases h
  obtain rfl : ts = body ++ [finish] := (Prod.mk.inj (h.symm.trans read)).1
  have shape := shape_of_finish read last
  have spaced := spells_spaced spells.forall_written
  rw [← written_append_finish shape] at spaced
  obtain ⟨us, finish', read', shapes, last'⟩ := tokens_of_spells spaced
  refine ⟨us ++ [finish'], read', ?_⟩
  rw [List.map_append, List.map_append, shapes, List.map_singleton, List.map_singleton, shape,
    shape_of_finish read' last']

/-- A content in quotes is read as this content, up to the end. -/
theorem tokens_enclosed {quote : Char} (mark : quote = '\x22' ∨ quote = '\x27')
    (content : String) : tokens (Text.enclosed quote content) =
      ([⟨.string, content, 0⟩, ⟨.finish, "", (Text.enclosed quote content).length⟩], none) := by
  have length : (Text.enclosed quote content).length =
      (Text.doubled quote content.toList).length + 1 + 1 := by
    rw [← String.length_toList, Text.toList_enclosed, List.length_cons, List.length_append]
    rfl
  have scan := Lexeme.scan_enclosed mark content.toList
  rw [String.ofList_toList] at scan
  have first := next_token (blank_of_quote mark) scan rfl 0
  rw [tokens, ofText, Text.toList_enclosed, length, run_succ _ first nofun, List.drop_eq_nil_of_le,
    run_end]
  · simp
  · simp

/-- **Tokens are found in their text.**  What is written for the tokens of a text is read as tokens
of the same kinds and texts in the same order; and any content, in quotes of either kind and with
quotes and backslashes doubled, is read as this content. -/
theorem tokenize_written :
    (∀ text ts, tokenize text = .ok ts →
      ∃ us, tokenize (written ts) = .ok us ∧ us.map Token.shape = ts.map Token.shape) ∧
    ∀ quote, quote = '\x22' ∨ quote = '\x27' → ∀ content,
      tokenize (Text.enclosed quote content) =
        .ok [⟨.string, content, 0⟩, ⟨.finish, "", (Text.enclosed quote content).length⟩] := by
  refine ⟨fun text ts read => ?_, fun quote mark content => ?_⟩
  · obtain ⟨us, again, shapes⟩ := exists_tokens_written (tokenize_eq_ok.1 read)
    exact ⟨us, tokenize_eq_ok.2 again, shapes⟩
  · exact tokenize_eq_ok.2 (tokens_enclosed mark content)

/-- A string literal with the other quote in it is written with doubled quotes. -/
theorem tokenize_written_quotes : ∃ us, tokenize (written
      [⟨.string, "a\x22b", 0⟩, ⟨.symbol .plus, "+", 5⟩, ⟨.real, "2e1f", 6⟩, ⟨.finish, "", 10⟩]) =
        .ok us ∧
    us.map Token.shape = List.map Token.shape
      [⟨.string, "a\x22b", 0⟩, ⟨.symbol .plus, "+", 5⟩, ⟨.real, "2e1f", 6⟩, ⟨.finish, "", 10⟩] :=
  tokenize_written.1 "'a\x22b'+2e1f" _ (by decide +kernel)

end Lexer

end TypedExpr
