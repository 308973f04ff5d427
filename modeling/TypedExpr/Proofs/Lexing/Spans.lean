import Mathlib.Data.List.TakeWhile
import TypedExpr.Proofs.Keywords.Respelling

/-!
# Where tokens stand

A lexer goes through a text from its beginning to its end.  Each call of `Lexer.next` skips blanks
and takes the characters of one lexeme, also behind an error and at the end of the text, so that
the tokens and the blanks between them make up the text.

* `Lexeme.scan_inRange`, `Lexeme.scan_delimits` — how much scanners take, and what.
* `Lexer.StandsIn` — the position lies in the text, and the characters behind it are left.
* `Token.WrittenAs` — the characters that a token stands on.
* `Lexer.Passes`, `Lexer.Gives` — what one call does to the lexer, and what it gives.
* `Lexer.Delivers` — what is read call by call, up to the end or to the first failure.
* `Token.Tiles` — tokens and blanks that make up some characters.
* **`Lexer.next_spans`** — all of it, for every text and every number of calls.
-/

namespace TypedExpr

/-! ## What scanners take -/

namespace Lexeme

variable {cs : List Char}

/-- A lexeme is a sign, a parameter, a string literal, a word, a number, or unexpected. -/
theorem scan_cases {P : Lexeme × Nat → Prop} (c : Char) (cs : List Char)
    (sign : ∀ s, symbolAt? (c :: cs) = some s → P (.plain (.symbol s), s.text.length))
    (parameter : c = '@' → P (parameter cs))
    (string : c = '\x22' ∨ c = '\x27' → P (string c cs))
    (word : startsWord c = true → P (word (c :: cs)))
    (number : c.isDigit = true → P (number (c :: cs)))
    (unexpected : P (.fault (.unexpectedCharacter c), 0)) : P (scan (c :: cs)) := by
  unfold scan
  simp only
  split
  next s found => exact sign s found
  next =>
    split
    next at' => exact parameter at'
    next =>
      split
      next quote =>
        exact string ((Bool.or_eq_true_iff.1 quote).imp of_decide_eq_true of_decide_eq_true)
      next =>
        split
        next starts => exact word starts
        next =>
          split
          next digit => exact number digit
          next => exact unexpected

/-- A scanner takes no more characters than there are.  A faulty number is quoted as it was
taken. -/
structure InRange (cs : List Char) (r : Lexeme × Nat) : Prop where
  le : r.2 ≤ cs.length
  quotes : ∀ text, r.1 = .fault (.invalidNumber text) → text = String.ofList (cs.take r.2)

theorem parameter_inRange (c : Char) (cs : List Char) : InRange (c :: cs) (parameter cs) := by
  have le := length_takeWhile_le Char.isDigit cs
  constructor
  · rw [List.length_cons]
    show 1 + (cs.takeWhile Char.isDigit).length ≤ _
    omega
  · intro text fault
    simp only [parameter] at fault
    split at fault
    · cases fault
    · split at fault <;> cases fault

theorem string_inRange (quote c : Char) (cs : List Char) :
    InRange (c :: cs) (string quote cs) := by
  constructor
  · have le := length_quoted_le quote cs
    rw [string_snd, List.length_cons]
    omega
  · intro text fault
    simp only [string] at fault
    split at fault <;> cases fault

theorem suffixed_inRange {length : Nat} (hex real : Bool) (le : length ≤ cs.length) :
    InRange cs (suffixed cs hex real length) := by
  have suffix := length_takeWhile_le Char.isAlpha (cs.drop length)
  rw [List.length_drop] at suffix
  constructor
  · rw [suffixed_snd]
    omega
  · intro text fault
    rw [suffixed_snd]
    simp only [suffixed] at fault
    split at fault <;> cases fault
    rfl

theorem decimal_inRange (cs : List Char) : InRange cs (decimal cs) := by
  have whole := length_takeWhile_le Char.isDigit cs
  unfold decimal
  simp only
  generalize (cs.takeWhile Char.isDigit).length = digits at whole ⊢
  have fraction := fractionLength_le (cs.drop digits)
  rw [List.length_drop] at fraction
  generalize fractionLength (cs.drop digits) = point at fraction ⊢
  have exponent := exponentLength_le (cs.drop (digits + point))
  rw [List.length_drop] at exponent
  exact suffixed_inRange _ _ (by omega)

theorem number_inRange (cs : List Char) : InRange cs (number cs) := by
  unfold number
  split
  next x digits =>
    have count := length_takeWhile_le isHexDigit digits
    simp only
    split
    · split
      · refine ⟨Nat.le_add_left _ _, ?_⟩
        rintro text ⟨⟩
        rfl
      · refine suffixed_inRange true false ?_
        simp only [List.length_cons]
        omega
    · exact decimal_inRange _
  next => exact decimal_inRange _

/-- **Every scanner stays within the text.** -/
theorem scan_inRange : ∀ cs, InRange cs (scan cs)
  | [] => ⟨Nat.le_refl 0, nofun⟩
  | c :: cs => by
    apply scan_cases
    case sign => exact fun s found => ⟨(symbol_takes found _ rfl).2.2.1, nofun⟩
    case parameter => exact fun _ => parameter_inRange c cs
    case string => exact fun _ => string_inRange c c cs
    case word => exact fun _ => ⟨length_takeWhile_le _ _, nofun⟩
    case number => exact fun _ => number_inRange _
    case unexpected =>
      refine ⟨Nat.zero_le _, ?_⟩
      rintro text ⟨⟩

/-- Numbers are integers or real, or faulty. -/
theorem suffixed_kind (cs : List Char) (hex real : Bool) (length : Nat) :
    (suffixed cs hex real length).1 = .plain .integer ∨
      (suffixed cs hex real length).1 = .plain .real ∨
      ∃ text, (suffixed cs hex real length).1 = .fault (.invalidNumber text) := by
  simp only [suffixed]
  split
  next kind found =>
    rcases numberKind?_cases found with rfl | rfl
    · exact Or.inl rfl
    · exact Or.inr (Or.inl rfl)
  next => exact Or.inr (Or.inr ⟨_, rfl⟩)

theorem number_kind (cs : List Char) :
    (number cs).1 = .plain .integer ∨ (number cs).1 = .plain .real ∨
      ∃ text, (number cs).1 = .fault (.invalidNumber text) := by
  have decimal : (decimal cs).1 = .plain .integer ∨ (decimal cs).1 = .plain .real ∨
      ∃ text, (decimal cs).1 = .fault (.invalidNumber text) := by
    unfold decimal
    exact suffixed_kind _ _ _ _
  unfold number
  split
  · simp only
    split
    · split
      · exact Or.inr (Or.inr ⟨_, rfl⟩)
      · exact suffixed_kind _ _ _ _
    · exact decimal
  · exact decimal

/-- The last character that is taken for a string literal is the closing quote. -/
theorem exists_quoted_take {quote : Char} (closed : (quoted quote cs).closed = true) :
    ∃ body, cs.take (quoted quote cs).length = body ++ [quote] := by
  fun_induction quoted quote cs with
  | case1 => cases closed
  | case2 ds ih =>
    obtain ⟨body, taken⟩ := ih closed
    refine ⟨quote :: quote :: body, ?_⟩
    simp only [Quoted.cons, Nat.add_comm 2, List.take_succ_cons, taken, List.cons_append]
  | case3 d ds other => exact ⟨[], rfl⟩
  | case4 => exact ⟨[], rfl⟩
  | case5 => cases closed
  | case6 d ds e escape other ih =>
    obtain ⟨body, taken⟩ := ih closed
    refine ⟨'\\' :: d :: body, ?_⟩
    simp only [Quoted.cons, Nat.add_comm 2, List.take_succ_cons, taken, List.cons_append]
  | case7 d ds escape other ih =>
    obtain ⟨body, taken⟩ := ih closed
    refine ⟨'\\' :: body, ?_⟩
    simp only [Quoted.cons, Nat.add_comm 1, List.take_succ_cons, taken, List.cons_append]
  | case8 d ds other plain ih =>
    obtain ⟨body, taken⟩ := ih closed
    refine ⟨d :: body, ?_⟩
    simp only [Quoted.cons, Nat.add_comm 1, List.take_succ_cons, taken, List.cons_append]

/-- A lexeme with a content of its own starts and ends with the same quote, and no other lexeme is
a string literal. -/
structure Delimits (cs : List Char) (r : Lexeme × Nat) : Prop where
  noString : r.1 ≠ .plain .string
  quotes : ∀ content, r.1 = .literal content →
    ∃ quote body, (quote = '\x22' ∨ quote = '\x27') ∧ cs.take r.2 = quote :: (body ++ [quote])

theorem parameter_delimits (c : Char) (cs : List Char) : Delimits (c :: cs) (parameter cs) := by
  constructor
  · simp only [parameter]
    split
    · nofun
    · split <;> nofun
  · intro content read
    simp only [parameter] at read
    split at read
    · cases read
    · split at read <;> cases read

theorem string_delimits {c : Char} (quote : c = '\x22' ∨ c = '\x27') (cs : List Char) :
    Delimits (c :: cs) (string c cs) := by
  simp only [string]
  split
  next closed =>
    refine ⟨by rintro ⟨⟩, fun content _ => ?_⟩
    obtain ⟨body, taken⟩ := exists_quoted_take closed
    exact ⟨c, body, quote, by rw [Nat.add_comm, List.take_succ_cons, taken]⟩
  next => exact ⟨by rintro ⟨⟩, by rintro _ ⟨⟩⟩

theorem number_delimits (cs : List Char) : Delimits cs (number cs) := by
  rcases number_kind cs with kind | kind | ⟨text, kind⟩
  all_goals
    constructor
    · rw [kind]
      nofun
    · rw [kind]
      nofun

theorem scan_delimits : ∀ cs, Delimits cs (scan cs)
  | [] => ⟨nofun, nofun⟩
  | c :: cs => by
    apply scan_cases
    case sign => exact fun _ _ => ⟨nofun, nofun⟩
    case parameter => exact fun _ => parameter_delimits c cs
    case string => exact fun quote => string_delimits quote cs
    case word =>
      refine fun _ => ⟨?_, nofun⟩
      simp only [word]
      split <;> rintro ⟨⟩
    case number => exact fun _ => number_delimits _
    case unexpected => exact ⟨nofun, nofun⟩

end Lexeme

/-! ## One call -/

/-- The characters of a text from one position up to another. -/
def Text.between (text : String) (i j : Nat) : List Char := (text.toList.take j).drop i

/-- The token is written with these characters.  They are its text, unless it is a string literal,
whose characters start and end with the same quote. -/
structure Token.WrittenAs (t : Token) (span : List Char) : Prop where
  text : t.kind ≠ .string → t.text.toList = span
  quotes : t.kind = .string →
    ∃ quote body, (quote = '\x22' ∨ quote = '\x27') ∧ span = quote :: (body ++ [quote])

namespace Lexer

/-- The position lies in the text, and the characters behind it are left to read. -/
structure StandsIn (text : String) (l : Lexer) : Prop where
  le : l.position ≤ text.length
  rest : l.rest = text.toList.drop l.position

/-- What a call gives, if it takes `span` from the position `start`, in front of `rest`. -/
inductive Gives (start : Nat) (span rest : List Char) : Except LexError Token → Prop
  | token {t : Token} (proper : t.kind ≠ .finish) (offset : t.offset = start) (nonempty : span ≠ [])
    (written : t.WrittenAs span) : Gives start span rest (.ok t)
  | finish (empty : span = []) (behind : rest = []) :
    Gives start span rest (.ok ⟨.finish, "", start⟩)
  | fault {e : LexError} (offset : e.offset = start) (more : span ++ rest ≠ [])
    (quotes : ∀ number, e.cause = .invalidNumber number → number.toList = span) :
    Gives start span rest (.error e)

/-- A call from `l` skips blanks up to `start`, and takes the characters from there up to `l'`. -/
structure Passes (text : String) (l : Lexer) (start : Nat) (l' : Lexer) : Prop where
  skips : l.position ≤ start
  takes : start ≤ l'.position
  le : l'.position ≤ text.length
  blank : ∀ c ∈ Text.between text l.position start, Text.isBlank c = true

variable {text : String} {l l' : Lexer}

theorem standsIn_ofText (text : String) : StandsIn text (ofText text) := ⟨Nat.zero_le _, rfl⟩

/-- The first character that is left is the one at the position. -/
theorem StandsIn.current (stands : StandsIn text l) :
    l.rest.head? = text.toList[l.position]? := by
  rw [stands.rest, List.head?_drop]

theorem StandsIn.length_rest (stands : StandsIn text l) :
    l.rest.length = text.length - l.position := by
  rw [stands.rest, List.length_drop, String.length_toList]

/-- The blanks in front of the next lexeme. -/
def blanks (l : Lexer) : List Char := l.rest.takeWhile Text.isBlank

/-- The characters of the next lexeme. -/
def lexeme (l : Lexer) : List Char :=
  l.skipBlanks.rest.take (Lexeme.scan l.skipBlanks.rest).2

theorem blank_of_mem_blanks {c : Char} (among : c ∈ l.blanks) : Text.isBlank c = true :=
  List.mem_takeWhile_imp among

/-- What is left to read is blanks, a lexeme, and what the next call leaves. -/
theorem rest_eq (l : Lexer) : l.rest = l.blanks ++ (l.lexeme ++ l.next.2.rest) := by
  have behind : l.lexeme ++ l.next.2.rest = l.rest.drop l.blanks.length :=
    List.take_append_drop _ _
  rw [behind]
  exact (List.prefix_iff_eq_append.1 (List.takeWhile_prefix Text.isBlank)).symm

theorem skipBlanks_position (l : Lexer) : l.skipBlanks.position = l.position + l.blanks.length :=
  rfl

theorem next_position (l : Lexer) :
    l.next.2.position = l.position + l.blanks.length + l.lexeme.length := by
  have range := (Lexeme.scan_inRange l.skipBlanks.rest).le
  rw [lexeme, List.length_take, Nat.min_eq_left range]
  rfl

/-- What a call gives is in the lexeme that it takes behind the blanks. -/
theorem next_gives (l : Lexer) :
    Gives l.skipBlanks.position l.lexeme l.next.2.rest l.next.1 := by
  show Gives _ _ (l.skipBlanks.rest.drop (Lexeme.scan l.skipBlanks.rest).2) _
  unfold lexeme next
  simp only
  generalize l.skipBlanks = m
  obtain ⟨start, cs⟩ := m
  cases cs with
  | nil => exact .finish rfl rfl
  | cons c cs =>
    have takes := Lexeme.scan_takes c cs
    have range := Lexeme.scan_inRange (c :: cs)
    have delimits := Lexeme.scan_delimits (c :: cs)
    generalize Lexeme.scan (c :: cs) = r at takes range delimits
    obtain ⟨lexeme, n⟩ := r
    have nonempty (pos : 0 < n) : (c :: cs).take n ≠ [] := by
      obtain ⟨m, rfl⟩ := Nat.exists_eq_succ_of_ne_zero (Nat.pos_iff_ne_zero.1 pos)
      exact List.cons_ne_nil _ _
    cases lexeme with
    | plain kind =>
      obtain ⟨proper, pos, -, -⟩ := takes _ rfl
      show Gives start _ _ (.ok ⟨kind, String.ofList ((c :: cs).take n), start⟩)
      refine .token proper rfl (nonempty pos) ⟨fun _ => String.toList_ofList, fun string => ?_⟩
      exact absurd (congrArg Lexeme.plain string) delimits.noString
    | literal content =>
      obtain ⟨proper, pos, -, -⟩ := takes _ rfl
      show Gives start _ _ (.ok ⟨.string, content, start⟩)
      exact .token proper rfl (nonempty pos) ⟨fun other => absurd rfl other,
        fun _ => delimits.quotes content rfl⟩
    | fault cause =>
      show Gives start _ _ (.error ⟨cause, start⟩)
      refine .fault rfl ?_ fun number fault => ?_
      · rw [List.take_append_drop]
        exact List.cons_ne_nil _ _
      · rw [range.quotes number (congrArg Lexeme.fault fault), String.toList_ofList]

/-- What a lexer that stands in a text takes is what stands between the two positions. -/
theorem StandsIn.between_append (stands : StandsIn text l) {front taken rest : List Char}
    (left : l.rest = front ++ (taken ++ rest)) :
    Text.between text (l.position + front.length) (l.position + front.length + taken.length) =
      taken := by
  rw [Text.between, ← List.take_drop, ← List.drop_drop, ← stands.rest, left, List.drop_left,
    List.take_left]

/-- **A call goes on in the text, from where the lexer stands.** -/
theorem StandsIn.next (stands : StandsIn text l) :
    StandsIn text l.next.2 ∧ Passes text l l.skipBlanks.position l.next.2 ∧
      Gives l.skipBlanks.position (Text.between text l.skipBlanks.position l.next.2.position)
        (text.toList.drop l.next.2.position) l.next.1 := by
  have length := congrArg List.length l.rest_eq
  have front := stands.le
  rw [stands.length_rest, List.length_append, List.length_append] at length
  have after : StandsIn text l.next.2 := by
    constructor
    · rw [next_position]
      omega
    · rw [next_position, Nat.add_assoc, ← List.drop_drop, ← List.drop_drop, ← stands.rest]
      conv_rhs => rw [l.rest_eq, List.drop_left, List.drop_left]
  refine ⟨after, ⟨?_, ?_, after.le, fun c among => ?_⟩, ?_⟩
  · exact Nat.le_add_right _ _
  · exact Nat.le_add_right _ _
  · have blanks := stands.between_append (show l.rest = [] ++ _ from l.rest_eq)
    exact blank_of_mem_blanks (blanks ▸ among)
  · rw [← after.rest, next_position, skipBlanks_position, stands.between_append l.rest_eq]
    exact l.next_gives

/-! ## One call after the other -/

/-- The lexer after some calls. -/
def after (text : String) : Nat → Lexer
  | 0 => ofText text
  | calls + 1 => (after text calls).next.2

/-- Every call leaves the lexer in the text, also behind an error or at the end. -/
theorem standsIn_after (text : String) (calls : Nat) : StandsIn text (after text calls) := by
  induction calls with
  | zero => exact standsIn_ofText text
  | succ calls ih => exact ih.next.1

/-- The tokens that are read call by call up to the end or to the first failure, and that
failure. -/
inductive Delivers : Lexer → List Token → Option LexError → Prop
  | fault {l l' : Lexer} {e : LexError} (read : l.next = (.error e, l')) : Delivers l [] (some e)
  | finish {l l' : Lexer} {t : Token} (read : l.next = (.ok t, l')) (last : t.kind = .finish) :
    Delivers l [t] none
  | token {l l' : Lexer} {t : Token} {ts : List Token} {fault : Option LexError}
    (read : l.next = (.ok t, l')) (more : t.kind ≠ .finish) (rest : Delivers l' ts fault) :
    Delivers l (t :: ts) fault

/-- A call that gives a token takes a character. -/
theorem length_next_lt {t : Token} (read : l.next = (.ok t, l')) (more : t.kind ≠ .finish) :
    l'.rest.length < l.rest.length := by
  have gives := l.next_gives
  have rest := congrArg List.length l.rest_eq
  rw [read] at gives rest
  rw [List.length_append, List.length_append] at rest
  cases gives with
  | token proper offset nonempty written =>
    have pos := List.length_pos_iff.2 nonempty
    simp only at rest
    omega
  | finish => exact absurd rfl more

/-- **Calls come to the end of the text or to a failure**, after no more of them than there are
characters, and one. -/
theorem run_delivers {fuel : Nat} (enough : l.rest.length < fuel) :
    Delivers l (run fuel l).1 (run fuel l).2 ∧ (run fuel l).1.length ≤ l.rest.length + 1 := by
  induction fuel generalizing l with
  | zero => exact absurd enough (Nat.not_lt_zero _)
  | succ fuel ih =>
    rw [run]
    rcases read : l.next with ⟨_ | t, l'⟩
    · exact ⟨.fault read, Nat.zero_le _⟩
    · simp only
      split
      next last => exact ⟨.finish read last, Nat.le_add_left _ _⟩
      next more =>
        have fewer := length_next_lt read more
        obtain ⟨delivers, le⟩ := ih (Nat.lt_of_lt_of_le fewer (Nat.le_of_lt_succ enough))
        refine ⟨.token read more delivers, ?_⟩
        rw [List.length_cons]
        omega

end Lexer

/-! ## All tokens -/

/-- The characters from a position on are those of the tokens, each behind blanks, and blanks
in front of the end token. -/
inductive Token.Tiles : (position : Nat) → List Char → List Token → Prop
  | finish {position : Nat} {blanks : List Char} (blank : ∀ c ∈ blanks, Text.isBlank c = true) :
    Tiles position blanks [⟨.finish, "", position + blanks.length⟩]
  | token {position : Nat} {blanks span rest : List Char} {t : Token} {ts : List Token}
    (blank : ∀ c ∈ blanks, Text.isBlank c = true) (proper : t.kind ≠ .finish)
    (offset : t.offset = position + blanks.length) (nonempty : span ≠ [])
    (written : t.WrittenAs span)
    (more : Tiles (position + blanks.length + span.length) rest ts) :
    Tiles position (blanks ++ (span ++ rest)) (t :: ts)

namespace Lexer

variable {text : String} {l : Lexer}

/-- **Tokens up to the end tile the characters that they are read from.** -/
theorem Delivers.tiles {ts : List Token} {fault : Option LexError} (h : Delivers l ts fault)
    (success : fault = none) : Token.Tiles l.position l.rest ts := by
  induction h with
  | fault => cases success
  | @finish l l' t read last =>
    have gives := l.next_gives
    have rest := l.rest_eq
    rw [read] at gives rest
    cases gives with
    | token proper => exact absurd last proper
    | finish empty behind =>
      rw [empty, behind, List.append_nil, List.append_nil] at rest
      rw [rest]
      exact .finish fun _ => blank_of_mem_blanks
  | @token l l' t ts fault read more _ ih =>
    have gives := l.next_gives
    have rest := l.rest_eq
    have position := l.next_position
    have tiles := ih success
    rw [read] at gives rest position
    cases gives with
    | token proper offset nonempty written =>
      rw [position] at tiles
      rw [rest]
      exact .token (fun _ => blank_of_mem_blanks) proper offset nonempty written tiles
    | finish => exact absurd rfl more

theorem tokens_delivers (text : String) :
    Delivers (ofText text) (tokens text).1 (tokens text).2 ∧
      (tokens text).1.length ≤ text.length + 1 := by
  have length : (ofText text).rest.length = text.length := String.length_toList
  have enough : (ofText text).rest.length < text.length + 1 := by
    rw [length]
    exact Nat.lt_succ_self _
  have all := run_delivers enough
  rwa [length] at all

/-- **The lexer goes through the text.**  However often it is called, also behind an error or at
the end, it stands in the text, and the next call skips blanks and takes the characters of one
token, or of a fault.  Reading call by call comes to an end, and the tokens of a text without a
fault, with the blanks between them, make up the text. -/
theorem next_spans (text : String) :
    (∀ calls, StandsIn text (after text calls) ∧
      (after text calls).rest.head? = text.toList[(after text calls).position]? ∧
      ∃ start, Passes text (after text calls) start (after text (calls + 1)) ∧
        Gives start (Text.between text start (after text (calls + 1)).position)
          (text.toList.drop (after text (calls + 1)).position) (after text calls).next.1) ∧
    Delivers (ofText text) (tokens text).1 (tokens text).2 ∧
    (tokens text).1.length ≤ text.length + 1 ∧
    ∀ ts, tokenize text = .ok ts → tokens text = (ts, none) ∧ Token.Tiles 0 text.toList ts := by
  obtain ⟨delivers, le⟩ := tokens_delivers text
  refine ⟨fun calls => ?_, delivers, le, fun ts read => ?_⟩
  · have stands := standsIn_after text calls
    obtain ⟨-, passes, gives⟩ := stands.next
    exact ⟨stands, stands.current, _, passes, gives⟩
  · have all := tokenize_eq_ok.1 read
    rw [all] at delivers
    exact ⟨all, delivers.tiles rfl⟩

/-- A comparison with a string literal, which stands behind a blank with its quotes. -/
theorem next_spans_comparison : Token.Tiles 0 "a<= 'b'".toList
    [⟨.identifier, "a", 0⟩, ⟨.symbol .lessEqual, "<=", 1⟩, ⟨.string, "b", 4⟩, ⟨.finish, "", 7⟩] :=
  ((next_spans "a<= 'b'").2.2.2 _ (by decide +kernel)).2

end Lexer

end TypedExpr
