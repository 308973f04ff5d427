import TypedExpr.Numeric.NumberText
import TypedExpr.Text.Alphabetic
import TypedExpr.Text.Blank
import TypedExpr.Token.Basic

/-!
# From text to tokens

A `Lexer` is a position in a text.  `Lexer.next` reads the token at the position, or says why
there is none, and moves on; after a failure it can be asked again.

Each kind of token has a scanner that looks at the characters from the position and says how many
of them it takes.  The text of a token is exactly the characters taken, except that of a string
literal, which is its content without quotes and escapes.

* `Lexer.next` — one token.
* `Lexer.tokens` — all tokens up to the end or to the first failure.
-/

namespace TypedExpr

/-- Why there is no token. -/
inductive LexCause
  | unexpectedCharacter (c : Char)
  | unterminatedString
  | invalidNumber (text : String)
  | invalidPlaceholder
deriving DecidableEq, Repr

/-- A failure to read a token that starts at a position. -/
structure LexError where
  cause : LexCause
  offset : Nat
deriving DecidableEq, Repr

/-- The wording of a failure. -/
def LexError.message (e : LexError) : String :=
  match e.cause with
  | .unexpectedCharacter c => s!"Unexpected character '{c}' at offset {e.offset}"
  | .unterminatedString => s!"Unterminated string literal starting at offset {e.offset}"
  | .invalidNumber text => s!"Invalid numeric literal '{text}' at offset {e.offset}"
  | .invalidPlaceholder => s!"Expected digits after '@' at offset {e.offset}"

/-- What a scanner found in the characters that it took: a token whose text they are, a string
literal with its content, or a failure. -/
inductive Lexeme
  | plain (kind : TokenKind)
  | literal (content : String)
  | fault (cause : LexCause)
deriving DecidableEq, Repr

namespace Lexeme

/-! ## Signs and words -/

/-- The longest sign at the start of some characters. -/
def symbolAt? : List Char → Option Symbol
  | '=' :: '=' :: _ => some .equalEqual
  | '=' :: '>' :: _ => some .arrow
  | '=' :: _ => some .equal
  | '!' :: '=' :: _ => some .notEqual
  | '!' :: _ => some .bang
  | '<' :: '=' :: _ => some .lessEqual
  | '<' :: '>' :: _ => some .lessGreater
  | '<' :: '<' :: _ => some .shiftLeft
  | '<' :: _ => some .less
  | '>' :: '=' :: _ => some .greaterEqual
  | '>' :: '>' :: _ => some .shiftRight
  | '>' :: _ => some .greater
  | '&' :: '&' :: _ => some .ampAmp
  | '&' :: _ => some .amp
  | '|' :: '|' :: _ => some .barBar
  | '|' :: _ => some .bar
  | '+' :: _ => some .plus
  | '-' :: _ => some .minus
  | '*' :: _ => some .star
  | '/' :: _ => some .slash
  | '%' :: _ => some .percent
  | '(' :: _ => some .leftParen
  | ')' :: _ => some .rightParen
  | '[' :: _ => some .leftBracket
  | ']' :: _ => some .rightBracket
  | ',' :: _ => some .comma
  | '.' :: _ => some .dot
  | '?' :: _ => some .question
  | ':' :: _ => some .colon
  | '$' :: _ => some .dollar
  | '~' :: _ => some .tilde
  | '^' :: _ => some .caret
  | _ => none

/-- Characters that start an identifier. -/
def startsWord (c : Char) : Bool := Text.isAlphabetic c || c == '_'

/-- Characters that continue an identifier. -/
def continuesWord (c : Char) : Bool := Text.isAlphanumeric c || c == '_'

/-- An identifier or a reserved word. -/
def word (cs : List Char) : Lexeme × Nat :=
  let spelled := cs.takeWhile continuesWord
  let kind := match Keyword.ofWord? (String.ofList spelled) with
    | some k => .keyword k
    | none => .identifier
  (.plain kind, spelled.length)

/-- A parameter: its number follows the sign `@`, and is less than `2 ^ 64`. -/
def parameter (afterSign : List Char) : Lexeme × Nat :=
  let digits := afterSign.takeWhile Char.isDigit
  let lexeme : Lexeme :=
    if digits.isEmpty then .fault .invalidPlaceholder
    else
      match wordOfDigits? digits with
      | some index => .plain (.placeholder index)
      | none => .fault .invalidPlaceholder
  (lexeme, 1 + digits.length)

/-! ## String literals -/

/-- The part of a string literal behind the opening quote: the content, how many characters were
read, and whether a closing quote was found. -/
structure Quoted where
  content : List Char
  length : Nat
  closed : Bool
deriving DecidableEq, Repr

/-- One more character of content, read from some characters of text. -/
def Quoted.cons (c : Char) (taken : Nat) (q : Quoted) : Quoted :=
  ⟨c :: q.content, taken + q.length, q.closed⟩

/-- The character that a letter behind a backslash stands for. -/
def escape? : Char → Option Char
  | 'n' => some '\n'
  | 'r' => some '\r'
  | 't' => some '\t'
  | '0' => some (Char.ofNat 0)
  | '\\' => some '\\'
  | '\x22' => some '\x22'
  | '\x27' => some '\x27'
  | _ => none

/-- Reads a string literal behind its opening quote.  A doubled quote is a quote, and a backslash
that starts no escape is itself.  A backslash at the very end is not read. -/
def quoted (quote : Char) : List Char → Quoted
  | [] => ⟨[], 0, false⟩
  | c :: cs =>
    if c = quote then
      match cs with
      | d :: ds => if d = quote then (quoted quote ds).cons quote 2 else ⟨[], 1, true⟩
      | [] => ⟨[], 1, true⟩
    else if c = '\\' then
      match cs with
      | [] => ⟨[], 0, false⟩
      | d :: ds =>
        match escape? d with
        | some e => (quoted quote ds).cons e 2
        | none => (quoted quote (d :: ds)).cons '\\' 1
    else (quoted quote cs).cons c 1

/-- A string literal. -/
def string (quote : Char) (afterQuote : List Char) : Lexeme × Nat :=
  let q := quoted quote afterQuote
  if q.closed then (.literal (String.ofList q.content), 1 + q.length)
  else (.fault .unterminatedString, 1 + q.length)

/-! ## Numbers -/

/-- A hexadecimal digit. -/
def isHexDigit (c : Char) : Bool :=
  c.isDigit || ('a' ≤ c && c ≤ 'f') || ('A' ≤ c && c ≤ 'F')

/-- The number of characters of a fraction: a point and at least one digit. -/
def fractionLength : List Char → Nat
  | '.' :: cs =>
    let digits := cs.takeWhile Char.isDigit
    if digits.isEmpty then 0 else 1 + digits.length
  | _ => 0

/-- The number of characters of an exponent: the letter, perhaps a sign, and at least one
digit. -/
def exponentLength : List Char → Nat
  | c :: cs =>
    if c = 'e' || c = 'E' then
      let digits := (readSign cs).2
      let count := (digits.takeWhile Char.isDigit).length
      if count = 0 then 0 else 1 + (cs.length - digits.length) + count
    else 0
  | [] => 0

/-- The kind of a number with a suffix of letters: `u` and `l` make integers unsigned and long,
`f` and `d` make any decimal number real. -/
def numberKind? (hex real : Bool) (suffix : String) : Option TokenKind :=
  if suffix = "" then some (if real then .real else .integer)
  else if suffix ∈ ["u", "l", "ul", "lu"] then if real then none else some .integer
  else if suffix ∈ ["f", "d"] then if hex then none else some .real
  else none

/-- A number whose digits take some characters, with the letters that follow at once. -/
def suffixed (cs : List Char) (hex real : Bool) (length : Nat) : Lexeme × Nat :=
  let suffix := (cs.drop length).takeWhile Char.isAlpha
  let total := length + suffix.length
  match numberKind? hex real (Text.asciiLower (String.ofList suffix)) with
  | some kind => (.plain kind, total)
  | none => (.fault (.invalidNumber (String.ofList (cs.take total))), total)

/-- A decimal number. -/
def decimal (cs : List Char) : Lexeme × Nat :=
  let whole := (cs.takeWhile Char.isDigit).length
  let fraction := fractionLength (cs.drop whole)
  let exponent := exponentLength (cs.drop (whole + fraction))
  suffixed cs false (fraction + exponent != 0) (whole + fraction + exponent)

/-- A number: hexadecimal behind `0x`, or decimal. -/
def number (cs : List Char) : Lexeme × Nat :=
  match cs with
  | '0' :: x :: digits =>
    if x = 'x' || x = 'X' then
      let count := (digits.takeWhile isHexDigit).length
      if count = 0 then (.fault (.invalidNumber (String.ofList ['0', x])), 2)
      else suffixed cs true false (2 + count)
    else decimal cs
  | _ => decimal cs

/-! ## All lexemes -/

/-- What stands at the start of some characters, which do not start with a blank, and how many of
them it takes. -/
def scan (cs : List Char) : Lexeme × Nat :=
  match cs with
  | [] => (.plain .finish, 0)
  | c :: rest =>
    match symbolAt? cs with
    | some s => (.plain (.symbol s), s.text.length)
    | none =>
      if c = '@' then parameter rest
      else if c = '\x22' || c = '\x27' then string c rest
      else if startsWord c then word cs
      else if c.isDigit then number cs
      else (.fault (.unexpectedCharacter c), 0)

end Lexeme

/-- A position in a text, and the characters from there on. -/
structure Lexer where
  position : Nat
  rest : List Char
deriving DecidableEq, Repr

namespace Lexer

/-- The beginning of a text. -/
def ofText (text : String) : Lexer := ⟨0, text.toList⟩

/-- The position some characters further on. -/
def advance (l : Lexer) (n : Nat) : Lexer := ⟨l.position + n, l.rest.drop n⟩

/-- The position behind the blanks. -/
def skipBlanks (l : Lexer) : Lexer := l.advance (l.rest.takeWhile Text.isBlank).length

/-- Reads the token at the position.  At the end of the text this is the end token, however often
it is read. -/
def next (l : Lexer) : Except LexError Token × Lexer :=
  let l := l.skipBlanks
  let (lexeme, n) := Lexeme.scan l.rest
  let result := match lexeme with
    | .plain kind => .ok ⟨kind, String.ofList (l.rest.take n), l.position⟩
    | .literal content => .ok ⟨.string, content, l.position⟩
    | .fault cause => .error ⟨cause, l.position⟩
  (result, l.advance n)

/-- The tokens up to the end or to the first failure, and that failure.  `fuel` bounds their
number. -/
def run : (fuel : Nat) → Lexer → List Token × Option LexError
  | 0, _ => ([], none)
  | fuel + 1, l =>
    match l.next with
    | (.error e, _) => ([], some e)
    | (.ok t, l) =>
      if t.kind = .finish then ([t], none)
      else
        let (ts, e) := l.run fuel
        (t :: ts, e)

/-- The tokens of a text up to its end or to the first failure.  Every token but the last takes a
character, so there is at most one more token than characters. -/
def tokens (text : String) : List Token × Option LexError :=
  (ofText text).run (text.length + 1)

/-- All tokens of a text, or the first failure. -/
def tokenize (text : String) : Except LexError (List Token) :=
  match tokens text with
  | (ts, none) => .ok ts
  | (_, some e) => .error e

end Lexer

end TypedExpr
