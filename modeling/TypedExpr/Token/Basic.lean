import TypedExpr.Text.LetterCase

/-!
# Tokens

The words and signs that an expression is written with.  A token remembers its text and the
position of its first character.

* `Keyword`, `Symbol` — the reserved words and the signs, with their spelling.
* `TokenKind.describe` — what a kind of token is called in messages.
* `Token.isWord` — an identifier compared with a word in any letter case.
-/

namespace TypedExpr

/-- The reserved words, in any letter case. -/
inductive Keyword
  | trueValue | falseValue | nullValue
  | and | or | not
  | isIn | new | asName
deriving DecidableEq, Repr

namespace Keyword

/-- The spelling in small letters. -/
def word : Keyword → String
  | trueValue => "true"
  | falseValue => "false"
  | nullValue => "null"
  | and => "and"
  | or => "or"
  | not => "not"
  | isIn => "in"
  | new => "new"
  | asName => "as"

/-- All reserved words. -/
def list : List Keyword :=
  [trueValue, falseValue, nullValue, and, or, not, isIn, new, asName]

/-- The reserved word that a text is, in any letter case. -/
def ofWord? (s : String) : Option Keyword :=
  list.find? fun k => k.word == Text.asciiLower s

end Keyword

/-- The signs.  The caret stands for the enclosing scope at the start of an operand, and for
exclusive or behind one. -/
inductive Symbol
  | dollar | tilde | caret
  | plus | minus | star | slash | percent
  | amp | ampAmp | bar | barBar | bang
  | equal | equalEqual | notEqual | lessGreater
  | less | lessEqual | greater | greaterEqual | shiftLeft | shiftRight
  | question | colon | arrow
  | leftParen | rightParen | leftBracket | rightBracket | comma | dot
deriving DecidableEq, Repr

/-- The spelling of a sign. -/
def Symbol.text : Symbol → String
  | dollar => "$"
  | tilde => "~"
  | caret => "^"
  | plus => "+"
  | minus => "-"
  | star => "*"
  | slash => "/"
  | percent => "%"
  | amp => "&"
  | ampAmp => "&&"
  | bar => "|"
  | barBar => "||"
  | bang => "!"
  | equal => "="
  | equalEqual => "=="
  | notEqual => "!="
  | lessGreater => "<>"
  | less => "<"
  | lessEqual => "<="
  | greater => ">"
  | greaterEqual => ">="
  | shiftLeft => "<<"
  | shiftRight => ">>"
  | question => "?"
  | colon => ":"
  | arrow => "=>"
  | leftParen => "("
  | rightParen => ")"
  | leftBracket => "["
  | rightBracket => "]"
  | comma => ","
  | dot => "."

/-- The kinds of tokens.  A placeholder carries the number of its parameter. -/
inductive TokenKind
  | identifier
  | integer
  | real
  | string
  | placeholder (index : Nat)
  | keyword (k : Keyword)
  | symbol (s : Symbol)
  | finish
deriving DecidableEq, Repr

namespace TokenKind

/-- Whether the kind is a reserved word. -/
def isKeyword : TokenKind → Bool
  | keyword _ => true
  | _ => false

/-- What the kind is called in messages. -/
def describe : TokenKind → String
  | identifier => "identifier"
  | integer => "integer literal"
  | real => "real literal"
  | string => "string literal"
  | placeholder _ => "parameter placeholder"
  | keyword k => s!"'{k.word}'"
  | symbol s => s!"'{s.text}'"
  | finish => "end of expression"

end TokenKind

/-- A token with its text and the position of its first character.  The text of a string literal
is its content. -/
structure Token where
  kind : TokenKind
  text : String
  offset : Nat
deriving DecidableEq, Repr

namespace Token

/-- Whether the token is an identifier spelled like a word, in any letter case. -/
def isWord (t : Token) (word : String) : Bool :=
  t.kind == .identifier && Text.eqIgnoreCase t.text word

/-- Whether the token is that sign. -/
def isSymbol (t : Token) (s : Symbol) : Bool :=
  t.kind == .symbol s

/-- Whether the token is that reserved word. -/
def isKeyword (t : Token) (k : Keyword) : Bool :=
  t.kind == .keyword k

end Token

end TypedExpr
