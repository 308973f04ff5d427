import TypedExpr.Token.Lexer
import TypedExpr.Ty

/-!
# Errors of compilation

Why a text is no expression, and at which position of the text.

* `ParseCause`, `ParseError` — a cause, and the position of the token at which it shows.
* `CompileError` — a failure to read a token, or to make sense of the tokens.
-/

namespace TypedExpr

/-- The causes for which tokens make no expression. -/
inductive ParseCause
  | unexpectedToken (expected found : String)
  | unknownIdentifier (name : String)
  | unknownMember (member : String) (ty : Ty)
  | noApplicableMethod (method : String) (ty : Ty) (arguments : List Ty)
  | ambiguousMethod (method : String) (ty : Ty) (candidates : List String)
  | incompatibleOperands (operator : String) (left right : Ty)
  | incompatibleOperand (operator : String) (operand : Ty)
  | placeholderOutOfRange (index count : Nat)
  | contextKeywordDisabled (keyword symbol : String)
  | noEnclosingScope (keyword : String)
  | typeMismatch (expected : String) (actual : Ty)
  | invalidConversion (source target : Ty)
  | noApplicableIndexer (ty index : Ty)
  | duplicateMemberName (name : String)
deriving DecidableEq

/-- A cause, and the position of the token at which it shows. -/
structure ParseError where
  cause : ParseCause
  offset : Nat
deriving DecidableEq

/-- The wording of an error. -/
def ParseError.message (e : ParseError) : String :=
  let place := s!"(offset {e.offset})"
  match e.cause with
  | .unexpectedToken expected found =>
    s!"Expected {expected} at offset {e.offset}, found '{found}'"
  | .unknownIdentifier name => s!"Unknown identifier '{name}' at offset {e.offset}"
  | .unknownMember member ty =>
    s!"No property or field '{member}' exists in type '{ty.text}' {place}"
  | .noApplicableMethod method ty arguments =>
    let types := ", ".intercalate (arguments.map Ty.text)
    s!"No applicable method '{method}' exists in type '{ty.text}' for arguments ({types}) {place}"
  | .ambiguousMethod method ty candidates =>
    let names := ", ".intercalate candidates
    s!"Ambiguous invocation of method '{method}' in type '{ty.text}'; candidates: {names} {place}"
  | .incompatibleOperands operator left right =>
    s!"Operator '{operator}' incompatible with operand types '{left.text}' and '{right.text}' " ++
      place
  | .incompatibleOperand operator operand =>
    s!"Operator '{operator}' incompatible with operand type '{operand.text}' {place}"
  | .placeholderOutOfRange index count =>
    s!"Parameter @{index} is out of range; {count} parameter(s) supplied {place}"
  | .contextKeywordDisabled keyword symbol =>
    s!"Context keyword '{keyword}' is disabled; use '{symbol}' instead {place}"
  | .noEnclosingScope keyword => s!"'{keyword}' has no enclosing scope at offset {e.offset}"
  | .typeMismatch expected actual =>
    s!"Expression of type '{actual.text}' expected to be '{expected}' {place}"
  | .invalidConversion source target =>
    s!"Cannot convert '{source.text}' to type '{target.text}' {place}"
  | .noApplicableIndexer ty index =>
    s!"Type '{ty.text}' has no indexer accepting '{index.text}' {place}"
  | .duplicateMemberName name =>
    s!"Duplicate member name '{name}' in anonymous type {place}"

/-- A failure of compilation. -/
inductive CompileError
  | lex (e : LexError)
  | parse (e : ParseError)
deriving DecidableEq

namespace CompileError

/-- The position of the failure in the text. -/
def offset : CompileError → Nat
  | lex e => e.offset
  | parse e => e.offset

/-- The wording of a failure. -/
def message : CompileError → String
  | lex e => e.message
  | parse e => e.message

/-- Whether no token could be read. -/
def isLexical : CompileError → Bool
  | lex _ => true
  | parse _ => false

/-- An error found while making sense of the tokens. -/
def ofCause (cause : ParseCause) (offset : Nat) : CompileError :=
  parse ⟨cause, offset⟩

end CompileError

end TypedExpr
