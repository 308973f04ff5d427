/-!
# Errors of evaluation

Each constructor of `EvalError` is one cause of failure; `EvalError.message` words it.  The place
of a failure inside an expression is an `EvalSite`.
-/

namespace TypedExpr

/-- The part of an expression whose evaluation failed. -/
inductive EvalSite
  | operator (symbol : String)
  | predicate
  | member (name : String)
  | call (name : String)
  | argument (index : Nat)
  | conversion (target : String)
  | indexer
  | stringReceiver
  | valueOfNullable
deriving DecidableEq, Repr

/-- The wording of a place in messages. -/
def EvalSite.text : EvalSite → String
  | operator symbol => s!"operator '{symbol}'"
  | predicate => "predicate"
  | member name => s!"member '{name}'"
  | call name => s!"call to '{name}'"
  | argument index => s!"argument {index}"
  | conversion target => s!"conversion to {target}"
  | indexer => "indexer"
  | stringReceiver => "string receiver"
  | valueOfNullable => "Nullable object must have a value"

/-- The causes for which an evaluation fails. -/
inductive EvalError
  | nullReference (site : EvalSite)
  | divisionByZero
  | emptySequence
  | indexOutOfRange (index : Int) (length : Nat)
  | invalidFormat (value target : String)
  | invalidCast (source target : String)
  | typeMismatch (expected actual : String) (site : EvalSite)
  | noFrame (depth : Nat)
  | missingField (field record : String)
  | failed (message : String)
deriving DecidableEq, Repr

/-- The wording of an error. -/
def EvalError.message : EvalError → String
  | nullReference site => s!"Null reference while evaluating {site.text}"
  | divisionByZero => "Division by zero"
  | emptySequence => "Sequence contains no elements"
  | indexOutOfRange index length => s!"Index {index} out of range for length {length}"
  | invalidFormat value target => s!"Cannot convert '{value}' to {target}"
  | invalidCast source target => s!"Invalid cast from {source} to {target}"
  | typeMismatch expected actual site =>
    s!"Type mismatch in {site.text}: expected {expected}, got {actual}"
  | noFrame depth => s!"Expression evaluation error: no scope frame at depth {depth}"
  | missingField field record =>
    s!"Expression evaluation error: field '{field}' missing on {record}"
  | failed message => s!"Expression evaluation error: {message}"

end TypedExpr
