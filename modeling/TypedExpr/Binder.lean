import TypedExpr.Binding
import TypedExpr.Parameter
import TypedExpr.Registry
import TypedExpr.Scope

/-!
# The binder

What the rules of the grammar work with.  A `Binder` reads tokens from the front of a list, knows
the scope and the parameters, asks the registry for members, and numbers the records that
projections make.  The registry and the numbering outlive a failure.

The first of the remaining tokens is the current one.  Behind the last token lies the end of the
text, or a place where no token can be read; such a place is an error only when it is reached.

* `Binder.current`, `Binder.advance`, `Binder.expect` — the tokens.
* `Binder.findMember?`, `Binder.findMethods`, `Binder.findType?` — the registry.
* `Binder.chain`, `Binder.separated` — repetition.
-/

namespace TypedExpr

variable [GuidFormat]

/-- What a compilation works on and leaves behind: the registry, and the number of the next record
that a projection makes. -/
structure Workspace where
  registry : Registry
  nextAnonymous : Nat

namespace Workspace

/-- Nothing is declared, and no projection was made. -/
def empty : Workspace := ⟨Registry.new Schema.empty, 0⟩

/-- The members of a type. -/
def members (w : Workspace) (t : Ty) : MemberTable × Workspace :=
  let (table, registry) := w.registry.members t
  (table, { w with registry := registry })

/-- The exposed type of a name. -/
def findType (w : Workspace) (name : String) (context : Ty) : Option Ty × Workspace :=
  let (t?, registry) := w.registry.findType name context
  (t?, { w with registry := registry })

end Workspace

/-- What stays the same while tokens are read, except for the scope, which grows inside of
lambdas.  The number of tokens of the whole text bounds every repetition and every nesting. -/
structure BindContext where
  scope : Scope
  params : List Parameter
  contextKeywords : Bool
  fault : Option LexError
  tokenCount : Nat

/-- The remaining tokens and the workspace. -/
structure BindState where
  tokens : List Token
  workspace : Workspace

/-- A part of the grammar that gives a result or fails. -/
abbrev Binder := ReaderT BindContext (ExceptT CompileError (StateM BindState))

namespace Binder

/-! ## Tokens -/

/-- The first of some remaining tokens; without any, the end of the text. -/
def headToken (tokens : List Token) : Token :=
  tokens.headD ⟨.finish, "", 0⟩

/-- The current token. -/
def current : Binder Token := do
  return headToken (← get).tokens

/-- The number of tokens of the whole text. -/
def tokenCount : Binder Nat := do
  return (← read).tokenCount

/-- Fails if a token that cannot be read lies next. -/
def checkFault : Binder Unit := do
  match (← read).fault with
  | some e => throw (.lex e)
  | none => return ()

/-- Gives the current token and goes on to the next one.  The end of the text is never left. -/
def advance : Binder Token := do
  let s ← get
  match s.tokens with
  | t :: u :: rest =>
    set { s with tokens := u :: rest }
    return t
  | tokens =>
    checkFault
    return headToken tokens

/-- The kind of the token behind the current one. -/
def peekKind : Binder TokenKind := do
  match (← get).tokens with
  | _ :: u :: _ => return u.kind
  | _ =>
    checkFault
    return .finish

/-- Fails with an error at a position. -/
def fail {α : Type} (cause : ParseCause) (offset : Nat) : Binder α :=
  throw (.ofCause cause offset)

/-- Fails because something else was expected in place of the current token. -/
def unexpected {α : Type} (expected : String) : Binder α := do
  let t ← current
  let found := if t.kind = .finish then t.kind.describe else t.text
  fail (.unexpectedToken expected found) t.offset

/-- Whether the current token is of a kind. -/
def isKind (kind : TokenKind) : Binder Bool := do
  return (← current).kind == kind

/-- Whether the current token is a sign. -/
def isSymbol (s : Symbol) : Binder Bool := isKind (.symbol s)

/-- The current token, which has to be of a kind. -/
def expect (kind : TokenKind) : Binder Token := do
  if ← isKind kind then advance else unexpected kind.describe

/-- The current token, which has to be an identifier. -/
def expectIdentifier : Binder Token := expect .identifier

/-- The current token has to be the end of the text. -/
def expectEnd : Binder Unit := do
  if ← isKind .finish then return () else unexpected "operator or end of expression"

/-! ## Repetition -/

/-- Goes from a value to the next one as long as there is one.  `fuel` bounds the steps. -/
def chainFrom {α : Type} (step : α → Binder (Option α)) : (fuel : Nat) → α → Binder α
  | 0, a => return a
  | fuel + 1, a => do
    match ← step a with
    | some b => chainFrom step fuel b
    | none => return a

/-- Goes from a value to the next one as long as there is one, where every step takes a token. -/
def chain {α : Type} (step : α → Binder (Option α)) (a : α) : Binder α := do
  chainFrom step (← tokenCount) a

/-- Extends a value by one item after the other as long as commas follow.  `fuel` bounds the
items. -/
def separatedFrom {α : Type} (item : α → Binder α) : (fuel : Nat) → α → Binder α
  | 0, a => return a
  | fuel + 1, a => do
    let b ← item a
    if ← isSymbol .comma then
      let _ ← advance
      separatedFrom item fuel b
    else return b

/-- Extends a value by one item after the other as long as commas follow, where every item takes a
token. -/
def separated {α : Type} (item : α → Binder α) (a : α) : Binder α := do
  separatedFrom item (← tokenCount) a

/-! ## The scope and the registry -/

/-- The scope. -/
def scope : Binder Scope := do
  return (← read).scope

/-- Runs a part of the grammar inside a lambda. -/
def inScope {α : Type} (ty : Ty) (alias? : Option String) (b : Binder α) : Binder α :=
  withReader (fun c => { c with scope := c.scope.push ty alias? }) b

/-- The schema. -/
def schema : Binder Schema := do
  return (← get).workspace.registry.schema

/-- The members of a type. -/
def members (t : Ty) : Binder MemberTable := do
  let s ← get
  let (table, workspace) := s.workspace.members t
  set { s with workspace := workspace }
  return table

/-- The member of a name. -/
def findMember? (t : Ty) (name : String) : Binder (Option Member) := do
  return (← members t).findMember? name

/-- The methods of a name. -/
def findMethods (t : Ty) (name : String) : Binder (List Method) := do
  return (← members t).findMethods name

/-- The type of a name: exposed, or else predefined. -/
def findType? (name : String) : Binder (Option Ty) := do
  let context := (← scope).base.ty
  let s ← get
  let (t?, workspace) := s.workspace.findType name context
  set { s with workspace := workspace }
  return t?.or (Ty.predefined? name)

/-- Lets a rule of binding, which needs nothing but the schema, decide. -/
def bound {α : Type} (rule : Schema → Except CompileError α) : Binder α := do
  liftM (rule (← schema))

/-- A new record with the given fields, compared by content. -/
def anonymousRecord (fields : List (String × Ty)) : Binder RecordDef := do
  let s ← get
  let n := s.workspace.nextAnonymous
  set { s with workspace := { s.workspace with nextAnonymous := n + 1 } }
  return ⟨.anonymous n, s!"AnonymousType{n}", fields, .structural, false⟩

end Binder

end TypedExpr
