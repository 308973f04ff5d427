import TypedExpr.Expr.Evaluate
import TypedExpr.Grammar

/-!
# Compilation

A text over elements of a type, with its parameters, becomes an expression that can be evaluated
on elements.

* `Source.parse` — any expression.
* `Source.compilePredicate`, `Source.compileProjection` — an expression of a wanted type.
* `Expr.invoke`, `Expr.test` — evaluation on an element.
-/

namespace TypedExpr

variable [GuidFormat]

/-- A text, the type of the elements that it is about, its parameters, and whether the context
keywords may be used in it. -/
structure Source where
  text : String
  element : Ty
  params : List Parameter
  contextKeywords : Bool

namespace Source

/-- Runs a part of the grammar on a text.  Nothing is read if the first token cannot be. -/
def run {α : Type} (source : Source) (b : Binder α) (w : Workspace) :
    Except CompileError α × Workspace :=
  match Lexer.tokens source.text with
  | ([], some e) => (.error (.lex e), w)
  | (tokens, fault) =>
    let context : BindContext :=
      ⟨.ofElement source.element, source.params, source.contextKeywords, fault, tokens.length⟩
    let (result, s) := b context ⟨tokens, w⟩
    (result, s.workspace)

/-- The whole text as an expression. -/
def parse (source : Source) (w : Workspace) : Except CompileError Expr × Workspace :=
  source.run Grammar.whole w

/-- The whole text as ordering keys; `true` stands for descending. -/
def parseOrdering (source : Source) (w : Workspace) :
    Except CompileError (List (Expr × Bool)) × Workspace :=
  source.run Grammar.ordering w

/-- The error that a whole text has another type than expected; its position is that of the whole
text. -/
def unexpectedTy (expected : Ty) (actual : Ty) : Except CompileError Expr :=
  .error (.ofCause (.typeMismatch expected.text actual) 0)

/-- The whole text as a truth value. -/
def compilePredicate (source : Source) (w : Workspace) : Except CompileError Expr × Workspace :=
  let (result, w) := source.parse w
  (result.bind fun e => if e.ty = .boolean then .ok e else unexpectedTy .boolean e.ty, w)

/-- The whole text as an expression that is brought to a type, if one is given. -/
def compileProjection (source : Source) (target? : Option Ty) (w : Workspace) :
    Except CompileError Expr × Workspace :=
  let (result, w) := source.parse w
  (result.bind fun e =>
    match target? with
    | none => .ok e
    | some t =>
      match e.promote? w.registry.schema t true with
      | some p => .ok p.expr
      | none => unexpectedTy t e.ty, w)

end Source

namespace Expr

/-- The value of the expression for an element. -/
def invoke (e : Expr) (element : Value) : Eval Value := e.evaluate [element]

/-- The values of the expression for several elements, as a sequence. -/
def invokeAll (e : Expr) (elements : List Value) : Eval Value := do
  Eval.newSequence (← Items.selectAll e.invoke elements)

/-- The description of a compiled expression. -/
def compiledText (e : Expr) : String := s!"CompiledLambda({e.ty.text})"

/-- The truth value of the expression for an element. -/
def test (e : Expr) (element : Value) : Eval Bool := do
  liftM (Items.truth (← e.invoke element))

end Expr

end TypedExpr
