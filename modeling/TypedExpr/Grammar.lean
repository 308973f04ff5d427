import TypedExpr.Binder
import TypedExpr.Overload

/-!
# The grammar

Texts are bound to typed trees in one pass over the tokens.  From the loosest to the tightest, the
levels are: the conditional, `or`, `and`, equality and membership, relations, sums with `|` and
`^`, products with `&` and the shifts, the unary signs, and the primaries with their members,
calls and indexers.  Binary operators of one level group to the left, and the conditional to the
right.

An expression inside brackets, of a lambda or of a branch is read by the argument `inner` of each
rule.  `Grammar.expression` supplies it with one level of nesting less; every level takes a token
of its own, so that the number of tokens bounds the depth.
-/

namespace TypedExpr.Grammar

variable [GuidFormat]

open Binder

/-! ## Literals -/

/-- The number that hexadecimal digits denote, if it fits into 64 bits. -/
def wordOfHexDigits? (cs : List Char) : Option Nat :=
  numberBelow? 16 (fun c => (Guid.hexValue? c).getD 0) 0x10000000000000000 cs

/-- The value of an integer literal: the first type that holds the number, among those that the
suffix admits. -/
def integerValue? (text : String) : Option Value :=
  let cs := (Text.asciiLower text).toList
  let (digits, number?) := match cs with
    | '0' :: 'x' :: rest => (rest, wordOfHexDigits?)
    | _ => (cs, wordOfDigits?)
  let suffix := String.ofList (digits.dropWhile fun c => c != 'u' && c != 'l')
  (number? (digits.takeWhile fun c => c != 'u' && c != 'l')).map fun n =>
    let fits (t : IntType) (suffixes : List String) : Bool := n ≤ t.max && suffixes.contains suffix
    let word (t : IntType) : Value := .int t (Word.wrap t n)
    if fits .int32 [""] then word .int32
    else if fits .uint32 ["", "u"] then word .uint32
    else if fits .int64 ["", "l"] then word .int64
    else word .uint64

/-- The value of a real literal: single with the suffix `f`, and double otherwise. -/
def realValue? (text : String) : Option Value :=
  let cs := (Text.asciiLower text).toList
  match cs.getLast? with
  | some 'f' => (readDouble? (String.ofList cs.dropLast)).map fun x => .single (Binary.toSingle x)
  | some 'd' => (readDouble? (String.ofList cs.dropLast)).map .double
  | _ => (readDouble? (String.ofList cs)).map .double

/-- A numeric literal, which has to have a value. -/
def numberLiteral (value? : String → Option Value) : Binder Expr := do
  let t ← advance
  match value? t.text with
  | some v => return Expr.ofValue v
  | none => throw (.lex ⟨.invalidNumber t.text, t.offset⟩)

/-! ## Members and calls -/

/-- A member of an expression; a constant does not depend on it. -/
def memberAccess (target : Expr) (m : Member) : Expr :=
  match m.kind with
  | .constant v => .literal v m.ty
  | _ => .member target m

/-- The symbols that stand for the context keywords, whether those are enabled or not. -/
def contextSymbols : List (String × String) :=
  [("it", "$"), ("parent", "^"), ("root", "~")]

/-- A reference to the enclosing scope, which has to exist. -/
def parentReference (keyword : String) (offset : Nat) : Binder Expr := do
  match (← scope).parent? with
  | some e => return e
  | none => fail (.noEnclosingScope keyword) offset

/-- Whether a name can be called on an expression of a type. -/
def isCallable (t : Ty) (name : String) : Binder Bool := do
  if t.element?.isSome && (SequenceMethod.ofName? name).isSome then return true
  else return !(← findMethods t name).isEmpty

/-- Expressions with commas between them. -/
def expressionList (inner : Binder Expr) : Binder (List Expr) := do
  let backwards ← separated (fun es => return (← inner) :: es) []
  return backwards.reverse

/-- Expressions between parentheses, with commas between them. -/
def argumentList (inner : Binder Expr) : Binder (List Expr) := do
  let _ ← expect (.symbol .leftParen)
  let args ←
    if ← isSymbol .rightParen then pure []
    else expressionList inner
  let _ ← expect (.symbol .rightParen)
  return args

/-- The name in front of the body of a lambda, if there is one. -/
def lambdaName? : Binder (Option String) := do
  if ← isKind .identifier then
    if (← peekKind) = .symbol .arrow then
      let name ← advance
      let _ ← advance
      return some name.text
    else return none
  else return none

/-- The body of a lambda over items of a type. -/
def lambdaBody (inner : Binder Expr) (item : Ty) : Binder Expr := do
  let name ← lambdaName?
  inScope item name inner

/-- The plain argument of a method of sequences over items of a type. -/
def sequenceValue (inner : Binder Expr) (target : Expr) (item : Ty) (m : SequenceMethod)
    (offset : Nat) : Binder Expr := do
  let e ← inner
  let expected := if m = .contains then item else .int .int32
  match e.promote? (← schema) expected true with
  | some p => return p.expr
  | none => fail (.noApplicableMethod m.name target.ty [e.ty]) offset

/-- A method of sequences with its lambda, given or implied, and its other argument. -/
def sequenceResult (target : Expr) (item : Ty) (m : SequenceMethod) (lambda argument : Option Expr)
    (bodyOffset : Nat) : Binder Expr := do
  let depth := (← scope).depth
  let implied : Option Expr := if m.impliesIdentity then some (.parameter depth item) else none
  let lambda := lambda.or implied
  if let some body := lambda then
    if !m.role.accepts body.ty then
      fail (.typeMismatch m.role.text body.ty) bodyOffset
  let ty := m.resultTy item (lambda.map Expr.ty)
  let s ← schema
  let lambda := if m = .sum then lambda.map fun body => body.coerceTo s ty else lambda
  return .sequenceCall target m lambda argument ty

/-- A call of a method of sequences. -/
def sequenceCall (inner : Binder Expr) (target : Expr) (item : Ty) (m : SequenceMethod)
    (offset : Nat) : Binder Expr := do
  let _ ← expect (.symbol .leftParen)
  let bodyOffset := (← current).offset
  let (lambda, argument) ← match m.argument with
    | .none => pure (none, none)
    | .value => do pure (none, some (← sequenceValue inner target item m offset))
    | .lambda => do pure (some (← lambdaBody inner item), none)
    | .optionalLambda => do
      if ← isSymbol .rightParen then pure (none, none)
      else pure (some (← lambdaBody inner item), none)
  let _ ← expect (.symbol .rightParen)
  sequenceResult target item m lambda argument bodyOffset

/-- The call of the method that takes the arguments best. -/
def overloadedCall (target : Expr) (name : String) (methods : List Method) (args : List Expr)
    (offset : Nat) : Binder Expr := do
  match Overload.resolve (← schema) methods args with
  | .ok chosen => return .call target chosen.method chosen.args
  | .error .noApplicable => fail (.noApplicableMethod name target.ty (args.map Expr.ty)) offset
  | .error (.ambiguous candidates) => fail (.ambiguousMethod name target.ty candidates) offset

/-- A call of a method. -/
def methodCall (inner : Binder Expr) (target : Expr) (name : String) (offset : Nat) :
    Binder Expr := do
  match target.ty.element?, SequenceMethod.ofName? name with
  | some item, some m => sequenceCall inner target item m offset
  | _, _ => do
    let methods ← findMethods target.ty name
    let args ← argumentList inner
    overloadedCall target name methods args offset

/-- What stands behind a dot. -/
def memberOrCall (inner : Binder Expr) (target : Expr) : Binder Expr := do
  let t ← expectIdentifier
  if ← isSymbol .leftParen then methodCall inner target t.text t.offset
  else
    match ← findMember? target.ty t.text with
    | some m => return memberAccess target m
    | none => fail (.unknownMember t.text target.ty) t.offset

/-- An index in brackets. -/
def indexer (inner : Binder Expr) (target : Expr) : Binder Expr := do
  let bracket ← expect (.symbol .leftBracket)
  let position ← inner
  let _ ← expect (.symbol .rightBracket)
  let item := if target.ty = .string then some .string else target.ty.element?
  match item, position.promote? (← schema) (.int .int32) false with
  | some item, some p => return .index target p.expr item
  | _, _ => fail (.noApplicableIndexer target.ty position.ty) bracket.offset

/-! ## Names -/

/-- A constant of a type, or the type applied to an expression. -/
def typeAccess (inner : Binder Expr) (ty : Ty) (name : String) (offset : Nat) : Binder Expr := do
  match (← current).kind with
  | .symbol .dot => do
    let _ ← advance
    let t ← expectIdentifier
    match ← findMember? ty t.text with
    | some ⟨_, constantTy, .constant v⟩ => return .literal v constantTy
    | _ => fail (.unknownMember t.text ty) t.offset
  | .symbol .leftParen => do
    match ← argumentList inner with
    | [operand] => bound (Binding.explicitConversion · operand ty offset)
    | args => fail (.noApplicableMethod name ty (args.map Expr.ty)) offset
  | _ => unexpected "'.' or '(' after type name"

/-- The choice between two expressions, written like a call. -/
def choice (inner : Binder Expr) (offset : Nat) : Binder Expr := do
  match ← argumentList inner with
  | [test, a, b] => bound (Binding.conditional · test a b offset)
  | args => fail (.noApplicableMethod "iif" (← scope).top.ty (args.map Expr.ty)) offset

/-- What a context keyword stands for, if the name is one. -/
def contextKeyword (name : String) (offset : Nat) : Binder (Option Expr) := do
  if Text.eqIgnoreCase name "it" then return some (← scope).current
  else if Text.eqIgnoreCase name "parent" then return some (← parentReference name offset)
  else if Text.eqIgnoreCase name "root" then return some (← scope).root
  else return none

/-- What a name stands for, if it is a member of the current item or can be called on it. -/
def implicitMember (inner : Binder Expr) (name : String) (offset : Nat) :
    Binder (Option Expr) := do
  let it := (← scope).current
  if ← isSymbol .leftParen then
    if ← isCallable it.ty name then return some (← methodCall inner it name offset)
    else return none
  else return (← findMember? it.ty name).map (memberAccess it)

/-- What a name stands for that is neither reserved nor the name of a lambda: a member of the
current item, or a type. -/
def memberOrType (inner : Binder Expr) (name : String) (offset : Nat) : Binder Expr := do
  if let some e ← implicitMember inner name offset then return e
  if let some ty ← findType? name then return ← typeAccess inner ty name offset
  match contextSymbols.find? fun k => Text.eqIgnoreCase k.1 name with
  | some (_, symbol) => fail (.contextKeywordDisabled name symbol) offset
  | none => fail (.unknownIdentifier name) offset

/-- What a name stands for that is no context keyword: a choice, an item with the name, a member or
a type. -/
def plainName (inner : Binder Expr) (name : String) (offset : Nat) : Binder Expr := do
  if Text.eqIgnoreCase name "iif" && (← isSymbol .leftParen) then
    return ← choice inner offset
  if let some e := (← scope).resolve? name then return e
  memberOrType inner name offset

/-- An expression that starts with a name. -/
def identifier (inner : Binder Expr) : Binder Expr := do
  let t ← advance
  if (← read).contextKeywords then
    if let some e ← contextKeyword t.text t.offset then return e
  plainName inner t.text t.offset

/-! ## Projections -/

/-- The name of a field that takes its name from its expression. -/
def inferredName? (s : Scope) : Expr → Option String
  | .member _ m => some m.name
  | .parameter depth _ => s.alias? depth
  | _ => none

/-- The name of the field of a projection. -/
def fieldName (e : Expr) : Binder String := do
  if ← isKind (.keyword .asName) then
    let _ ← advance
    return (← expectIdentifier).text
  else
    match inferredName? (← scope) e with
    | some name => return name
    | none => unexpected "'as' and a member name"

/-- One more field of a projection, with a name that differs from the others. -/
def projectionField (inner : Binder Expr) (fields : List (String × Expr)) :
    Binder (List (String × Expr)) := do
  let offset := (← current).offset
  let e ← inner
  let name ← fieldName e
  if fields.any fun f => Text.eqIgnoreCase f.1 name then fail (.duplicateMemberName name) offset
  else return fields ++ [(name, e)]

/-- A projection into a new record. -/
def projection (inner : Binder Expr) : Binder Expr := do
  let _ ← expect (.keyword .new)
  let _ ← expect (.symbol .leftParen)
  let fields ← separated (projectionField inner) []
  let _ ← expect (.symbol .rightParen)
  let d ← anonymousRecord (fields.map fun f => (f.1, f.2.ty))
  return .new d (fields.map Prod.snd)

/-! ## Primaries -/

/-- A literal with a known value. -/
def literal (v : Value) : Binder Expr := do
  let _ ← advance
  return Expr.ofValue v

/-- An expression in parentheses. -/
def parenthesized (inner : Binder Expr) : Binder Expr := do
  let _ ← advance
  let e ← inner
  let _ ← expect (.symbol .rightParen)
  return e

/-- The start of a primary. -/
def primaryStart (inner : Binder Expr) : Binder Expr := do
  let t ← current
  match t.kind with
  | .integer => numberLiteral integerValue?
  | .real => numberLiteral realValue?
  | .string => literal (.string t.text)
  | .keyword .trueValue => literal (.boolean true)
  | .keyword .falseValue => literal (.boolean false)
  | .keyword .nullValue => literal .null
  | .placeholder index => do
    let t ← advance
    liftM (Parameter.bind (← read).params index t.offset)
  | .symbol .dollar => do
    let _ ← advance
    return (← scope).current
  | .symbol .caret => do
    let t ← advance
    parentReference "^" t.offset
  | .symbol .tilde => do
    let _ ← advance
    return (← scope).root
  | .symbol .leftParen => parenthesized inner
  | .keyword .new => projection inner
  | .identifier => identifier inner
  | _ => unexpected "expression"

/-- One more member, call or index behind a primary. -/
def suffixStep (inner : Binder Expr) (e : Expr) : Binder (Option Expr) := do
  match (← current).kind with
  | .symbol .dot => do
    let _ ← advance
    return some (← memberOrCall inner e)
  | .symbol .leftBracket => return some (← indexer inner e)
  | _ => return none

/-- A primary with its members, calls and indices. -/
def primary (inner : Binder Expr) : Binder Expr := do
  let e ← primaryStart inner
  chain (suffixStep inner) e

/-! ## Operators -/

/-- The unary operator that a token is. -/
def unaryOp? : TokenKind → Option UnaryOp
  | .symbol .minus => some .negate
  | .symbol .bang | .keyword .not => some .not
  | _ => none

/-- One more unary operator in front of an operand, with its position. -/
def signStep (signs : List (UnaryOp × Nat)) : Binder (Option (List (UnaryOp × Nat))) := do
  match unaryOp? (← current).kind with
  | some op => do
    let t ← advance
    return some ((op, t.offset) :: signs)
  | none => return none

/-- A unary operator applied to its operand. -/
def applySign (e : Expr) (sign : UnaryOp × Nat) : Binder Expr :=
  match sign.1 with
  | .negate => bound (Binding.negate · e sign.2)
  | .not => bound (Binding.complement · e sign.2)

/-- Unary operators and their operand; the one next to the operand is applied first. -/
def unary (inner : Binder Expr) : Binder Expr := do
  let signs ← chain signStep []
  let e ← primary inner
  signs.foldlM applySign e

/-- One more operator of a level and its right operand. -/
def binaryStep (op? : TokenKind → Option BinaryOp) (operand : Binder Expr) (left : Expr) :
    Binder (Option Expr) := do
  match op? (← current).kind with
  | some op => do
    let t ← advance
    let right ← operand
    return some (← bound (Binding.binary · op left right t.offset))
  | none => return none

/-- Operands of a level with the operators between them, grouped to the left. -/
def binaryLevel (op? : TokenKind → Option BinaryOp) (operand : Binder Expr) : Binder Expr := do
  let left ← operand
  chain (binaryStep op? operand) left

/-- The operators of products. -/
def multiplicativeOp? : TokenKind → Option BinaryOp
  | .symbol .star => some (.arithmetic .mul)
  | .symbol .slash => some (.arithmetic .div)
  | .symbol .percent => some (.arithmetic .rem)
  | .symbol .amp => some (.bitwise .and)
  | .symbol .shiftLeft => some (.shift .left)
  | .symbol .shiftRight => some (.shift .right)
  | _ => none

/-- The operators of sums.  Behind an operand the caret is an operator. -/
def additiveOp? : TokenKind → Option BinaryOp
  | .symbol .plus => some (.arithmetic .add)
  | .symbol .minus => some (.arithmetic .sub)
  | .symbol .bar => some (.bitwise .or)
  | .symbol .caret => some (.bitwise .xor)
  | _ => none

/-- The relations. -/
def relationalOp? : TokenKind → Option BinaryOp
  | .symbol .less => some (.compare .lt)
  | .symbol .lessEqual => some (.compare .le)
  | .symbol .greater => some (.compare .gt)
  | .symbol .greaterEqual => some (.compare .ge)
  | _ => none

/-- Equality and inequality. -/
def equalityOp? : TokenKind → Option BinaryOp
  | .symbol .equal | .symbol .equalEqual => some (.compare .eq)
  | .symbol .notEqual | .symbol .lessGreater => some (.compare .ne)
  | _ => none

/-- The conjunction. -/
def andOp? : TokenKind → Option BinaryOp
  | .symbol .ampAmp | .keyword .and => some (.logical .and)
  | _ => none

/-- The disjunction. -/
def orOp? : TokenKind → Option BinaryOp
  | .symbol .barBar | .keyword .or => some (.logical .or)
  | _ => none

/-- Products. -/
def multiplicative (inner : Binder Expr) : Binder Expr :=
  binaryLevel multiplicativeOp? (unary inner)

/-- Sums. -/
def additive (inner : Binder Expr) : Binder Expr :=
  binaryLevel additiveOp? (multiplicative inner)

/-- Relations. -/
def relational (inner : Binder Expr) : Binder Expr :=
  binaryLevel relationalOp? (additive inner)

/-- The right side of a membership: a list of candidates in parentheses, or a sequence.  A list of
one sequence stands for that sequence. -/
def membership (inner : Binder Expr) (item : Expr) (offset : Nat) : Binder Expr := do
  if ← isSymbol .leftParen then
    let _ ← advance
    let candidates ← expressionList inner
    let _ ← expect (.symbol .rightParen)
    let asSequence : Option Expr := match candidates with
      | [e] => if e.ty.element?.isSome then some e else none
      | _ => none
    match asSequence with
    | some source => bound (Binding.contains · source item offset)
    | none =>
      match ← bound (Binding.oneOf · item candidates offset) with
      | some e => return e
      | none => unexpected "expression"
  else
    let source ← relational inner
    bound (Binding.contains · source item offset)

/-- One more equality or membership. -/
def equalityStep (inner : Binder Expr) (left : Expr) : Binder (Option Expr) := do
  if ← isKind (.keyword .isIn) then
    let t ← advance
    return some (← membership inner left t.offset)
  else binaryStep equalityOp? (relational inner) left

/-- Equalities and memberships. -/
def equality (inner : Binder Expr) : Binder Expr := do
  let left ← relational inner
  chain (equalityStep inner) left

/-- Conjunctions. -/
def conjunction (inner : Binder Expr) : Binder Expr :=
  binaryLevel andOp? (equality inner)

/-- Disjunctions. -/
def disjunction (inner : Binder Expr) : Binder Expr :=
  binaryLevel orOp? (conjunction inner)

/-- A conditional, or what its test may be. -/
def conditional (inner : Binder Expr) : Binder Expr := do
  let offset := (← current).offset
  let test ← disjunction inner
  if ← isSymbol .question then
    let _ ← advance
    let a ← inner
    let _ ← expect (.symbol .colon)
    let b ← inner
    bound (Binding.conditional · test a b offset)
  else return test

/-! ## Expressions -/

/-- An expression with at most `depth` levels of nesting. -/
def expression : (depth : Nat) → Binder Expr
  | 0 => unexpected "expression"
  | depth + 1 => conditional (expression depth)

/-- An expression.  Every level of nesting takes a token, so there are no more levels than
tokens. -/
def anyExpression : Binder Expr := do
  expression ((← tokenCount) + 1)

/-- A whole text as one expression. -/
def whole : Binder Expr := do
  let e ← anyExpression
  expectEnd
  return e

/-- The direction of an ordering key; ascending unless told otherwise. -/
def direction : Binder Bool := do
  let t ← current
  if t.isWord "asc" || t.isWord "ascending" then
    let _ ← advance
    return false
  else if t.isWord "desc" || t.isWord "descending" then
    let _ ← advance
    return true
  else return false

/-- One more ordering key; `true` stands for descending. -/
def orderingClause (clauses : List (Expr × Bool)) : Binder (List (Expr × Bool)) := do
  let offset := (← current).offset
  let e ← anyExpression
  if !e.ty.isComparable then fail (.typeMismatch "an ordered type" e.ty) offset
  let descending ← direction
  return clauses ++ [(e, descending)]

/-- A whole text as ordering keys with commas between them. -/
def ordering : Binder (List (Expr × Bool)) := do
  let clauses ← separated orderingClause []
  expectEnd
  return clauses

end TypedExpr.Grammar
