import TypedExpr.Compile
import TypedExpr.Proofs.Precedence.Pieces

/-!
# Operator trees

Trees of operators over single tokens, what they are bound to, and how they are written with as few
parentheses as the levels of the operators allow.

* `OperatorTree` — the trees; a leaf is an `Atom`.
* `OperatorTree.fold` — the tree bound from the leaves up, from left to right.
* `OperatorTree.render` — the tree as a text.
-/

namespace TypedExpr

variable {format : GuidFormat}

/-! ## Levels -/

/-- The level of a binary operator: `||`, `&&`, equality, relations, sums and products, from the
loosest to the tightest.  The conditional is below them, unary operators and primaries above. -/
def BinaryOp.level : BinaryOp → Nat
  | .logical .or => 1
  | .logical .and => 2
  | .compare .eq | .compare .ne => 3
  | .compare _ => 4
  | .arithmetic .add | .arithmetic .sub | .bitwise .or | .bitwise .xor | .concat => 5
  | .arithmetic _ | .bitwise .and | .shift _ => 6

/-- How a binary operator is written. -/
def BinaryOp.sign : BinaryOp → Symbol
  | .arithmetic .add | .concat => .plus
  | .arithmetic .sub => .minus
  | .arithmetic .mul => .star
  | .arithmetic .div => .slash
  | .arithmetic .rem => .percent
  | .bitwise .and => .amp
  | .bitwise .or => .bar
  | .bitwise .xor => .caret
  | .shift .left => .shiftLeft
  | .shift .right => .shiftRight
  | .compare .eq => .equal
  | .compare .ne => .notEqual
  | .compare .lt => .less
  | .compare .le => .lessEqual
  | .compare .gt => .greater
  | .compare .ge => .greaterEqual
  | .logical .and => .ampAmp
  | .logical .or => .barBar

/-- How a unary operator is written. -/
def UnaryOp.sign : UnaryOp → Symbol
  | .not => .bang
  | .negate => .minus

/-! ## Trees -/

/-- Whether a token of the kind can be an operand by itself. -/
def TokenKind.isAtom : TokenKind → Bool
  | .integer | .real | .string | .placeholder _ | .identifier => true
  | .keyword .trueValue | .keyword .falseValue | .keyword .nullValue => true
  | .symbol .dollar | .symbol .caret | .symbol .tilde => true
  | _ => false

/-- A piece that can be an operand by itself: a literal, a parameter, a name, or the sign of a
scope. -/
structure Atom extends Piece where
  atomic : token.kind.isAtom = true

/-- The sign of a scope. -/
def Atom.sign (s : Symbol) (atomic : (TokenKind.symbol s).isAtom = true) : Atom :=
  ⟨Piece.sign s, atomic⟩

/-- Operators over atoms. -/
inductive OperatorTree
  | leaf (a : Atom)
  | unary (op : UnaryOp) (operand : OperatorTree)
  | binary (op : BinaryOp) (left right : OperatorTree)
  | conditional (test whenTrue whenFalse : OperatorTree)

namespace OperatorTree

/-- The level of the outermost operator. -/
def level : OperatorTree → Nat
  | leaf _ => 8
  | unary .. => 7
  | binary op .. => op.level
  | conditional .. => 0

/-! ## Binding -/

/-- The rule of binding of a unary operator. -/
def bindUnary [GuidFormat] (s : Schema) : UnaryOp → Expr → Except CompileError Expr
  | .negate, e => Binding.negate s e 0
  | .not, e => Binding.complement s e 0

/-- The tree bound from the leaves up, from left to right.  A leaf is what its text is read as in
place of the text of the source; errors have no position. -/
def fold (source : Source) (w : Workspace) : OperatorTree → Except CompileError Expr
  | leaf a => (({ source with text := a.text } : Source).parse w).1
  | unary op x => do
    let e ← x.fold source w
    bindUnary w.registry.schema op e
  | binary op l r => do
    let a ← l.fold source w
    let b ← r.fold source w
    Binding.binary w.registry.schema op a b 0
  | conditional c x y => do
    let test ← c.fold source w
    let a ← x.fold source w
    let b ← y.fold source w
    Binding.conditional w.registry.schema test a b 0

/-! ## Writing -/

/-- Parentheses around pieces, if they are needed. -/
def enclose (needed : Bool) (ps : List Piece) : List Piece :=
  if needed then Piece.sign .leftParen :: (ps ++ [Piece.sign .rightParen]) else ps

/-- The pieces of a tree.  The operand of an operator is in parentheses if its own operator binds
looser, and a right operand also if both are of one level; the branches of a conditional need
none. -/
def pieces : OperatorTree → List Piece
  | leaf a => [a.toPiece]
  | unary op x => Piece.sign op.sign :: enclose (x.level < 7) x.pieces
  | binary op l r =>
    enclose (l.level < op.level) l.pieces ++
      Piece.sign op.sign :: enclose (r.level < op.level + 1) r.pieces
  | conditional c x y =>
    enclose (c.level < 1) c.pieces ++ Piece.sign .question :: (x.pieces ++
      Piece.sign .colon :: y.pieces)

/-- The tree as a text, with spaces between its tokens. -/
def render (t : OperatorTree) : String := Piece.join t.pieces

end OperatorTree

end TypedExpr
