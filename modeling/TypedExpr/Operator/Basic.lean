/-!
# Operators

The operators of expressions, grouped by what they do.

* `BinaryOp.symbol`, `UnaryOp.symbol` — how an operator is written in messages.
* `CompareOp.accepts` — the orderings that satisfy a comparison.
* `CompareOp.swap` — the comparison with its sides exchanged.
-/

namespace TypedExpr

/-- Operators that compute a number. -/
inductive ArithmeticOp
  | add | sub | mul | div | rem
deriving DecidableEq, Repr

/-- Operators on bits, and on truth values without a short circuit. -/
inductive BitwiseOp
  | and | or | xor
deriving DecidableEq, Repr

/-- The direction of a shift. -/
inductive ShiftOp
  | left | right
deriving DecidableEq, Repr

/-- Comparisons. -/
inductive CompareOp
  | eq | ne | lt | le | gt | ge
deriving DecidableEq, Repr

/-- Operators on truth values with a short circuit. -/
inductive LogicalOp
  | and | or
deriving DecidableEq, Repr

/-- All binary operators; `concat` joins texts and is written as a sum. -/
inductive BinaryOp
  | arithmetic (op : ArithmeticOp)
  | bitwise (op : BitwiseOp)
  | shift (op : ShiftOp)
  | compare (op : CompareOp)
  | logical (op : LogicalOp)
  | concat
deriving DecidableEq, Repr

/-- The unary operators; `not` is the complement on integers. -/
inductive UnaryOp
  | not | negate
deriving DecidableEq, Repr

/-- The sign of an arithmetic operator. -/
def ArithmeticOp.symbol : ArithmeticOp → String
  | add => "+"
  | sub => "-"
  | mul => "*"
  | div => "/"
  | rem => "%"

/-- The sign of a bit operator. -/
def BitwiseOp.symbol : BitwiseOp → String
  | and => "&"
  | or => "|"
  | xor => "^"

/-- The sign of a shift. -/
def ShiftOp.symbol : ShiftOp → String
  | left => "<<"
  | right => ">>"

/-- The sign of a logical operator. -/
def LogicalOp.symbol : LogicalOp → String
  | and => "&&"
  | or => "||"

namespace CompareOp

/-- The sign of a comparison. -/
def symbol : CompareOp → String
  | eq => "="
  | ne => "!="
  | lt => "<"
  | le => "<="
  | gt => ">"
  | ge => ">="

/-- Whether the comparison is a test for equality or inequality. -/
def isEquality : CompareOp → Bool
  | eq | ne => true
  | _ => false

/-- The orderings of the operands that satisfy the comparison. -/
def accepts : CompareOp → Ordering → Bool
  | eq, o => o == .eq
  | ne, o => o != .eq
  | lt, o => o == .lt
  | le, o => o != .gt
  | gt, o => o == .gt
  | ge, o => o != .lt

/-- The comparison that holds of the exchanged operands. -/
def swap : CompareOp → CompareOp
  | lt => gt
  | le => ge
  | gt => lt
  | ge => le
  | op => op

theorem accepts_swap (op : CompareOp) (o : Ordering) :
    op.swap.accepts o.swap = op.accepts o := by
  cases op <;> cases o <;> rfl

end CompareOp

/-- The sign of a binary operator. -/
def BinaryOp.symbol : BinaryOp → String
  | arithmetic op => op.symbol
  | bitwise op => op.symbol
  | shift op => op.symbol
  | compare op => op.symbol
  | logical op => op.symbol
  | concat => "+"

/-- The orderings of the operands that satisfy an operator; only comparisons are ever satisfied. -/
def BinaryOp.accepts : BinaryOp → Ordering → Bool
  | compare op, o => op.accepts o
  | _, _ => false

/-- Whether the operator is a comparison. -/
def BinaryOp.isComparison : BinaryOp → Bool
  | compare _ => true
  | _ => false

/-- Whether the operator is a test for equality or inequality. -/
def BinaryOp.isEquality : BinaryOp → Bool
  | compare op => op.isEquality
  | _ => false

/-- Whether the operator computes a number. -/
def BinaryOp.isArithmetic : BinaryOp → Bool
  | arithmetic _ => true
  | _ => false

/-- Whether the operator works on bits, shifts aside. -/
def BinaryOp.isBitwise : BinaryOp → Bool
  | bitwise _ => true
  | _ => false

/-- Whether the operator is a shift. -/
def BinaryOp.isShift : BinaryOp → Bool
  | shift _ => true
  | _ => false

/-- The sign of a unary operator. -/
def UnaryOp.symbol : UnaryOp → String
  | not => "!"
  | negate => "-"

end TypedExpr
