import TypedExpr.Numeric.IntType

/-!
# Arithmetic on words

All operations are total and wrap.  Division and remainder truncate toward zero; the caller
excludes a zero divisor.  Bit operations act on the two's complement representation, and a shift
count is taken modulo the width.
-/

namespace TypedExpr.Word

variable {t : IntType}

/-- The sum, wrapped. -/
def add (a b : Word t) : Word t := wrap t (a.val + b.val)

/-- The difference, wrapped. -/
def sub (a b : Word t) : Word t := wrap t (a.val - b.val)

/-- The product, wrapped. -/
def mul (a b : Word t) : Word t := wrap t (a.val * b.val)

/-- The quotient truncated toward zero, wrapped. -/
def div (a b : Word t) : Word t := wrap t (a.val.tdiv b.val)

/-- The remainder with the sign of the dividend. -/
def rem (a b : Word t) : Word t := wrap t (a.val.tmod b.val)

/-- The negative, wrapped. -/
def neg (a : Word t) : Word t := wrap t (-a.val)

/-- The bits that both words have. -/
def land (a b : Word t) : Word t := ofBits (a.toBits &&& b.toBits)

/-- The bits that at least one of the words has. -/
def lor (a b : Word t) : Word t := ofBits (a.toBits ||| b.toBits)

/-- The bits that exactly one of the words has. -/
def lxor (a b : Word t) : Word t := ofBits (a.toBits ^^^ b.toBits)

/-- The bits that the word does not have. -/
def complement (a : Word t) : Word t := ofBits (~~~ a.toBits)

/-- The number of places of a shift: the count modulo the width. -/
def shiftPlaces (t : IntType) (count : Int) : Nat := (count % t.bits).toNat

/-- The bits moved up. -/
def shiftLeft (a : Word t) (count : Int) : Word t :=
  wrap t (a.val * (Nat.pow 2 (shiftPlaces t count) : Nat))

/-- The bits moved down; the sign fills the free places. -/
def shiftRight (a : Word t) (count : Int) : Word t :=
  wrap t (a.val / (Nat.pow 2 (shiftPlaces t count) : Nat))

end TypedExpr.Word
