/-!
# Integers of fixed width

The eight integral types, and `Word t`, the integers that lie in the range of `t`.  Every
operation computes on mathematical integers and brings the result back with `wrap`, the unique
representative of a residue class in the range.

* `IntType.min`, `IntType.max` — the two ends of the range.
* `Word.wrap` — reduction modulo `2 ^ bits` into the range.
* `Word.fit?` — the integer itself, if it lies in the range.
* **`IntType.reduce_emod`**, **`IntType.reduce_mem`** — `wrap` is congruent to its argument and
  stays in the range.
-/

namespace TypedExpr

/-- The integral types, by width and signedness. -/
inductive IntType
  | int8 | int16 | int32 | int64
  | uint8 | uint16 | uint32 | uint64
deriving DecidableEq, Repr

namespace IntType

/-- Width in bits. -/
def bits : IntType → Nat
  | int8 | uint8 => 8
  | int16 | uint16 => 16
  | int32 | uint32 => 32
  | int64 | uint64 => 64

/-- Whether the type has negative values. -/
def signed : IntType → Bool
  | int8 | int16 | int32 | int64 => true
  | uint8 | uint16 | uint32 | uint64 => false

/-- The number of values. -/
def modulus : IntType → Int
  | int8 | uint8 => 0x100
  | int16 | uint16 => 0x10000
  | int32 | uint32 => 0x100000000
  | int64 | uint64 => 0x10000000000000000

/-- The least value. -/
def min : IntType → Int
  | int8 => -0x80
  | int16 => -0x8000
  | int32 => -0x80000000
  | int64 => -0x8000000000000000
  | uint8 | uint16 | uint32 | uint64 => 0

/-- The greatest value. -/
def max : IntType → Int
  | int8 => 0x7F
  | int16 => 0x7FFF
  | int32 => 0x7FFFFFFF
  | int64 => 0x7FFFFFFFFFFFFFFF
  | uint8 => 0xFF
  | uint16 => 0xFFFF
  | uint32 => 0xFFFFFFFF
  | uint64 => 0xFFFFFFFFFFFFFFFF

/-- Reduction of an integer into the range: the one value of the range in its residue class. -/
def reduce (t : IntType) (n : Int) : Int :=
  if t.min ≤ n ∧ n ≤ t.max then n else (n - t.min) % t.modulus + t.min

/-- The type in which arithmetic on `t` is done: narrow integers compute as `int32`. -/
def promoted : IntType → IntType
  | int8 | int16 | uint8 | uint16 => int32
  | t => t

theorem modulus_eq (t : IntType) : t.modulus = (Nat.pow 2 t.bits : Nat) := by
  cases t <;> decide

theorem modulus_pos (t : IntType) : 0 < t.modulus := by
  cases t <;> decide

/-- Half of the values of a signed type are negative. -/
theorem min_eq (t : IntType) :
    t.min = if t.signed then -Int.ofNat (Nat.pow 2 (t.bits - 1)) else 0 := by
  cases t <;> decide

/-- The range holds one value of every residue class. -/
theorem max_eq (t : IntType) : t.max = t.min + t.modulus - 1 := by
  cases t <;> decide

/-- In the range, reduction changes nothing. -/
theorem reduce_of_mem {t : IntType} {n : Int} (lo : t.min ≤ n) (hi : n ≤ t.max) :
    t.reduce n = n :=
  if_pos ⟨lo, hi⟩

/-- Reduction is a shift of the remainder, in the range and outside. -/
theorem reduce_eq (t : IntType) (n : Int) : t.reduce n = (n - t.min) % t.modulus + t.min := by
  rw [reduce]
  split
  · rename_i h
    rw [max_eq] at h
    rw [Int.emod_eq_of_lt (by omega) (by omega)]
    omega
  · rfl

theorem reduce_mem (t : IntType) (n : Int) : t.min ≤ t.reduce n ∧ t.reduce n ≤ t.max := by
  have h₀ := Int.emod_nonneg (n - t.min) (Int.ne_of_gt t.modulus_pos)
  have h₁ := Int.emod_lt_of_pos (n - t.min) t.modulus_pos
  rw [max_eq, reduce_eq]
  omega

theorem reduce_emod (t : IntType) (n : Int) : t.reduce n % t.modulus = n % t.modulus := by
  simp [reduce_eq]

end IntType

/-- An integer in the range of `t`. -/
structure Word (t : IntType) where
  val : Int
  min_le : t.min ≤ val
  le_max : val ≤ t.max
deriving DecidableEq

namespace Word

/-- The representative of the residue class of `n` in the range of `t`. -/
def wrap (t : IntType) (n : Int) : Word t :=
  ⟨t.reduce n, (t.reduce_mem n).1, (t.reduce_mem n).2⟩

/-- The integer as a word of type `t`, if it lies in the range. -/
def fit? (t : IntType) (n : Int) : Option (Word t) :=
  if h : t.min ≤ n ∧ n ≤ t.max then some ⟨n, h.1, h.2⟩ else none

/-- Zero lies in every range. -/
def zero (t : IntType) : Word t := wrap t 0

/-- The bits of the word in two's complement. -/
def toBits {t : IntType} (a : Word t) : BitVec t.bits := BitVec.ofInt t.bits a.val

/-- The word with the given bits in two's complement. -/
def ofBits {t : IntType} (b : BitVec t.bits) : Word t := wrap t b.toNat

@[ext] theorem ext {t : IntType} {a b : Word t} (h : a.val = b.val) : a = b := by
  cases a; cases b; cases h; rfl

@[simp] theorem wrap_val {t : IntType} (a : Word t) : wrap t a.val = a :=
  ext (IntType.reduce_of_mem a.min_le a.le_max)

theorem fit?_eq_some_iff {t : IntType} {n : Int} {a : Word t} :
    fit? t n = some a ↔ a.val = n := by
  unfold fit?
  constructor
  · intro h
    split at h
    · injection h with h; rw [← h]
    · contradiction
  · rintro rfl
    simp [a.min_le, a.le_max]

end Word

end TypedExpr
