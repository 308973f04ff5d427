import TypedExpr.Value.Basic

/-!
# Values as numbers

Numbers of any type, and the constants of enumerations, seen as an integer or a real number, and
the conversions between numeric types through this view.

* `Value.number?` — the numeric view.
* `Value.castNumeric?` — the unchecked conversion: fractions are dropped and integers wrap.
* `Value.fitNumeric?` — the checked conversion: nothing is lost, except that integers may round
  when they become real numbers and doubles when they are read as doubles.
* **`Value.castNumeric?_of_fitNumeric?`**, **`Value.fitNumeric?_int_eq_some_iff`** — what the
  checked conversion gives, the unchecked one gives as well; integral types take the integers of
  the range.
-/

namespace TypedExpr

/-- A number without its type. -/
inductive Number
  | integer (n : Int)
  | real (x : Float)

namespace Number

/-- The integer part. -/
def toInt : Number → Int
  | integer n => n
  | real x => Binary.truncate x

/-- The nearest double. -/
def toDouble : Number → Float
  | integer n => Binary.doubleOfInt n
  | real x => x

end Number

namespace Value

/-- The numeric view of numbers and of constants of enumerations. -/
def number? : Value → Option Number
  | .int _ n => some (.integer n.val)
  | .enum _ n => some (.integer n.val)
  | .single x => some (.real (Binary.toDouble x))
  | .double x => some (.real x)
  | _ => none

/-- The number as a 64 bit integer, if it is one. -/
def int64? (v : Value) : Option (Word .int64) :=
  match v.number? with
  | some (.integer n) => Word.fit? .int64 n
  | _ => none

/-- The number as a double. -/
def double? (v : Value) : Option Float :=
  v.number?.map Number.toDouble

/-- The number in a numeric type or an enumeration, without a check. -/
def ofNumber? (n : Number) : Ty → Option Value
  | .int t => some (.int t (Word.wrap t n.toInt))
  | .single => some (.single (Binary.toSingle n.toDouble))
  | .double => some (.double n.toDouble)
  | .enum d => some (.enum d (Word.wrap .int64 n.toInt))
  | _ => none

/-- The unchecked numeric conversion: fractions are dropped and integers wrap. -/
def castNumeric? (v : Value) (target : Ty) : Option Value :=
  v.number?.bind fun n => ofNumber? n target

/-- Whether a double is a single exactly.  What is not a number counts as one. -/
def isSingle (x : Float) : Bool :=
  Binary.toDouble (Binary.toSingle x) == x || x.isNaN

/-- Whether a number has an exact place in a numeric type.  Integers always have one among the
real numbers, and real numbers have none among the integers. -/
def numberFits : Number → Ty → Bool
  | .integer n, .int t => t.min ≤ n && n ≤ t.max
  | .integer _, .single | .integer _, .double => true
  | .real _, .double => true
  | .real x, .single => isSingle x
  | _, _ => false

/-- The checked numeric conversion. -/
def fitNumeric? (v : Value) (target : Ty) : Option Value :=
  v.number?.bind fun n => if numberFits n target then ofNumber? n target else none

theorem castNumeric?_of_fitNumeric? {v w : Value} {target : Ty}
    (h : v.fitNumeric? target = some w) : v.castNumeric? target = some w := by
  obtain ⟨n, number, fits⟩ := Option.bind_eq_some_iff.1 h
  split at fits
  · exact Option.bind_eq_some_iff.2 ⟨n, number, fits⟩
  · cases fits

/-- What fits an integral type is an integer of the range, and stays the same integer. -/
theorem fitNumeric?_int_eq_some_iff {v w : Value} {t : IntType} :
    v.fitNumeric? (.int t) = some w ↔
      ∃ a : Word t, v.number? = some (.integer a.val) ∧ w = .int t a := by
  constructor
  · intro h
    obtain ⟨k, number, fits⟩ := Option.bind_eq_some_iff.1 h
    split at fits
    next mem =>
      cases k with
      | integer n =>
        simp only [numberFits, Bool.and_eq_true, decide_eq_true_eq] at mem
        cases fits
        have same := Word.wrap_val (⟨n, mem.1, mem.2⟩ : Word t)
        exact ⟨_, number, congrArg (Value.int t) same⟩
      | real x => cases mem
    next => cases fits
  · rintro ⟨a, number, rfl⟩
    have mem : numberFits (.integer a.val) (.int t) = true := by
      simp [numberFits, a.min_le, a.le_max]
    rw [fitNumeric?, number, Option.bind_some, if_pos mem, ofNumber?, Number.toInt, Word.wrap_val]

end Value

end TypedExpr
