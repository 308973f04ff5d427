import TypedExpr.Proofs.Value.Arithmetic
import TypedExpr.Value.Cast

/-!
# Integers as values of other integral types

An integer or a constant of an enumeration becomes a value of an integral type in two ways.  The
unchecked conversion takes the residue modulo `2 ^ bits`; the checked one is refused where the
integer is out of the range.  A range holds one integer of each residue class, so that where the
checked conversion gives a value, the unchecked one gives the same.  Nothing is lost then, and a
conversion to the first type leads back.

The converse of the last step fails: an integer may come back although it is out of the range in
between.  Without a sign, -1 of 8 bits wraps to 255, and this wraps to -1 again.

* `IntType.Representable` — the range of a type, told from its width and its sign.
* `Value.Denotes` — the integer that a value stands for.
* `Value.Denotes.fitNumeric?_iff_castNumeric?` — when the checked conversion gives a value.
* `Value.Denotes.castNumeric?_ty` — values that stand for one integer convert into each other.
* **`Value.fitNumeric?_exact`** — how the two conversions go together.
-/

namespace TypedExpr

/-! ## Ranges -/

namespace IntType

/-- The integer is one of the width of the type: in two's complement, or from zero on where there
is no sign. -/
def Representable (t : IntType) (n : Int) : Prop :=
  if t.signed then -2 ^ (t.bits - 1) ≤ n ∧ n < 2 ^ (t.bits - 1) else 0 ≤ n ∧ n < 2 ^ t.bits

/-- Both ends of the range of every type are those of its width. -/
theorem contains_iff_representable (t : IntType) (n : Int) : t.Contains n ↔ t.Representable n := by
  cases t <;>
    simp only [Contains, Representable, min, max, signed, bits, if_true, Bool.false_eq_true,
      if_false] <;>
    omega

instance (t : IntType) (n : Int) : Decidable (t.Representable n) :=
  decidable_of_iff (t.Contains n) (t.contains_iff_representable n)

end IntType

/-! ## Values -/

namespace Value

section

variable {format : GuidFormat}

/-- The value is an integer of any type or a constant of an enumeration, and stands for the
integer. -/
inductive Denotes : Value → Int → Prop
  | int {t : IntType} (a : Word t) : Denotes (.int t a) a.val
  | enum (d : EnumDef) (a : Word .int64) : Denotes (.enum d a) a.val

variable {t : IntType} {u : Ty} {v w : Value} {n : Int}

theorem denotes_int_iff {a : Word t} : (Value.int t a).Denotes n ↔ a.val = n := by
  constructor
  · intro h
    cases h
    rfl
  · rintro rfl
    exact .int a

namespace Denotes

theorem number? (h : v.Denotes n) : v.number? = some (.integer n) := by
  cases h <;> rfl

/-- The unchecked conversion wraps. -/
theorem castNumeric? (h : v.Denotes n) (t : IntType) :
    v.castNumeric? (.int t) = some (.int t (Word.wrap t n)) := by
  rw [Value.castNumeric?, h.number?]
  rfl

/-- The checked conversion gives the integer itself, as a word of the type. -/
theorem fitNumeric?_iff_word (h : v.Denotes n) :
    v.fitNumeric? (.int t) = some w ↔ ∃ a : Word t, n = a.val ∧ w = .int t a := by
  simp only [fitNumeric?_int_eq_some_iff, h.number?, Option.some.injEq, Number.integer.injEq]

/-- The checked conversion is refused out of the range, and only there. -/
theorem isSome_fitNumeric?_iff (h : v.Denotes n) (t : IntType) :
    (v.fitNumeric? (.int t)).isSome = true ↔ t.Representable n := by
  rw [← t.contains_iff_representable, Option.isSome_iff_exists]
  constructor
  · rintro ⟨w, found⟩
    obtain ⟨a, rfl, -⟩ := h.fitNumeric?_iff_word.1 found
    exact a.contains
  · rintro ⟨lo, hi⟩
    exact ⟨_, h.fitNumeric?_iff_word.2 ⟨⟨n, lo, hi⟩, rfl, rfl⟩⟩

/-- The checked conversion gives what the unchecked one does, where this stands for the same
integer. -/
theorem fitNumeric?_iff_castNumeric? (h : v.Denotes n) :
    v.fitNumeric? (.int t) = some w ↔ v.castNumeric? (.int t) = some w ∧ w.Denotes n := by
  constructor
  · intro found
    obtain ⟨a, rfl, rfl⟩ := h.fitNumeric?_iff_word.1 found
    exact ⟨castNumeric?_of_fitNumeric? found, .int a⟩
  · rintro ⟨found, same⟩
    rw [h.castNumeric? t] at found
    cases found
    exact h.fitNumeric?_iff_word.2 ⟨_, (denotes_int_iff.1 same).symm, rfl⟩

/-- **Values that stand for one integer convert into each other**, whatever integral types or
enumerations they are of. -/
theorem castNumeric?_ty (h : v.Denotes n) (h' : w.Denotes n) : w.castNumeric? v.ty = some v := by
  rw [Value.castNumeric?, h'.number?]
  cases h with
  | int a => exact congrArg (fun b => some (Value.int _ b)) a.wrap_val
  | enum d a => exact congrArg (fun b => some (Value.enum d b)) a.wrap_val

/-- The explicit conversion of an integer to a type of numbers is the unchecked one. -/
theorem cast (h : v.Denotes n) (found : v.castNumeric? u = some w) : v.cast u = .ok w := by
  rw [Value.castNumeric?, h.number?] at found
  cases u with
  | int | single | double =>
    cases found
    cases h <;> rfl
  | enum d =>
    -- A constant of the same enumeration is not converted at all.
    cases found
    exact cast_enum rfl (Or.inl ⟨_, h.number?, rfl⟩)
  | _ => cases found

end Denotes

/-- **The checked and the unchecked conversion of an integer.**  The unchecked conversion gives the
one value of the type in the residue class of the integer modulo `2 ^ bits`.  The checked one gives
a value for the integers of the range alone, and gives the unchecked value where this stands for the
same integer.  Then a conversion to the type of the integer, or of the constant, leads back. -/
theorem fitNumeric?_exact [GuidFormat] (h : v.Denotes n) (t : IntType) :
    (∃ a : Word t, v.castNumeric? (.int t) = some (.int t a) ∧
      ∀ b : Word t, b.val ≡ n [ZMOD 2 ^ t.bits] ↔ b = a) ∧
    ((v.fitNumeric? (.int t)).isSome = true ↔ t.Representable n) ∧
    (∀ w, v.fitNumeric? (.int t) = some w ↔ v.castNumeric? (.int t) = some w ∧ w.Denotes n) ∧
    ((v.fitNumeric? (.int t)).isSome = true →
      (v.castNumeric? (.int t) >>= fun w => w.castNumeric? v.ty) = some v ∧
      (v.cast (.int t) >>= fun w => w.cast v.ty) = .ok v) := by
  refine ⟨⟨_, h.castNumeric? t, fun b => Word.modEq_iff_eq_wrap⟩, h.isSome_fitNumeric?_iff t,
    fun w => h.fitNumeric?_iff_castNumeric?, ?_⟩
  intro fits
  obtain ⟨w, found⟩ := Option.isSome_iff_exists.1 fits
  obtain ⟨converted, same⟩ := h.fitNumeric?_iff_castNumeric?.1 found
  have back : w.castNumeric? v.ty = some v := h.castNumeric?_ty same
  constructor
  · rw [converted]
    exact back
  · rw [h.cast converted]
    exact same.cast back

end

/-- The least integer of 8 bits, with a sign and without one. -/
theorem fitNumeric?_exact_least :
    let v : Value := .int .int16 (Word.wrap .int16 (-128))
    v.Denotes (-128) ∧
      (v.fitNumeric? (.int .int8)).isSome = true ∧
      (v.castNumeric? (.int .int8) >>= fun w => w.castNumeric? v.ty) = some v ∧
      (v.cast (.int .int8) >>= fun w => w.cast v.ty) = .ok v ∧
      ¬ (v.fitNumeric? (.int .uint8)).isSome = true ∧
      ∃ a : Word .uint8, v.castNumeric? (.int .uint8) = some (.int .uint8 a) ∧ a.val = 128 := by
  intro v
  have denotes : v.Denotes (-128) := .int (Word.wrap .int16 (-128))
  obtain ⟨-, inRange, -, back⟩ := fitNumeric?_exact denotes .int8
  obtain ⟨⟨a, wraps, unique⟩, beyond, -, -⟩ := fitNumeric?_exact denotes .uint8
  have fits : (v.fitNumeric? (.int .int8)).isSome = true := inRange.2 (by decide)
  have residue : Word.wrap .uint8 128 = a := (unique _).1 (by decide)
  exact ⟨denotes, fits, (back fits).1, (back fits).2, mt beyond.1 (by decide), a, wraps,
    residue ▸ rfl⟩

/-- What comes back need not have been in the range. -/
example :
    let v : Value := .int .int8 (Word.wrap .int8 (-1))
    (v.fitNumeric? (.int .uint8)).isSome = false ∧
      (v.castNumeric? (.int .uint8) >>= fun w => w.castNumeric? v.ty) = some v :=
  ⟨rfl, rfl⟩

end Value

end TypedExpr
