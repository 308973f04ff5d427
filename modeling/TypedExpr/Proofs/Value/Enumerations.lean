import TypedExpr.Operator.Apply
import TypedExpr.Value.Coerce

/-!
# Constants of enumerations and their width

The constant of an enumeration is held as a number of 64 bits, whatever the underlying type of the
enumeration is.  Where a constant comes from decides whether the number lies in the range of that
type.

* `IntType.Contains`, `EnumDef.IsSized` — ranges, and enumerations that declare constants in one.
* `BitwiseOp.contains_onWords` — bit operators do not leave the range of a type.
* **`Value.enum_contained`** — the numbers of constants that were coerced, cast or combined.
* `Value.enum_uncontained` — a number beyond the range, written as a text or cast.
-/

namespace TypedExpr

/-! ## Ranges -/

/-- The integer lies in the range of the type. -/
def IntType.Contains (t : IntType) (n : Int) : Prop := t.min ≤ n ∧ n ≤ t.max

instance (t : IntType) (n : Int) : Decidable (t.Contains n) :=
  inferInstanceAs (Decidable (t.min ≤ n ∧ n ≤ t.max))

/-- The enumeration is one over an integral type, and its declared constants lie in the range of
that type. -/
structure EnumDef.IsSized (d : EnumDef) (t : IntType) : Prop where
  underlying : d.underlying = .int t
  constants : ∀ c ∈ d.constants, t.Contains c.2.val

theorem EnumDef.IsSized.contains_named {d : EnumDef} {t : IntType} (h : d.IsSized t) {s : String}
    {n : Word .int64} (named : d.value? s = some n) : t.Contains n.val := by
  obtain ⟨_, _, split, -⟩ := List.lookup_eq_some_iff.1 named
  exact h.constants (s, n) (split ▸ List.mem_append_right _ List.mem_cons_self)

/-! ## Bits -/

/-- The bit operator on bits of any width. -/
def BitwiseOp.onBits {k : Nat} : BitwiseOp → BitVec k → BitVec k → BitVec k
  | and, x, y => x &&& y
  | or, x, y => x ||| y
  | xor, x, y => x ^^^ y

theorem BitwiseOp.signExtend_onBits {k : Nat} (op : BitwiseOp) (l : Nat) (x y : BitVec k) :
    (op.onBits x y).signExtend l = op.onBits (x.signExtend l) (y.signExtend l) := by
  cases op with
  | and => exact BitVec.signExtend_and
  | or => exact BitVec.signExtend_or
  | xor => exact BitVec.signExtend_xor

/-- Without a negative operand, no bit operator makes one. -/
theorem BitwiseOp.msb_onBits {k : Nat} (op : BitwiseOp) {x y : BitVec k} (hx : x.msb = false)
    (hy : y.msb = false) : (op.onBits x y).msb = false := by
  cases op <;> simp [onBits, hx, hy]

/-- All bits from some place on are the sign. -/
def Narrow (k : Nat) {l : Nat} (x : BitVec l) : Prop := (x.signExtend k).signExtend l = x

theorem Narrow.onBits {k l : Nat} {x y : BitVec l} (hx : Narrow k x) (hy : Narrow k y)
    (op : BitwiseOp) : Narrow k (op.onBits x y) := by
  unfold Narrow at hx hy ⊢
  rw [op.signExtend_onBits, op.signExtend_onBits, hx, hy]

namespace Word

/-- Read as a number with a sign, the bits of a word are the word. -/
@[simp] theorem toInt_toBits (a : Word .int64) : a.toBits.toInt = a.val := by
  have lo := a.min_le
  have hi := a.le_max
  simp only [IntType.min, IntType.max] at lo hi
  show (BitVec.ofInt 64 a.val).toInt = a.val
  rw [BitVec.toInt_ofInt, Int.bmod_eq_of_le] <;> simp <;> omega

@[simp] theorem toBits_ofBits {t : IntType} (b : BitVec t.bits) :
    (ofBits b : Word t).toBits = b := by
  have same : t.reduce b.toNat % t.modulus = b.toNat % t.modulus := t.reduce_emod b.toNat
  rw [t.modulus_eq] at same
  apply BitVec.eq_of_toNat_eq
  show (BitVec.ofInt t.bits (t.reduce b.toNat)).toNat = b.toNat
  rw [BitVec.toNat_ofInt]
  refine (congrArg Int.toNat same).trans ?_
  exact Nat.mod_eq_of_lt b.isLt

theorem toBits_onWords {t : IntType} (op : BitwiseOp) (a b : Word t) :
    (op.onWords a b).toBits = op.onBits a.toBits b.toBits := by
  cases op <;> exact toBits_ofBits _

end Word

/-- How many of 64 bits the numbers of a range need; unsigned numbers have a sign among 64 bits,
too. -/
def IntType.places : IntType → Nat
  | int8 => 8
  | uint8 => 9
  | int16 => 16
  | uint16 => 17
  | int32 => 32
  | uint32 => 33
  | int64 | uint64 => 64

theorem narrow_iff {k l : Nat} (hk : k ≤ l) (x : BitVec l) :
    Narrow k x ↔ x.toInt.bmod (Nat.pow 2 k) = x.toInt := by
  show (BitVec.ofInt k x.toInt).signExtend l = x ↔ _
  rw [← BitVec.toInt_inj, BitVec.toInt_signExtend_of_le hk, BitVec.toInt_ofInt]
  rfl

/-- A range, told from the bits. -/
theorem IntType.contains_iff (t : IntType) (a : Word .int64) :
    t.Contains a.val ↔ Narrow t.places a.toBits ∧ (t.signed = true ∨ a.toBits.msb = false) := by
  -- Both sides become inequalities on the number itself, for each type with its own bounds.
  have lo := a.min_le
  have hi := a.le_max
  rw [narrow_iff (by cases t <;> decide), BitVec.msb_eq_toInt, Word.toInt_toBits]
  simp only [IntType.min, IntType.max] at lo hi
  cases t <;>
    simp only [Contains, IntType.min, IntType.max, places, signed, Int.bmod, Nat.pow_eq] <;>
    simp <;> omega

/-- **Bit operators do not leave the range of a type**, although they work on all 64 bits. -/
theorem BitwiseOp.contains_onWords (op : BitwiseOp) {t : IntType} {a b : Word .int64}
    (ha : t.Contains a.val) (hb : t.Contains b.val) : t.Contains (op.onWords a b).val := by
  rw [t.contains_iff] at ha hb ⊢
  rw [Word.toBits_onWords]
  refine ⟨ha.1.onBits hb.1 op, ?_⟩
  rcases ha.2 with signed | positive
  · exact Or.inl signed
  · exact hb.2.imp_right (op.msb_onBits positive)

/-! ## Values -/

/-- The value is a text that names no constant of the enumeration and reads as the number. -/
def EnumDef.Written (d : EnumDef) (v : Value) (n : Word .int64) : Prop :=
  ∃ s, v = .string s ∧ d.value? s = none ∧ Value.readInt64? s = some n

/-- The value is a number or a constant, and its integer part becomes the word in 64 bits. -/
def Value.Wraps (v : Value) (n : Word .int64) : Prop :=
  ∃ k, v.number? = some k ∧ Word.wrap .int64 k.toInt = n

namespace Value

section

variable {format : GuidFormat} {d : EnumDef} {t : IntType} {u : Ty} {v w : Value} {k : Number}
  {n : Word .int64}

/-- A text stands for a declared constant, or for the number that is written. -/
theorem readConstant?_cases (sized : d.IsSized t) {s : String} (h : readConstant? d s = some n) :
    d.Written (.string s) n ∨ t.Contains n.val := by
  unfold readConstant? at h
  cases named : d.value? s with
  | some m =>
    rw [named] at h
    cases h
    exact Or.inr (sized.contains_named named)
  | none =>
    rw [named, Option.none_or] at h
    exact Or.inl ⟨s, rfl, named, h⟩

theorem readConstant?_of_written {s : String} (h : d.Written (.string s) n) :
    readConstant? d s = some n := by
  obtain ⟨_, same, unnamed, number⟩ := h
  cases same
  rw [readConstant?, unnamed, Option.none_or, number]

/-- A number that was fitted to the underlying type lies in its range. -/
theorem contains_of_fit (sized : d.IsSized t)
    (h : (v.fitNumeric? d.underlying).bind int64? = some n) : t.Contains n.val := by
  obtain ⟨w, fits, whole⟩ := Option.bind_eq_some_iff.1 h
  rw [sized.underlying] at fits
  obtain ⟨a, -, rfl⟩ := fitNumeric?_int_eq_some_iff.1 fits
  rw [Word.fit?_eq_some_iff.1 whole]
  exact ⟨a.min_le, a.le_max⟩

/-- Where a constant of an enumeration comes from that a constant was coerced to. -/
theorem coerce?_enum_cases (sized : d.IsSized t) (goal : u.nonNullable = .enum d)
    (h : v.coerce? u = some (.enum d n)) :
    (v = .enum d n ∨ d.Written v n) ∨ t.Contains n.val := by
  unfold coerce? at h
  rw [goal] at h
  cases v with
  | null =>
    split at h
    · split at h <;> cases h
    · cases h
  | string s =>
    obtain ⟨m, read, same⟩ := Option.map_eq_some_iff.1 h
    cases same
    exact (readConstant?_cases sized read).imp_left Or.inr
  | enum e m =>
    simp only [isNull, Bool.false_eq_true, if_false] at h
    split at h <;> cases h
    exact Or.inl (Or.inl rfl)
  | int | single | double =>
    obtain ⟨m, fits, same⟩ := Option.map_eq_some_iff.1 h
    cases same
    exact Or.inr (contains_of_fit sized fits)
  | _ => cases h

/-- Constants of the enumeration and numbers in texts are taken as they are. -/
theorem coerce?_enum (goal : u.nonNullable = .enum d) (h : v = .enum d n ∨ d.Written v n) :
    v.coerce? u = some (.enum d n) := by
  unfold coerce?
  rw [goal]
  rcases h with rfl | written
  · exact if_pos rfl
  · obtain ⟨s, rfl, -⟩ := id written
    show (readConstant? d s).map (Value.enum d) = _
    rw [readConstant?_of_written written, Option.map_some]

/-- Numbers and constants are converted to a constant without a check. -/
theorem castNumeric?_enum : v.castNumeric? (.enum d) = some (.enum d n) ↔ v.Wraps n := by
  constructor
  · intro h
    obtain ⟨k, number, same⟩ := Option.bind_eq_some_iff.1 h
    cases same
    exact ⟨k, number, rfl⟩
  · rintro ⟨k, number, rfl⟩
    rw [castNumeric?, number]
    rfl

/-- Where a constant of an enumeration comes from that a value was cast to. -/
theorem cast_enum_cases (sized : d.IsSized t) (goal : u.nonNullable = .enum d)
    (h : v.cast u = .ok (.enum d n)) : (v.Wraps n ∨ d.Written v n) ∨ t.Contains n.val := by
  unfold cast at h
  split at h
  · split at h <;> cases h
  rw [goal] at h
  unfold castPlain at h
  simp only at h
  split at h
  next s _ =>
    change readAs s (.enum d) _ = _ at h
    cases read : readConstant? d s with
    | none =>
      rw [read] at h
      cases h
    | some m =>
      rw [read] at h
      cases h
      exact (readConstant?_cases sized read).imp_left Or.inr
  next =>
    split at h
    next =>
      cases h
      exact Or.inl (Or.inl ⟨_, rfl, Word.wrap_val n⟩)
    next => exact Or.inl (Or.inl (castNumeric?_enum.1 (castNumber_eq_ok.1 h)))

/-- Numbers in texts are taken as they are, and other numbers are brought to 64 bits. -/
theorem cast_enum (goal : u.nonNullable = .enum d) (h : v.Wraps n ∨ d.Written v n) :
    v.cast u = .ok (.enum d n) := by
  unfold cast
  rw [goal]
  rcases h with wraps | written
  · have plain : v.castNumber (.enum d) = .ok (.enum d n) :=
      castNumber_eq_ok.2 (castNumeric?_enum.2 wraps)
    obtain ⟨k, number, whole⟩ := wraps
    cases v with
    | enum e m =>
      show (if (Value.enum e m).isOf (.enum d) then _ else _) = _
      split
      next same =>
        cases number
        cases of_decide_eq_true same
        rw [← whole, Number.toInt, Word.wrap_val]
      next => exact plain
    | int | single | double => exact plain
    | _ => cases number
  · obtain ⟨s, rfl, -⟩ := id written
    show readAs s (.enum d) _ = _
    rw [readConstant?_of_written written]
    rfl

/-- A number in both ranges is the constant. -/
theorem wraps_of_contains (number : v.number? = some k) (fits : t.Contains k.toInt)
    (whole : IntType.int64.Contains k.toInt) : ∃ n, v.Wraps n ∧ t.Contains n.val := by
  refine ⟨_, ⟨k, number, rfl⟩, ?_⟩
  have same : (Word.wrap .int64 k.toInt).val = k.toInt := IntType.reduce_of_mem whole.1 whole.2
  rwa [same]

/-- **Where constants leave the range of an enumeration.**  A constant that was coerced is in the
range of the underlying type, unless it was one before or is written as a number in a text.  One
that was cast is in the range, unless it is written as a number in a text, or is a number whose
integer part is out of the range once it is brought to 64 bits.  Bit operators do not leave the
range. -/
theorem enum_contained [GuidFormat] (sized : d.IsSized t) (goal : u.nonNullable = .enum d) :
    (∀ v n, ¬ t.Contains n.val →
      (v.coerce? u = some (.enum d n) ↔ v = .enum d n ∨ d.Written v n)) ∧
    (∀ v n, ¬ t.Contains n.val → (v.cast u = .ok (.enum d n) ↔ v.Wraps n ∨ d.Written v n)) ∧
    (∀ (v : Value) n, v.castNumeric? (.enum d) = some (.enum d n) ↔ v.Wraps n) ∧
    (∀ (v : Value) k, v.number? = some k → t.Contains k.toInt → IntType.int64.Contains k.toInt →
      ∃ n, v.cast u = .ok (.enum d n) ∧ t.Contains n.val) ∧
    ∀ op (m n : Word .int64), t.Contains m.val → t.Contains n.val →
      ∃ r, combine (.bitwise op) (.enum d m) (.enum d n) = .ok (.enum d r) ∧
        t.Contains r.val := by
  refine ⟨?_, ?_, fun v n => castNumeric?_enum, ?_, ?_⟩
  · intro v n beyond
    exact ⟨fun h => (coerce?_enum_cases sized goal h).resolve_right beyond, coerce?_enum goal⟩
  · intro v n beyond
    exact ⟨fun h => (cast_enum_cases sized goal h).resolve_right beyond, cast_enum goal⟩
  · intro v k number fits whole
    obtain ⟨n, wraps, contained⟩ := wraps_of_contains number fits whole
    exact ⟨n, cast_enum goal (Or.inl wraps), contained⟩
  · intro op m n hm hn
    exact ⟨op.onWords m n, if_pos rfl, op.contains_onWords hm hn⟩

/-- An enumeration over bytes. -/
def access : EnumDef :=
  ⟨0, "E", .int .uint8,
    [("A", Word.wrap .int64 0), ("R", Word.wrap .int64 1), ("W", Word.wrap .int64 2)], true⟩

theorem access_isSized : access.IsSized .uint8 := ⟨rfl, by decide⟩

/-- Both constants of the enumeration together. -/
theorem enum_contained_union :
    ∃ r, combine (.bitwise .or) (.enum access (Word.wrap .int64 1))
      (.enum access (Word.wrap .int64 2)) = .ok (.enum access r) ∧
      IntType.uint8.Contains r.val :=
  (enum_contained access_isSized (u := .enum access) rfl).2.2.2.2 .or _ _ (by decide) (by decide)

theorem readInt64?_300 : readInt64? "300" = some (Word.wrap .int64 300) := by
  have trimmed : Text.trim "300" = "300" :=
    String.toList_injective ((Text.toList_stripEnds ..).trans (by decide +kernel))
  rw [readInt64?, trimmed]
  decide +kernel

end

/-- A text that is coerced to an enumeration over bytes, and a number that is cast to it, may stand
for a constant beyond all bytes. -/
theorem enum_uncontained :
    access.IsSized .uint8 ∧
      (Value.string "300").coerce? (.enum access) = some (.enum access (Word.wrap .int64 300)) ∧
      (Value.int32 300).cast (.enum access) = .ok (.enum access (Word.wrap .int64 300)) ∧
      ¬ IntType.uint8.Contains (Word.wrap .int64 300).val :=
  ⟨access_isSized, coerce?_enum rfl (Or.inr ⟨"300", rfl, by decide +kernel, readInt64?_300⟩), rfl,
    by decide⟩

end Value

end TypedExpr
