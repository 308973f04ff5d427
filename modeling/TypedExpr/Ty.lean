import TypedExpr.Numeric.IntType

/-!
# Types

The static types of values and expressions.  Enumerations and records are nominal: a definition
carries an identity of its own, and two definitions that agree in everything else are still two
types.  Definitions are part of the type, so that the name, the constants and the fields of a
type can be read off it without a table of definitions.

* `Ty.nullableOf` — the type with null added, where null is not a value of it already.
* `Ty.acceptsNull`, `Ty.isComparable`, … — the classes of types that the rules speak of.
* `Ty.text` — the name of a type in messages.
* **`Ty.beq`** — equality of types is decidable.
-/

namespace TypedExpr

/-- An enumeration over an underlying type: named constants in order of declaration.  An exposed
enumeration can be named in an expression. -/
structure EnumShape (τ : Type) where
  id : Nat
  name : String
  underlying : τ
  constants : List (String × Word .int64)
  exposed : Bool

/-- The identity of a record definition: declared, or made by a projection. -/
inductive RecordId
  | declared (n : Nat)
  | anonymous (n : Nat)
deriving DecidableEq

/-- When two instances of a record are equal, if no comparison is declared. -/
inductive Equality
  | reference
  | structural
deriving DecidableEq

/-- A record with fields in a fixed order.  An exposed record can be named in an expression. -/
structure RecordShape (τ : Type) where
  id : RecordId
  name : String
  fields : List (String × τ)
  equality : Equality
  exposed : Bool

/-- The static types. -/
inductive Ty
  | null
  | object
  | boolean
  | int (t : IntType)
  | single
  | double
  | string
  | guid
  | dateTime
  | enum (d : EnumShape Ty)
  | record (d : RecordShape Ty)
  | nullable (t : Ty)
  | sequence (t : Ty)
  | grouping (key t : Ty)

/-- An enumeration definition. -/
abbrev EnumDef := EnumShape Ty

/-- The data of a record definition. -/
abbrev RecordDef := RecordShape Ty

/-! ## Equality -/

namespace Ty

mutual

/-- Equality of types, as a test. -/
def beq : Ty → Ty → Bool
  | .null, .null | .object, .object | .boolean, .boolean | .single, .single => true
  | .double, .double | .string, .string | .guid, .guid | .dateTime, .dateTime => true
  | .int t, .int u => t == u
  | .enum ⟨i, n, t, cs, e⟩, .enum ⟨j, m, u, ds, e'⟩ =>
    i == j && n == m && beq t u && cs == ds && e == e'
  | .record ⟨i, n, fs, q, e⟩, .record ⟨j, m, gs, q', e'⟩ =>
    i == j && n == m && beqFields fs gs && q == q' && e == e'
  | .nullable t, .nullable u | .sequence t, .sequence u => beq t u
  | .grouping k t, .grouping l u => beq k l && beq t u
  | _, _ => false

/-- Equality of field lists, as a test. -/
def beqFields : List (String × Ty) → List (String × Ty) → Bool
  | [], [] => true
  | (n, t) :: r, (m, u) :: s => n == m && beq t u && beqFields r s
  | _, _ => false

end

mutual

theorem beq_refl : ∀ t : Ty, beq t t = true
  | .null | .object | .boolean | .single | .double | .string | .guid | .dateTime => rfl
  | .int t => by simp [beq]
  | .enum ⟨i, n, t, cs, e⟩ => by simp [beq, beq_refl t]
  | .record ⟨i, n, fs, q, e⟩ => by simp [beq, beqFields_refl fs]
  | .nullable t | .sequence t => by simp [beq, beq_refl t]
  | .grouping k t => by simp [beq, beq_refl k, beq_refl t]

theorem beqFields_refl : ∀ fs : List (String × Ty), beqFields fs fs = true
  | [] => rfl
  | (n, t) :: r => by simp [beqFields, beq_refl t, beqFields_refl r]

end

mutual

theorem eq_of_beq : ∀ t u : Ty, beq t u = true → t = u
  | .null, .null, _ | .object, .object, _ | .boolean, .boolean, _ | .single, .single, _ => rfl
  | .double, .double, _ | .string, .string, _ | .guid, .guid, _ | .dateTime, .dateTime, _ => rfl
  | .int t, .int u, h => by simpa [beq] using h
  | .enum ⟨i, n, t, cs, e⟩, .enum ⟨j, m, u, ds, e'⟩, h => by
    simp only [beq, Bool.and_eq_true, beq_iff_eq] at h
    obtain ⟨⟨⟨⟨rfl, rfl⟩, h⟩, rfl⟩, rfl⟩ := h
    rw [eq_of_beq t u h]
  | .record ⟨i, n, fs, q, e⟩, .record ⟨j, m, gs, q', e'⟩, h => by
    simp only [beq, Bool.and_eq_true, beq_iff_eq] at h
    obtain ⟨⟨⟨⟨rfl, rfl⟩, h⟩, rfl⟩, rfl⟩ := h
    rw [eq_of_beqFields fs gs h]
  | .nullable t, .nullable u, h => by rw [eq_of_beq t u (by simpa [beq] using h)]
  | .sequence t, .sequence u, h => by rw [eq_of_beq t u (by simpa [beq] using h)]
  | .grouping k t, .grouping l u, h => by
    simp only [beq, Bool.and_eq_true] at h
    rw [eq_of_beq k l h.1, eq_of_beq t u h.2]

theorem eq_of_beqFields : ∀ fs gs : List (String × Ty), beqFields fs gs = true → fs = gs
  | [], [], _ => rfl
  | (n, t) :: r, (m, u) :: s, h => by
    simp only [beqFields, Bool.and_eq_true, beq_iff_eq] at h
    obtain ⟨⟨rfl, h⟩, h'⟩ := h
    rw [eq_of_beq t u h, eq_of_beqFields r s h']

end

mutual

/-- The test `beq` on types that share definitions.  A list of fields that is one object in memory
with the other is not entered, so that a definition met on several ways is looked at once. -/
def sharedBeq : (t u : Ty) → { b : Bool // b = beq t u }
  | .enum ⟨i, n, t, cs, e⟩, .enum ⟨j, m, u, ds, e'⟩ =>
    ⟨i == j && n == m && (sharedBeq t u).1 && cs == ds && e == e', by
      rw [(sharedBeq t u).2, beq]⟩
  | .record ⟨i, n, fs, q, e⟩, .record ⟨j, m, gs, q', e'⟩ =>
    ⟨i == j && n == m && (sharedBeqFields fs gs).1 && q == q' && e == e', by
      rw [(sharedBeqFields fs gs).2, beq]⟩
  | .nullable t, .nullable u => ⟨(sharedBeq t u).1, by rw [(sharedBeq t u).2, beq]⟩
  | .sequence t, .sequence u => ⟨(sharedBeq t u).1, by rw [(sharedBeq t u).2, beq]⟩
  | .grouping k t, .grouping l u =>
    ⟨(sharedBeq k l).1 && (sharedBeq t u).1, by
      rw [(sharedBeq k l).2, (sharedBeq t u).2, beq]⟩
  | t, u => ⟨beq t u, rfl⟩

/-- The test `beqFields` on field lists that share definitions. -/
def sharedBeqFields : (fs gs : List (String × Ty)) → { b : Bool // b = beqFields fs gs }
  | (n, t) :: r, (m, u) :: s =>
    let test : Unit → Bool := fun _ => n == m && (sharedBeq t u).1 && (sharedBeqFields r s).1
    have h : test () = beqFields ((n, t) :: r) ((m, u) :: s) := by
      simp only [test]
      rw [(sharedBeq t u).2, (sharedBeqFields r s).2, beqFields]
    ⟨withPtrEq ((n, t) :: r) ((m, u) :: s) test fun same => by rw [h, same, beqFields_refl], h⟩
  | fs, gs => ⟨beqFields fs gs, rfl⟩

end

/-- **Equality of types is decidable**, by the test `beq`. -/
instance : DecidableEq Ty := fun t u =>
  decidable_of_iff ((sharedBeq t u).1 = true) (by
    rw [(sharedBeq t u).2]
    exact ⟨eq_of_beq t u, fun h => h ▸ beq_refl t⟩)

/-! ## Classes of types -/

/-- The integral types. -/
def isIntegral : Ty → Bool
  | .int _ => true
  | _ => false

/-- The integral and the floating-point types. -/
def isNumeric : Ty → Bool
  | .int _ | .single | .double => true
  | _ => false

/-- The numeric types with negative values. -/
def isSigned : Ty → Bool
  | .int t => t.signed
  | .single | .double => true
  | _ => false

/-- The width of a numeric type. -/
def bits? : Ty → Option Nat
  | .int t => some t.bits
  | .single => some 32
  | .double => some 64
  | _ => none

/-- Whether null was added to the type explicitly. -/
def isNullable : Ty → Bool
  | .nullable _ => true
  | _ => false

/-- Whether null is a value of the type. -/
def acceptsNull : Ty → Bool
  | .null | .object | .string | .record _ | .nullable _ | .sequence _ | .grouping .. => true
  | _ => false

/-- The type without one explicit null. -/
def nonNullable : Ty → Ty
  | .nullable t => t
  | t => t

/-- The type with null added; a type that has null already stays as it is. -/
def nullableOf (t : Ty) : Ty :=
  if t.acceptsNull then t else .nullable t

/-- The type with null added on demand. -/
def lift (t : Ty) (nullable : Bool) : Ty :=
  if nullable then t.nullableOf else t

/-- What a sequence or a grouping consists of. -/
def element? : Ty → Option Ty
  | .sequence t | .grouping _ t => some t
  | _ => none

/-- Whether the values of the type, null aside, have an order. -/
def isComparable (t : Ty) : Bool :=
  match t.nonNullable with
  | .boolean | .string | .guid | .dateTime | .enum _ => true
  | u => u.isNumeric

/-- The type in which arithmetic on `t` is done. -/
def promoted : Ty → Ty
  | .int t => .int t.promoted
  | t => t

/-- Whether an expression may name the type. -/
def isExposed : Ty → Bool
  | .enum d => d.exposed
  | .record d => d.exposed
  | _ => false

/-- The declared name of a nominal type. -/
def declaredName? : Ty → Option String
  | .enum d => some d.name
  | .record d => some d.name
  | _ => none

/-! ## Names -/

/-- The name of an integral type. -/
def intName : IntType → String
  | .int8 => "SByte"
  | .int16 => "Int16"
  | .int32 => "Int32"
  | .int64 => "Int64"
  | .uint8 => "Byte"
  | .uint16 => "UInt16"
  | .uint32 => "UInt32"
  | .uint64 => "UInt64"

/-- The name of a type in messages. -/
def text : Ty → String
  | .null => "null"
  | .object => "Object"
  | .boolean => "Boolean"
  | .int t => intName t
  | .single => "Single"
  | .double => "Double"
  | .string => "String"
  | .guid => "Guid"
  | .dateTime => "DateTime"
  | .enum d => d.name
  | .record d => d.name
  | .nullable t => t.text ++ "?"
  | .sequence t => "IEnumerable<" ++ t.text ++ ">"
  | .grouping k t => "IGrouping<" ++ k.text ++ ", " ++ t.text ++ ">"

/-- The predefined types by name; most have a second name in small letters. -/
def predefined? : String → Option Ty
  | "Object" | "object" => some .object
  | "Boolean" | "bool" => some .boolean
  | "SByte" | "sbyte" => some (.int .int8)
  | "Int16" | "short" => some (.int .int16)
  | "Int32" | "int" => some (.int .int32)
  | "Int64" | "long" => some (.int .int64)
  | "Byte" | "byte" => some (.int .uint8)
  | "UInt16" | "ushort" => some (.int .uint16)
  | "UInt32" | "uint" => some (.int .uint32)
  | "UInt64" | "ulong" => some (.int .uint64)
  | "Single" | "float" => some .single
  | "Double" | "double" => some .double
  | "String" | "string" => some .string
  | "Guid" => some .guid
  | "DateTime" => some .dateTime
  | _ => none

/-! ## Laws -/

theorem nullableOf_acceptsNull (t : Ty) : t.nullableOf.acceptsNull = true := by
  unfold nullableOf
  split
  · assumption
  · rfl

theorem nullableOf_idem (t : Ty) : t.nullableOf.nullableOf = t.nullableOf := by
  rw [nullableOf, if_pos (nullableOf_acceptsNull t)]

end Ty

/-- The value of the first constant of that exact name. -/
def EnumShape.value? {τ : Type} (d : EnumShape τ) (name : String) : Option (Word .int64) :=
  d.constants.lookup name

/-- The name of the first constant with that value. -/
def EnumShape.nameOf? {τ : Type} (d : EnumShape τ) (value : Word .int64) : Option String :=
  (d.constants.find? fun c => c.2 == value).map Prod.fst

/-- The position of the first field of that exact name. -/
def RecordShape.fieldIndex? {τ : Type} (d : RecordShape τ) (name : String) : Option Nat :=
  d.fields.findIdx? fun f => f.1 == name

/-- Every record definition has its data decidable, through its type. -/
instance : DecidableEq RecordDef := fun d e =>
  decidable_of_iff (Ty.record d = Ty.record e) ⟨Ty.record.inj, congrArg _⟩

/-- Every enumeration definition has its data decidable, through its type. -/
instance : DecidableEq EnumDef := fun d e =>
  decidable_of_iff (Ty.enum d = Ty.enum e) ⟨Ty.enum.inj, congrArg _⟩

end TypedExpr
