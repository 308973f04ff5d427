import TypedExpr.Schema

/-!
# Implicit conversions

Which type converts to which without being asked to, and at what cost.  Costs rank the candidates
of an overloaded call and the two sides of an operator; less is better.

| conversion                        | cost    |
|-----------------------------------|---------|
| none needed                       | 0       |
| null, or adding null to a type    | 1       |
| widening a number                 | 2 to 9  |
| enumeration to underlying type    | 10      |
| conversion declared by a record   | 20      |
| anything to the object type       | 50      |

* `Ty.implicit?` — the built-in conversions.
* `Schema.implicit?` — the declared ones included.
-/

namespace TypedExpr

/-- The kinds of implicit conversions.  A declared one is named by its record and its position
there. -/
inductive ConversionKind
  | identity
  | nullLiteral
  | nullableWrap
  | numericWidening
  | enumToUnderlying
  | groupingToSequence
  | userDefined (d : RecordDef) (index : Nat)
  | toObject
deriving DecidableEq

/-- An implicit conversion with its cost. -/
structure ImplicitConversion where
  kind : ConversionKind
  cost : Nat
deriving DecidableEq

/-- Whether nothing has to be converted. -/
def ImplicitConversion.isIdentity (c : ImplicitConversion) : Bool :=
  c.kind == .identity

namespace Ty

/-- The types that a number widens to, the preferred ones first. -/
def widenings : Ty → List Ty
  | .int .int8 => [.int .int16, .int .int32, .int .int64, .single, .double]
  | .int .uint8 => [.int .int16, .int .uint16, .int .int32, .int .uint32, .int .int64,
      .int .uint64, .single, .double]
  | .int .int16 => [.int .int32, .int .int64, .single, .double]
  | .int .uint16 => [.int .int32, .int .uint32, .int .int64, .int .uint64, .single, .double]
  | .int .int32 => [.int .int64, .single, .double]
  | .int .uint32 => [.int .int64, .int .uint64, .single, .double]
  | .int .int64 | .int .uint64 => [.single, .double]
  | .single => [.double]
  | _ => []

/-- The cost of widening a number; a numeric type widens to itself at no cost. -/
def wideningCost? (source target : Ty) : Option Nat :=
  if source = target ∧ source.isNumeric then some 0
  else (source.widenings.findIdx? (· == target)).map (2 + ·)

/-- A conversion between the types inside, seen as one to a type with null. -/
def wrapNull (identity : Bool) (inner : ImplicitConversion) : Option ImplicitConversion :=
  match inner.kind with
  | .numericWidening | .enumToUnderlying => some ⟨.nullableWrap, inner.cost + 1⟩
  | .identity => if identity then some ⟨.nullableWrap, inner.cost + 1⟩ else none
  | _ => none

/-- The conversion of a number to a wider type, or of anything to the object type. -/
def widened? (source target : Ty) : Option ImplicitConversion :=
  match wideningCost? source target with
  | some cost => some ⟨.numericWidening, cost⟩
  | none => if target = .object then some ⟨.toObject, 50⟩ else none

/-- The conversion between different types, where the target has no explicit null. -/
def implicitPlain? (source target : Ty) : Option ImplicitConversion :=
  match source, target with
  | .grouping _ t, .sequence u =>
    if t = u then some ⟨.groupingToSequence, 1⟩ else widened? source target
  | .enum d, t =>
    if t.isNumeric then (wideningCost? d.underlying t).map fun c => ⟨.enumToUnderlying, 10 + c⟩
    else widened? source target
  | _, _ => widened? source target

/-- The built-in conversion from one type to another. -/
def implicit? (source : Ty) : Ty → Option ImplicitConversion
  | .nullable t =>
    if source = .nullable t then some ⟨.identity, 0⟩
    else
      match source with
      | .null => some ⟨.nullLiteral, 1⟩
      | .nullable s => (implicit? s t).bind (wrapNull false)
      | s => (implicit? s t).bind (wrapNull true)
  | target =>
    if source = target then some ⟨.identity, 0⟩
    else if source = .null then
      if target.acceptsNull then some ⟨.nullLiteral, 1⟩ else none
    else implicitPlain? source target

end Ty

namespace Schema

/-- The conversion into a record that it declares for a type. -/
def userDefined? (s : Schema) (source : Ty) (d : RecordDef) : Option ImplicitConversion :=
  ((s.conversions d).findIdx? fun c => c.source == source).map fun i => ⟨.userDefined d i, 20⟩

/-- The conversion from one type to another; a declared one is used where no built-in one is. -/
def implicit? (s : Schema) (source target : Ty) : Option ImplicitConversion :=
  (source.implicit? target).or
    (match target with
      | .record d => s.userDefined? source d
      | _ => none)

/-- The conversion of an operand of an operator, which never becomes a mere object. -/
def operandConversion? (s : Schema) (source target : Ty) : Option ImplicitConversion :=
  (s.implicit? source target).filter fun c => c.kind != .toObject

end Schema

end TypedExpr
