import TypedExpr.Eval

/-!
# What records can do

The data of a record definition is part of its type.  A `Schema` adds what records can do: the
methods of their instances, the comparisons they declare with other types, and the implicit
conversions into them.  Records that the schema does not list, such as those made by a
projection, can do nothing.
-/

namespace TypedExpr

/-- A method of an instance: it is run on the receiver and the arguments. -/
structure Method where
  name : String
  params : List Ty
  result : Ty
  run : Value → List Value → Eval Value

/-- Name and parameter types. -/
def Method.signature (m : Method) : String :=
  m.name ++ "(" ++ ", ".intercalate (m.params.map Ty.text) ++ ")"

/-- One side of a declared comparison; `this` stands for the declaring record. -/
inductive Operand
  | this
  | other (t : Ty)
deriving DecidableEq

/-- The type of a side of a comparison that `d` declares. -/
def Operand.resolve (d : RecordDef) : Operand → Ty
  | this => .record d
  | other t => t

/-- An order between two types.  `none` says that the operands are not ordered. -/
structure Comparison where
  left : Operand
  right : Operand
  order : Value → Value → Except EvalError (Option Ordering)

/-- An implicit conversion from a type into the declaring record. -/
structure Conversion where
  source : Ty
  convert : Value → Eval Value

/-- A record with everything that its instances can do. -/
structure RecordEntry where
  data : RecordDef
  methods : List Method
  comparisons : List Comparison
  conversions : List Conversion

/-- The records with their capabilities. -/
structure Schema where
  records : List RecordEntry

namespace Schema

/-- The schema without records. -/
def empty : Schema := ⟨[]⟩

/-- The entry of a record. -/
def find? (s : Schema) (d : RecordDef) : Option RecordEntry :=
  s.records.find? fun r => r.data == d

/-- The methods declared by a record. -/
def methods (s : Schema) (d : RecordDef) : List Method :=
  (s.find? d).elim [] RecordEntry.methods

/-- A method of a record is declared by an entry of the schema. -/
theorem mem_methods {s : Schema} {d : RecordDef} {m : Method} (h : m ∈ s.methods d) :
    ∃ r ∈ s.records, m ∈ r.methods := by
  unfold methods at h
  cases hr : s.find? d with
  | none => simp [hr] at h
  | some r => exact ⟨r, List.mem_of_find?_eq_some hr, by simpa [hr] using h⟩

/-- The comparisons declared by a record. -/
def comparisons (s : Schema) (d : RecordDef) : List Comparison :=
  (s.find? d).elim [] RecordEntry.comparisons

/-- The conversions declared by a record. -/
def conversions (s : Schema) (d : RecordDef) : List Conversion :=
  (s.find? d).elim [] RecordEntry.conversions

/-- A declared comparison, as found for two operand types.  It is `reversed` if the declaration
lists the operands in the other order. -/
structure ComparisonMatch where
  order : Value → Value → Except EvalError (Option Ordering)
  reversed : Bool

/-- The description of a match. -/
def ComparisonMatch.text (m : ComparisonMatch) : String :=
  s!"ComparisonMatch(reversed: {m.reversed})"

/-- The first comparison that a record declares between two types, in either order. -/
def declaredComparison? (s : Schema) (d : RecordDef) (left right : Ty) :
    Option ComparisonMatch :=
  (s.comparisons d).findSome? fun c =>
    let l := c.left.resolve d
    let r := c.right.resolve d
    if l = left && r = right then some ⟨c.order, false⟩
    else if l = right && r = left then some ⟨c.order, true⟩
    else none

/-- The comparison declared between two types: the left one is asked first. -/
def findComparison? (s : Schema) (left right : Ty) : Option ComparisonMatch :=
  [left, right].findSome? fun
    | .record d => s.declaredComparison? d left right
    | _ => none

end Schema

end TypedExpr
