import TypedExpr.Guid
import TypedExpr.Numeric.NumberText
import TypedExpr.Ty

/-!
# Values

What expressions compute with.  A value carries no static type, but it shows one: `Value.ty`.

Objects, sequences and groupings have an identity besides their content.  Equality of values
looks at it first, so that a sequence equals itself whatever it holds.

* `Value.defaultOf` — the value that a type starts from.
* `Value.ty` — the best static type for a value.
* `Value.kindName` — the name of a value's kind in messages.
* `Value.text` — a value as text.
-/

namespace TypedExpr

/-- Tells apart objects, sequences and groupings that were built separately. -/
abbrev Identity := Nat

/-- The values.  The constant of an enumeration is held as its number; a date as milliseconds
since the beginning of 1970. -/
inductive Value
  | null
  | boolean (b : Bool)
  | int (t : IntType) (n : Word t)
  | single (x : Float32)
  | double (x : Float)
  | string (s : String)
  | guid (g : Guid)
  | dateTime (ms : Word .int64)
  | enum (d : EnumDef) (n : Word .int64)
  | object (id : Identity) (d : RecordDef) (fields : List Value)
  | sequence (id : Identity) (items : List Value)
  | grouping (id : Identity) (key : Value) (items : List Value)

namespace Value

/-! ## Views -/

/-- Whether the value is null. -/
def isNull : Value → Bool
  | .null => true
  | _ => false

/-- The truth value, of a Boolean. -/
def bool? : Value → Option Bool
  | .boolean b => some b
  | _ => none

/-- The text, of a string. -/
def string? : Value → Option String
  | .string s => some s
  | _ => none

/-- The items, of a sequence or a grouping. -/
def items? : Value → Option (List Value)
  | .sequence _ items | .grouping _ _ items => some items
  | _ => none

/-- Whether the value is an object. -/
def isObject : Value → Bool
  | .object .. => true
  | _ => false

/-- An integer of type `int32`. -/
def int32 (n : Int) : Value := .int .int32 (Word.wrap .int32 n)

/-- The value that a type starts from: zero or false, and null where null is a value. -/
def defaultOf : Ty → Value
  | .boolean => .boolean false
  | .int t => .int t (Word.zero t)
  | .single => .single 0
  | .double => .double 0
  | .guid => .guid Guid.nil
  | .dateTime => .dateTime (Word.zero .int64)
  | .enum d => .enum d (Word.zero .int64)
  | _ => .null

/-! ## Types of values -/

mutual

/-- The best static type for a value. -/
def ty : Value → Ty
  | .null => .null
  | .boolean _ => .boolean
  | .int t _ => .int t
  | .single _ => .single
  | .double _ => .double
  | .string _ => .string
  | .guid _ => .guid
  | .dateTime _ => .dateTime
  | .enum d _ => .enum d
  | .object _ d _ => .record d
  | .sequence _ items => .sequence (itemsTy items)
  | .grouping _ key items => .grouping (ty key) (itemsTy items)

/-- The type of the first item that is not null; without one, any value may be an item. -/
def itemsTy : List Value → Ty
  | [] => .object
  | v :: rest => if v.isNull then itemsTy rest else ty v

end

/-- The name of a value's kind in messages. -/
def kindName : Value → String
  | .null => "null"
  | .sequence .. => "IEnumerable"
  | .grouping .. => "IGrouping"
  | v => v.ty.text

/-! ## Text -/

variable [GuidFormat]

mutual

/-- The value as text: null is empty, a constant of an enumeration is its name, an object lists
its fields, and a sequence shows its type only. -/
def text : Value → String
  | .null => ""
  | .boolean b => if b then "True" else "False"
  | .int _ n => intText n.val
  | .single x => singleText x
  | .double x => doubleText x
  | .string s => s
  | .guid g => g.text
  | .dateTime ms => intText ms.val
  | .enum d n => (d.nameOf? n).getD (intText n.val)
  | .object _ d fields => "\x7b " ++ fieldsText d.fields fields ++ " \x7d"
  | .sequence _ items => (Ty.sequence (itemsTy items)).text
  | .grouping _ key items => (Ty.grouping key.ty (itemsTy items)).text

/-- Names and values of fields, with commas between them. -/
def fieldsText : List (String × Ty) → List Value → String
  | (name, _) :: fields, v :: values =>
    let head := name ++ " = " ++ v.text
    match fields, values with
    | _ :: _, _ :: _ => head ++ ", " ++ fieldsText fields values
    | _, _ => head
  | _, _ => ""

end

end Value

end TypedExpr
