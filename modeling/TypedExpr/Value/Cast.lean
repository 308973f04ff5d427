import TypedExpr.EvalError
import TypedExpr.Text.Blank
import TypedExpr.Value.Number

/-!
# Explicit conversion of values

`Value.cast` converts a value to a type when an expression asks for it at run time.  Every value
is an object and has a text; texts are read as numbers, identifiers and constants of
enumerations; numbers convert into each other and into enumerations without a check.
-/

namespace TypedExpr.Value

/-- The 64 bit integer written in a text between blanks. -/
def readInt64? (s : String) : Option (Word .int64) :=
  (readInt? (Text.trim s)).bind (Word.fit? .int64)

/-- The constant of an enumeration that a text denotes: by name, or by number between blanks. -/
def readConstant? (d : EnumDef) (s : String) : Option (Word .int64) :=
  (d.value? s).or (readInt64? s)

/-- The identifier that a text denotes; braces around it are ignored. -/
def readGuid? [GuidFormat] (s : String) : Option Guid :=
  Guid.read? (Text.stripEnds (fun c => c == '\x7b' || c == '\x7d') s)

/-- The number of a numeric type that a text denotes.  Blanks around it are ignored, and a number
that has no exact place in the type is refused. -/
def readNumeric? (s : String) (target : Ty) : Option Value :=
  match target with
  | .int t => (readInt? (Text.trim s)).bind fun n => (Word.fit? t n).map (Value.int t)
  | _ => (readDouble? (Text.trim s)).bind fun x => (Value.double x).fitNumeric? target

/-- What a text was read as, for a type that it is cast to. -/
def readAs (s : String) (goal : Ty) (r : Option Value) : Except EvalError Value :=
  match r with
  | some w => .ok w
  | none => .error (.invalidFormat s goal.text)

/-- The unchecked numeric conversion as a cast, which may be refused. -/
def castNumber (v : Value) (goal : Ty) : Except EvalError Value :=
  match v.castNumeric? goal with
  | some w => .ok w
  | none => .error (.invalidCast v.kindName goal.text)

theorem castNumber_eq_ok {v w : Value} {goal : Ty} :
    v.castNumber goal = .ok w ↔ v.castNumeric? goal = some w := by
  unfold castNumber
  split
  next found => rw [found, Except.ok.injEq, Option.some.injEq]
  next refused => simp [refused]

/-- The explicit conversion of a text to a type that texts are read as. -/
def castText [GuidFormat] (s : String) (goal : Ty) : Except EvalError Value :=
  match goal with
  | .guid => readAs s goal ((readGuid? s).map .guid)
  | .enum d => readAs s goal ((readConstant? d s).map (.enum d))
  | .int _ | .single | .double => readAs s goal (readNumeric? s goal)
  | _ => (Value.string s).castNumber goal

/-- Whether a value is of a type as it is.  What is in a sequence or a grouping is not looked
at. -/
def isOf (v : Value) (goal : Ty) : Bool :=
  match v, goal with
  | .boolean _, .boolean | .guid _, .guid | .dateTime _, .dateTime => true
  | .enum d _, .enum e => d = e
  | .object _ d _, .record e => d = e
  | .sequence .., .sequence _ | .grouping .., .sequence _ | .grouping .., .grouping .. => true
  | _, _ => false

/-- The explicit conversion of a value other than null to a type without explicit null. -/
def castPlain [GuidFormat] (v : Value) (goal : Ty) : Except EvalError Value :=
  match goal with
  | .object => .ok v
  | .string => .ok (.string v.text)
  | goal =>
    match v with
    | .string s => castText s goal
    | v => if v.isOf goal then .ok v else v.castNumber goal

/-- The explicit conversion of a value to a type.  One explicit null on the type is ignored,
unless the value is null. -/
def cast [GuidFormat] (v : Value) (target : Ty) : Except EvalError Value :=
  if v.isNull then
    if target.acceptsNull then .ok .null
    else .error (.nullReference (.conversion target.text))
  else v.castPlain target.nonNullable

end TypedExpr.Value
