import TypedExpr.Numeric.WordOps
import TypedExpr.Schema
import TypedExpr.Text.Blank
import TypedExpr.Text.LetterCase
import TypedExpr.Text.Part
import TypedExpr.Text.Scan
import TypedExpr.Value.Number

/-!
# Built-in members

The properties and methods that strings, nullable types, groupings and enumerations have, and
`ToString`, which every type has.

* `Property` — the computed properties, and how each is read.
* `stringMethods`, `nullableMethods`, `enumMethods`, `toStringMethod` — the methods.

Positions in strings count characters.
-/

namespace TypedExpr

/-! ## Properties -/

/-- The computed properties. -/
inductive Property
  | length
  | hasValue
  | value
  | key
deriving DecidableEq, Repr

/-- A receiver that has to be a string. -/
def receiverString (this : Value) : Except EvalError String :=
  match this with
  | .string s => .ok s
  | _ => .error (.nullReference .stringReceiver)

/-- The value of a property. -/
def Property.read (p : Property) (this : Value) : Except EvalError Value :=
  match p with
  | length => (receiverString this).map fun s => Value.int32 s.length
  | hasValue => .ok (.boolean (!this.isNull))
  | value => if this.isNull then .error (.nullReference .valueOfNullable) else .ok this
  | key =>
    match this with
    | .grouping _ k _ => .ok k
    | v => .error (.typeMismatch "IGrouping" v.kindName (.member "Key"))

/-! ## Arguments of methods -/

/-- The argument at a position as a string. -/
def stringArgument (args : List Value) (i : Nat) : Except EvalError String :=
  match args[i]? with
  | some (.string s) => .ok s
  | some .null => .error (.nullReference (.argument i))
  | v? => .error (.typeMismatch "String" (v?.elim "" Value.kindName) (.argument i))

/-- The argument at a position as a 64 bit integer. -/
def indexArgument (args : List Value) (i : Nat) : Except EvalError Int :=
  match (args[i]?).bind Value.int64? with
  | some n => .ok n.val
  | none => .error (.typeMismatch "Int32" ((args[i]?).elim "" Value.kindName) (.argument i))

/-- Characters of a string from a position, all of them or a given number.  A length that runs
past the end is reported as the end position that it asks for. -/
def substring (s : String) (start : Int) (length : Option Int) : Except EvalError Value :=
  if start < 0 || start > s.length then .error (.indexOutOfRange start s.length)
  else
    let count := length.getD (s.length - start)
    let outside := .error (.indexOutOfRange (Word.wrap .int64 (start + count)).val s.length)
    if count < 0 then outside
    else
      match Text.part? s start.toNat count.toNat with
      | some part => .ok (.string part)
      | none => outside

/-! ## Methods -/

/-- A method that only computes. -/
def Method.pure (name : String) (params : List Ty) (result : Ty)
    (f : Value → List Value → Except EvalError Value) : Method :=
  ⟨name, params, result, fun this args => liftM (f this args)⟩

/-- A test of two strings. -/
def stringTest (name : String) (f : String → String → Bool) : Method :=
  .pure name [.string] .boolean fun this args => do
    let s ← receiverString this
    let pattern ← stringArgument args 0
    return .boolean (f s pattern)

/-- A string computed from a string. -/
def stringMap (name : String) (f : String → String) : Method :=
  .pure name [] .string fun this _ => (receiverString this).map fun s => .string (f s)

/-- The text of any value. -/
def toStringMethod [GuidFormat] : Method :=
  .pure "ToString" [] .string fun this _ => .ok (.string this.text)

/-- The methods of strings. -/
def stringMethods : List Method := [
  stringTest "Contains" Text.scanContains,
  stringTest "StartsWith" fun s pattern => s.startsWith pattern,
  stringTest "EndsWith" fun s pattern => s.endsWith pattern,
  stringTest "Equals" fun s other => s == other,
  stringMap "ToUpper" Text.upper,
  stringMap "ToLower" Text.lower,
  stringMap "Trim" Text.trim,
  .pure "Substring" [.int .int32] .string fun this args => do
    substring (← receiverString this) (← indexArgument args 0) none,
  .pure "Substring" [.int .int32, .int .int32] .string fun this args => do
    substring (← receiverString this) (← indexArgument args 0) (some (← indexArgument args 1)),
  .pure "IndexOf" [.string] (.int .int32) fun this args => do
    let s ← receiverString this
    let pattern ← stringArgument args 0
    return match Text.scanIndex? pattern s with
      | some i => Value.int32 i
      | none => Value.int32 (-1),
  .pure "Replace" [.string, .string] .string fun this args => do
    let s ← receiverString this
    let pattern ← stringArgument args 0
    let replacement ← stringArgument args 1
    return .string (Text.scanReplace s pattern replacement)]

/-- The methods of a nullable type. -/
def nullableMethods (inner : Ty) : List Method := [
  .pure "GetValueOrDefault" [] inner fun this _ =>
    .ok (if this.isNull then Value.defaultOf inner else this)]

/-- The methods of an enumeration.  A flag is a set of bits. -/
def enumMethods (d : EnumDef) : List Method := [
  .pure "HasFlag" [.enum d] .boolean fun this args =>
    let flags := this.int64?.getD (Word.zero .int64)
    let flag := (args.head?.bind Value.int64?).getD (Word.zero .int64)
    .ok (.boolean (flags.land flag == flag))]

end TypedExpr
