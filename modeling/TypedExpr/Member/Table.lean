import TypedExpr.Member.Builtin

/-!
# Members of types

What can stand behind a dot: fields, properties, constants and methods.

* `MemberTable.of` — everything that a type has.
* `MemberTable.findMember?`, `MemberTable.findMethods` — lookup by name.  A name in the exact
  letter case is preferred to one that differs in the case of ASCII letters.
-/

namespace TypedExpr

/-- Where the value of a member comes from. -/
inductive MemberKind
  | field (index : Nat)
  | property (p : Property)
  | constant (v : Value)

/-- A member with its static type. -/
structure Member where
  name : String
  ty : Ty
  kind : MemberKind

namespace Member

/-- Whether the member belongs to the type rather than to an instance. -/
def isStatic (m : Member) : Bool :=
  match m.kind with
  | .constant _ => true
  | _ => false

/-- The description of a member. -/
def text [GuidFormat] (m : Member) : String :=
  let kind := match m.kind with
    | .field index => s!"field #{index}"
    | .property _ => "property"
    | .constant v => s!"constant {v.text}"
  s!"Member({m.name}: {m.ty.text}, {kind})"

end Member

/-- The description of a method. -/
def Method.text (m : Method) : String :=
  s!"MethodDef({m.signature} -> {m.result.text})"

/-- All members and methods of a type. -/
structure MemberTable where
  members : List Member
  methods : List Method

namespace MemberTable

/-- The members of a type. -/
def membersOf : Ty → List Member
  | .record d => d.fields.mapIdx fun i f => ⟨f.1, f.2, .field i⟩
  | .enum d => d.constants.map fun c => ⟨c.1, .enum d, .constant (.enum d c.2)⟩
  | .string => [⟨"Length", .int .int32, .property .length⟩]
  | .nullable t => [⟨"HasValue", .boolean, .property .hasValue⟩, ⟨"Value", t, .property .value⟩]
  | .grouping key _ => [⟨"Key", key, .property .key⟩]
  | _ => []

/-- The methods that a type has besides `ToString`. -/
def methodsOf (s : Schema) : Ty → List Method
  | .record d => s.methods d
  | .enum d => enumMethods d
  | .string => stringMethods
  | .nullable t => nullableMethods t
  | _ => []

/-- Everything that a type has.  `ToString` is added unless a method of that name is declared. -/
def of [GuidFormat] (s : Schema) (t : Ty) : MemberTable :=
  let methods := methodsOf s t
  ⟨membersOf t,
    if methods.any (·.name == "ToString") then methods else methods ++ [toStringMethod]⟩

/-- The member of a name: in the exact letter case, or else in any. -/
def findMember? (table : MemberTable) (name : String) : Option Member :=
  (table.members.find? (·.name == name)).or
    (table.members.find? fun m => Text.eqIgnoreCase m.name name)

/-- The methods of a name: those in the exact letter case, or else those in any. -/
def findMethods (table : MemberTable) (name : String) : List Method :=
  let exact := table.methods.filter (·.name == name)
  if exact.isEmpty then table.methods.filter fun m => Text.eqIgnoreCase m.name name else exact

end MemberTable

end TypedExpr
