import TypedExpr.Value.Number

/-!
# Values that conform to a type

Which values may stand where a static type is.

* `Value.ConformsIn` — the relation.  Two parameters say whether every value at all is an object,
  or only a value that conforms to some type, and whether null may stand for an integer.
* `Value.Conforms` — the relation without exceptions: every object inside of a value, however
  deep, has fields that conform to their declared types.
* `Value.ConformsLoosely` — the relation in which an object may hold anything once it is only
  known as an object.
* **`Value.ConformsIn.nonNullable`** — apart from null, a nullable type has no values of its own.
-/

namespace TypedExpr

/-- The value may stand where the static type is.  A value that conforms to some type is an object;
if `loose` holds, every value is.  If `lax` holds, null may stand for an integer that is not
narrow. -/
inductive Value.ConformsIn (loose lax : Prop) : Value → Ty → Prop
  | null {t : Ty} (accepts : t.acceptsNull = true) : ConformsIn loose lax .null t
  | lost {t : IntType} (wide : t.promoted = t) (may : lax) : ConformsIn loose lax .null (.int t)
  | boolean (b : Bool) : ConformsIn loose lax (.boolean b) .boolean
  | int (t : IntType) (n : Word t) : ConformsIn loose lax (.int t n) (.int t)
  | single (x : Float32) : ConformsIn loose lax (.single x) .single
  | double (x : Float) : ConformsIn loose lax (.double x) .double
  | string (s : String) : ConformsIn loose lax (.string s) .string
  | guid (g : Guid) : ConformsIn loose lax (.guid g) .guid
  | dateTime (ms : Word .int64) : ConformsIn loose lax (.dateTime ms) .dateTime
  | enum (d : EnumDef) (n : Word .int64) : ConformsIn loose lax (.enum d n) (.enum d)
  | object {id : Identity} {d : RecordDef} {fields : List Value}
      (size : fields.length = d.fields.length)
      (each : ∀ (i : Nat) (v : Value) (f : String × Ty), fields[i]? = some v →
        d.fields[i]? = some f → ConformsIn loose lax v f.2) :
      ConformsIn loose lax (.object id d fields) (.record d)
  | sequence {id : Identity} {items : List Value} {t : Ty}
      (each : ∀ v ∈ items, ConformsIn loose lax v t) :
      ConformsIn loose lax (.sequence id items) (.sequence t)
  | groupingItems {id : Identity} {key : Value} {items : List Value} {t : Ty}
      (each : ∀ v ∈ items, ConformsIn loose lax v t) :
      ConformsIn loose lax (.grouping id key items) (.sequence t)
  | grouping {id : Identity} {key : Value} {items : List Value} {k t : Ty}
      (ofKey : ConformsIn loose lax key k) (each : ∀ v ∈ items, ConformsIn loose lax v t) :
      ConformsIn loose lax (.grouping id key items) (.grouping k t)
  | nullable {v : Value} {t : Ty} (inner : ConformsIn loose lax v t) :
      ConformsIn loose lax v (.nullable t)
  | typed {v : Value} {t : Ty} (some_type : ConformsIn loose lax v t) :
      ConformsIn loose lax v .object
  | untyped {v : Value} (any : loose) : ConformsIn loose lax v .object

namespace Value

/-- The value and every object inside of it has the form that its type declares. -/
abbrev Conforms (v : Value) (t : Ty) : Prop := v.ConformsIn False False t

/-- The value has the form that its type declares, except behind the object type. -/
abbrev ConformsLoosely (v : Value) (t : Ty) : Prop := v.ConformsIn True False t

variable {loose lax : Prop} {v : Value} {t : Ty}

/-! ## Null -/

theorem isNull_iff : v.isNull = true ↔ v = .null := by
  cases v <;> simp [isNull]

@[simp] theorem isNull_null : Value.null.isNull = true := rfl

/-- **Null conforms to the types that accept null**, and to integers if it may stand for one. -/
theorem conformsIn_null_iff : Value.null.ConformsIn loose lax t ↔
    t.acceptsNull = true ∨ lax ∧ ∃ u : IntType, t = .int u ∧ u.promoted = u := by
  constructor
  · intro h
    cases h with
    | null accepts => exact Or.inl accepts
    | lost wide may => exact Or.inr ⟨may, _, rfl, wide⟩
    | nullable _ | typed _ | untyped _ => exact Or.inl rfl
  · rintro (accepts | ⟨may, u, rfl, wide⟩)
    · exact .null accepts
    · exact .lost wide may

/-- Without exceptions, null conforms to the types that accept null and to no other. -/
theorem conforms_null_iff : Value.null.Conforms t ↔ t.acceptsNull = true := by
  simp [Conforms, conformsIn_null_iff]

/-- A value other than null that conforms to a type conforms to it without its explicit null. -/
theorem ConformsIn.nonNullable (h : v.ConformsIn loose lax t) (hv : v.isNull = false) :
    v.ConformsIn loose lax t.nonNullable := by
  cases h with
  | null _ | lost _ _ => simp at hv
  | nullable inner => exact inner
  | typed h => exact .typed h
  | untyped h => exact .untyped h
  | boolean b => exact .boolean b
  | int t n => exact .int t n
  | single x => exact .single x
  | double x => exact .double x
  | string s => exact .string s
  | guid g => exact .guid g
  | dateTime ms => exact .dateTime ms
  | enum d n => exact .enum d n
  | object size each => exact .object size each
  | sequence each => exact .sequence each
  | groupingItems each => exact .groupingItems each
  | grouping ofKey each => exact .grouping ofKey each

/-- A value that conforms to a type without its explicit null conforms to the type. -/
theorem ConformsIn.of_nonNullable (h : v.ConformsIn loose lax t.nonNullable) :
    v.ConformsIn loose lax t := by
  cases t with
  | nullable t => exact .nullable h
  | _ => exact h

/-- What conforms without exceptions conforms with them. -/
theorem Conforms.conformsIn (h : v.Conforms t) : v.ConformsIn loose lax t := by
  induction h with
  | null accepts => exact .null accepts
  | lost _ may => exact may.elim
  | boolean b => exact .boolean b
  | int t n => exact .int t n
  | single x => exact .single x
  | double x => exact .double x
  | string s => exact .string s
  | guid g => exact .guid g
  | dateTime ms => exact .dateTime ms
  | enum d n => exact .enum d n
  | object size _ ih => exact .object size ih
  | sequence _ ih => exact .sequence ih
  | groupingItems _ ih => exact .groupingItems ih
  | grouping _ _ ihKey ih => exact .grouping ihKey ih
  | nullable _ ih => exact .nullable ih
  | typed _ ih => exact .typed ih
  | untyped any => exact any.elim

/-! ## The values of a type -/

theorem ConformsIn.eq_null (h : v.ConformsIn loose lax .null) : v = .null := by
  cases h with
  | null _ => rfl

theorem ConformsIn.eq_boolean (h : v.ConformsIn loose lax .boolean) : ∃ b, v = .boolean b := by
  cases h with
  | null accepts => cases accepts
  | boolean b => exact ⟨b, rfl⟩

theorem ConformsIn.eq_int {u : IntType} (h : v.ConformsIn loose lax (.int u)) :
    v = .null ∨ ∃ n, v = .int u n := by
  cases h with
  | null _ | lost _ _ => exact Or.inl rfl
  | int _ n => exact Or.inr ⟨n, rfl⟩

theorem ConformsIn.eq_single (h : v.ConformsIn loose lax .single) : ∃ x, v = .single x := by
  cases h with
  | null accepts => cases accepts
  | single x => exact ⟨x, rfl⟩

theorem ConformsIn.eq_double (h : v.ConformsIn loose lax .double) : ∃ x, v = .double x := by
  cases h with
  | null accepts => cases accepts
  | double x => exact ⟨x, rfl⟩

theorem ConformsIn.eq_enum {d : EnumDef} (h : v.ConformsIn loose lax (.enum d)) :
    ∃ n, v = .enum d n := by
  cases h with
  | null accepts => cases accepts
  | enum _ n => exact ⟨n, rfl⟩

theorem ConformsIn.eq_guid (h : v.ConformsIn loose lax .guid) : ∃ g, v = .guid g := by
  cases h with
  | null accepts => cases accepts
  | guid g => exact ⟨g, rfl⟩

theorem ConformsIn.eq_dateTime (h : v.ConformsIn loose lax .dateTime) :
    ∃ ms, v = .dateTime ms := by
  cases h with
  | null accepts => cases accepts
  | dateTime ms => exact ⟨ms, rfl⟩

theorem ConformsIn.eq_string (h : v.ConformsIn loose lax .string) :
    v = .null ∨ ∃ s, v = .string s := by
  cases h with
  | null _ => exact Or.inl rfl
  | string s => exact Or.inr ⟨s, rfl⟩

/-- What stands where a record is, is null or an object of it with fields of their types. -/
theorem ConformsIn.eq_object {d : RecordDef} (h : v.ConformsIn loose lax (.record d)) :
    v = .null ∨ ∃ id fields, v = .object id d fields ∧ fields.length = d.fields.length ∧
      ∀ (i : Nat) (w : Value) (f : String × Ty), fields[i]? = some w → d.fields[i]? = some f →
        w.ConformsIn loose lax f.2 := by
  cases h with
  | null _ => exact Or.inl rfl
  | object size each => exact Or.inr ⟨_, _, rfl, size, each⟩

theorem ConformsIn.eq_grouping {k : Ty} (h : v.ConformsIn loose lax (.grouping k t)) :
    v = .null ∨ ∃ id key items, v = .grouping id key items ∧ key.ConformsIn loose lax k ∧
      ∀ w ∈ items, w.ConformsIn loose lax t := by
  cases h with
  | null _ => exact Or.inl rfl
  | grouping ofKey each => exact Or.inr ⟨_, _, _, rfl, ofKey, each⟩

/-- What stands where a sequence or a grouping is, is null or has items of the element type. -/
theorem ConformsIn.items {u : Ty} (h : v.ConformsIn loose lax t) (ht : t.element? = some u) :
    v = .null ∨ ∃ items, v.items? = some items ∧ ∀ w ∈ items, w.ConformsIn loose lax u := by
  cases h with
  | null _ => exact Or.inl rfl
  | sequence each | groupingItems each | grouping _ each =>
    cases ht
    exact Or.inr ⟨_, rfl, each⟩
  | _ => cases ht

/-- Behind whatever type an object is known, its fields have their types. -/
theorem ConformsIn.record {id : Identity} {d : RecordDef} {fields : List Value} {t : Ty}
    (h : (Value.object id d fields).ConformsIn False lax t) :
    (Value.object id d fields).ConformsIn False lax (.record d) := by
  -- the type is the record itself, or one of those that are put around another type
  generalize hv : Value.object id d fields = v at h
  induction h with
  | object size each =>
    cases hv
    exact .object size each
  | nullable _ ih | typed _ ih => exact ih hv
  | untyped any => exact any.elim
  | _ => cases hv

/-! ## Where values come from -/

/-- The value that a type starts from conforms to it. -/
theorem defaultOf_conformsIn (t : Ty) : (defaultOf t).ConformsIn loose lax t := by
  cases t with
  | boolean => exact .boolean false
  | int t => exact .int t _
  | single => exact .single 0
  | double => exact .double 0
  | guid => exact .guid _
  | dateTime => exact .dateTime _
  | enum d => exact .enum d _
  | _ => exact .null rfl

/-- Whatever number it is made from, a value of a numeric type or an enumeration is one. -/
theorem ofNumber?_conformsIn {n : Number} (h : ofNumber? n t = some v) :
    v.ConformsIn loose lax t := by
  cases t with
  | int t =>
    obtain rfl := Option.some.inj h
    exact .int t _
  | single =>
    obtain rfl := Option.some.inj h
    exact .single _
  | double =>
    obtain rfl := Option.some.inj h
    exact .double _
  | enum d =>
    obtain rfl := Option.some.inj h
    exact .enum d _
  | _ => cases h

theorem castNumeric?_conformsIn {w : Value} (h : v.castNumeric? t = some w) :
    w.ConformsIn loose lax t := by
  obtain ⟨n, -, h⟩ := Option.bind_eq_some_iff.1 h
  exact ofNumber?_conformsIn h

theorem fitNumeric?_conformsIn {w : Value} (h : v.fitNumeric? t = some w) :
    w.ConformsIn loose lax t :=
  castNumeric?_conformsIn (castNumeric?_of_fitNumeric? h)

end Value

end TypedExpr
