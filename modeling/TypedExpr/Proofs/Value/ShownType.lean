import TypedExpr.Compile
import TypedExpr.Proofs.Evaluation.Native
import TypedExpr.Proofs.Value.Parts

/-!
# The type that a value shows

A constant gets the type that its value shows.  The type of a sequence is read off the first item
that is not null, and null is not added to it.  A sequence with items of one type therefore is of
the type that it shows, unless it holds null beside items of a type without null.

* `Ty.admits` — the values of a type, as a test that does not look into objects.
* `Value.ObjectsConform.conforms` — the test is enough where the objects conform.
* `Value.Uniform`, `Value.NullsFit` — items of one type, and null only among items that have null.
* **`Value.admits_ty_iff`** — when a value is of the type that it shows.
* **`Parameter.ofValue_admits`** — when a constant is of the type that it is given.
-/

namespace TypedExpr

/-! ## The values of a type -/

/-- Whether the value is of the type.  Null is of the types that accept null, every value is an
object, and the items and the key of a value are of the types inside of the type.  An object is of
its record, whatever its fields hold. -/
def Ty.admits (t : Ty) (v : Value) : Bool :=
  if v.isNull then t.acceptsNull
  else
    match t, v with
    | .object, _ => true
    | .nullable t, v => t.admits v
    | .sequence t, .sequence _ items | .sequence t, .grouping _ _ items => items.all t.admits
    | .grouping k t, .grouping _ key items => k.admits key && items.all t.admits
    | .boolean, .boolean _ | .single, .single _ | .double, .double _ | .string, .string _ => true
    | .guid, .guid _ | .dateTime, .dateTime _ => true
    | .int t, .int u _ => t = u
    | .enum d, .enum e _ => d = e
    | .record d, .object _ e _ => d = e
    | _, _ => false

namespace Value

variable {t : Ty} {v w key : Value} {items l : List Value} {id : Identity}

theorem admits_null : t.admits .null = t.acceptsNull := by
  cases t <;> rfl

theorem admits_object (v : Value) : Ty.object.admits v = true := by
  cases v <;> rfl

theorem admits_nullable (v : Value) : (Ty.nullable t).admits v = (v.isNull || t.admits v) := by
  cases v <;> rfl

/-- What conforms to a type is of the type. -/
theorem Conforms.admits (h : v.Conforms t) : t.admits v = true := by
  induction h with
  | null accepts => exact admits_null.trans accepts
  | lost _ may => exact may.elim
  | untyped any => exact any.elim
  | typed => exact admits_object _
  | nullable _ ih => rw [admits_nullable, ih, Bool.or_true]
  | boolean | single | double | string | guid | dateTime => rfl
  | int | enum | object => exact decide_eq_true rfl
  | sequence _ ih | groupingItems _ ih => exact List.all_eq_true.2 ih
  | grouping _ _ ihKey ih => exact Bool.and_eq_true_iff.2 ⟨ihKey, List.all_eq_true.2 ih⟩

/-- Every object inside of the value has the fields that its record declares. -/
def ObjectsConform (v : Value) : Prop :=
  ∀ id d fields, .object id d fields ∈ v.parts → (Value.object id d fields).Conforms (.record d)

theorem ObjectsConform.mono (h : v.ObjectsConform) (inside : w.parts ⊆ v.parts) :
    w.ObjectsConform :=
  fun id d fields hp => h id d fields (inside hp)

/-- A value whose objects conform is an object. -/
theorem ObjectsConform.conforms_object (h : v.ObjectsConform) : v.Conforms .object := by
  induction v using nested_induction with
  | null => exact .null rfl
  | boolean b => exact .typed (.boolean b)
  | int t n => exact .typed (.int t n)
  | single x => exact .typed (.single x)
  | double x => exact .typed (.double x)
  | string s => exact .typed (.string s)
  | guid g => exact .typed (.guid g)
  | dateTime ms => exact .typed (.dateTime ms)
  | enum d n => exact .typed (.enum d n)
  | object id d fields _ => exact .typed (h id d fields (mem_parts_self _))
  | sequence id items ih =>
    exact .typed (.sequence (t := .object) fun v hv => ih v hv (h.mono (parts_item hv)))
  | grouping id key items _ ih =>
    exact .typed (.groupingItems (t := .object) fun v hv => ih v hv (h.mono (parts_member hv)))

/-- If its objects conform, a value conforms to every type that it is of. -/
theorem ObjectsConform.conforms (t : Ty) {v : Value} (h : v.ObjectsConform)
    (admitted : t.admits v = true) : v.Conforms t := by
  by_cases isNull : v.isNull = true
  · obtain rfl := isNull_iff.1 isNull
    exact .null (admits_null.symm.trans admitted)
  cases t with
  | object => exact h.conforms_object
  | nullable t =>
    rw [admits_nullable, Bool.or_eq_true] at admitted
    exact .nullable (conforms t h (admitted.resolve_left isNull))
  | sequence t =>
    cases v with
    | sequence id items =>
      exact .sequence fun v hv =>
        conforms t (h.mono (parts_item hv)) (List.all_eq_true.1 admitted v hv)
    | grouping id key items =>
      exact .groupingItems fun v hv =>
        conforms t (h.mono (parts_member hv)) (List.all_eq_true.1 admitted v hv)
    | _ => contradiction
  | grouping k t =>
    cases v with
    | grouping id key items =>
      have both := Bool.and_eq_true_iff.1 admitted
      exact .grouping (conforms k (h.mono parts_key) both.1) fun v hv =>
        conforms t (h.mono (parts_member hv)) (List.all_eq_true.1 both.2 v hv)
    | _ => contradiction
  | record d =>
    cases v with
    | object id e fields =>
      obtain rfl := of_decide_eq_true admitted
      exact h id _ fields (mem_parts_self _)
    | _ => contradiction
  | int t =>
    cases v with
    | int u n =>
      obtain rfl := of_decide_eq_true admitted
      exact .int _ n
    | _ => contradiction
  | enum d =>
    cases v with
    | enum e n =>
      obtain rfl := of_decide_eq_true admitted
      exact .enum _ n
    | _ => contradiction
  | _ => cases v <;> first | contradiction | constructor

/-! ## Lists of items -/

mutual

/-- The items of the value, if it is a sequence or a grouping, and the lists of items inside of its
items and its key. -/
def itemLists : Value → List (List Value)
  | .sequence _ items => items :: itemListsAll items
  | .grouping _ key items => items :: (itemLists key ++ itemListsAll items)
  | _ => []

/-- The lists of items inside of the values. -/
def itemListsAll : List Value → List (List Value)
  | [] => []
  | v :: rest => itemLists v ++ itemListsAll rest

end

theorem mem_itemListsAll : l ∈ itemListsAll items ↔ ∃ v ∈ items, l ∈ v.itemLists := by
  induction items with
  | nil => simp [itemListsAll]
  | cons v rest ih => simp [itemListsAll, ih]

theorem forall_itemLists_sequence {P : List Value → Prop} :
    (∀ l ∈ (Value.sequence id items).itemLists, P l) ↔
      P items ∧ ∀ v ∈ items, ∀ l ∈ v.itemLists, P l := by
  simp only [itemLists, List.forall_mem_cons, mem_itemListsAll]
  exact and_congr_right fun _ =>
    ⟨fun h v hv l hl => h l ⟨v, hv, hl⟩, fun h l ⟨v, hv, hl⟩ => h v hv l hl⟩

theorem forall_itemLists_grouping {P : List Value → Prop} :
    (∀ l ∈ (Value.grouping id key items).itemLists, P l) ↔
      P items ∧ (∀ l ∈ key.itemLists, P l) ∧ ∀ v ∈ items, ∀ l ∈ v.itemLists, P l := by
  simp only [itemLists, List.forall_mem_cons, List.forall_mem_append, mem_itemListsAll]
  exact and_congr_right fun _ => and_congr_right fun _ =>
    ⟨fun h v hv l hl => h l ⟨v, hv, hl⟩, fun h l ⟨v, hv, hl⟩ => h v hv l hl⟩

/-- The items other than null show one type. -/
def OneTyped (items : List Value) : Prop :=
  ∀ v ∈ items, ∀ w ∈ items, v.isNull = false → w.isNull = false → v.ty = w.ty

/-- Inside of every sequence and every grouping, the items other than null show one type. -/
def Uniform (v : Value) : Prop := ∀ items ∈ v.itemLists, OneTyped items

/-- Null is among the items only if they show a type that accepts null. -/
def NullFits (items : List Value) : Prop :=
  (∃ v ∈ items, v.isNull = true) → (itemsTy items).acceptsNull = true

/-- Inside of every sequence and every grouping, null is an item only where it fits. -/
def NullsFit (v : Value) : Prop := ∀ items ∈ v.itemLists, NullFits items

instance : Decidable (OneTyped items) :=
  inferInstanceAs (Decidable (∀ v ∈ items, ∀ w ∈ items, _ → _ → _))

instance : Decidable v.Uniform :=
  inferInstanceAs (Decidable (∀ items ∈ v.itemLists, OneTyped items))

instance : Decidable (NullFits items) :=
  inferInstanceAs (Decidable ((∃ v ∈ items, _) → _))

instance : Decidable v.NullsFit :=
  inferInstanceAs (Decidable (∀ items ∈ v.itemLists, NullFits items))

/-- The items show the type of some item, or any type. -/
theorem itemsTy_eq (items : List Value) :
    itemsTy items = .object ∧ (∀ v ∈ items, v.isNull = true) ∨
      ∃ v ∈ items, v.isNull = false ∧ itemsTy items = v.ty := by
  induction items with
  | nil => exact Or.inl ⟨rfl, nofun⟩
  | cons v rest ih =>
    cases hv : v.isNull with
    | true =>
      rw [itemsTy, if_pos hv]
      rcases ih with ⟨h, nulls⟩ | ⟨w, hw, found⟩
      · exact Or.inl ⟨h, List.forall_mem_cons.2 ⟨hv, nulls⟩⟩
      · exact Or.inr ⟨w, List.mem_cons_of_mem v hw, found⟩
    | false =>
      rw [itemsTy, if_neg (hv ▸ Bool.false_ne_true)]
      exact Or.inr ⟨v, List.mem_cons_self, hv, rfl⟩

/-- If the items show one type, it is the type of each of them that is not null. -/
theorem OneTyped.itemsTy_eq_ty (one : OneTyped items) (hv : v ∈ items) (some : v.isNull = false) :
    itemsTy items = v.ty := by
  rcases itemsTy_eq items with ⟨-, nulls⟩ | ⟨w, hw, hw', h⟩
  · rw [nulls v hv] at some
    cases some
  · exact h.trans (one w hw v hv hw' some)

/-! ## The type shown -/

/-- Items of one type are of the type that they show if each of them is, unless null is among them
and the type has no null. -/
theorem OneTyped.all_admits (one : OneTyped items) :
    items.all (itemsTy items).admits = true ↔
      NullFits items ∧ ∀ v ∈ items, v.ty.admits v = true := by
  rw [List.all_eq_true]
  constructor
  · intro all
    constructor
    · rintro ⟨v, hv, h⟩
      obtain rfl := isNull_iff.1 h
      exact admits_null.symm.trans (all _ hv)
    · intro v hv
      cases h : v.isNull with
      | true => exact isNull_iff.1 h ▸ rfl
      | false => exact one.itemsTy_eq_ty hv h ▸ all v hv
  · rintro ⟨null, each⟩ v hv
    cases h : v.isNull with
    | true =>
      obtain rfl := isNull_iff.1 h
      exact admits_null.trans (null ⟨_, hv, rfl⟩)
    | false => exact (one.itemsTy_eq_ty hv h).symm ▸ each v hv

/-- **When a value is of the type that it shows.**  Where items show one type, the value is of its
type exactly if null is an item only where that type accepts null. -/
theorem admits_ty_iff (uniform : v.Uniform) : v.ty.admits v = true ↔ v.NullsFit := by
  -- The conditions are about every list of items inside: the outermost one is `all_admits`, and the
  -- lists inside of its items are the hypotheses of the induction.
  induction v using nested_induction with
  | sequence id items ih =>
    obtain ⟨one, inside⟩ := forall_itemLists_sequence.1 uniform
    calc items.all (itemsTy items).admits = true
      _ ↔ NullFits items ∧ ∀ v ∈ items, v.ty.admits v = true := one.all_admits
      _ ↔ NullFits items ∧ ∀ v ∈ items, v.NullsFit :=
          and_congr_right fun _ => forall₂_congr fun v hv => ih v hv (inside v hv)
      _ ↔ NullsFit (.sequence id items) := (forall_itemLists_sequence (P := NullFits)).symm
  | grouping id key items ihKey ih =>
    obtain ⟨one, ofKey, inside⟩ := forall_itemLists_grouping.1 uniform
    calc (key.ty.admits key && items.all (itemsTy items).admits) = true
      _ ↔ key.NullsFit ∧ NullFits items ∧ ∀ v ∈ items, v.ty.admits v = true := by
          rw [Bool.and_eq_true, ihKey ofKey, one.all_admits]
      _ ↔ NullFits items ∧ key.NullsFit ∧ ∀ v ∈ items, v.NullsFit := by
          rw [and_left_comm]
          exact and_congr_right fun _ => and_congr_right fun _ =>
            forall₂_congr fun v hv => ih v hv (inside v hv)
      _ ↔ NullsFit (.grouping id key items) := (forall_itemLists_grouping (P := NullFits)).symm
  | null => exact ⟨fun _ => nofun, fun _ => rfl⟩
  | int | enum | object => exact ⟨fun _ => nofun, fun _ => decide_eq_true rfl⟩
  | boolean | single | double | string | guid | dateTime => exact ⟨fun _ => nofun, fun _ => rfl⟩

/-- The parameter of one sequence, with null in front of a number. -/
def nullFirst : Value := .sequence 0 [.null, int32 1]

/-- Null beside a number is no value of the type that the sequence shows: its first item is typed
as a number, and it is null. -/
theorem nulls_unadmitted :
    nullFirst.Uniform ∧ nullFirst.ty = .sequence (.int .int32) ∧
      nullFirst.ty.admits nullFirst = false ∧
      (Source.parse ⟨"@0.First()", .int .int32, [.ofValue nullFirst], true⟩
          Workspace.empty).1.toOption.map
          (fun e => (e.ty, (e.invoke (int32 0) .empty).1.toOption.map isNull)) =
        some (.int .int32, some true) := by
  refine ⟨by decide, rfl, rfl, ?_⟩
  decide +kernel

end Value

/-! ## Constants -/

variable {v : Value}

/-- **When a constant is of the type that it is given.**  Where items show one type, it is exactly
if null is an item only where that type accepts null.  If its objects conform, too, the parameter
is to be trusted in the same case. -/
theorem Parameter.ofValue_admits (uniform : v.Uniform) :
    (ofValue v).value = .constant v ∧
      ((ofValue v).ty.admits v = true ↔ v.NullsFit) ∧
      (v.ObjectsConform → ((ofValue v).Trusted ↔ v.NullsFit)) := by
  refine ⟨rfl, Value.admits_ty_iff uniform, fun conform => ?_⟩
  rw [← Value.admits_ty_iff uniform]
  constructor
  · exact fun trusted => (trusted.constant rfl).admits
  · intro admitted
    refine ⟨fun same => ?_, nofun⟩
    cases same
    exact conform.conforms v.ty admitted

/-- Texts in groups, with null for a group and for a text. -/
def textGroups : Value :=
  .grouping 0 (.int32 1) [.sequence 1 [.null, .string "a"], .null, .sequence 2 [.string "b"]]

theorem Parameter.ofValue_admits_groups :
    textGroups.Uniform ∧ textGroups.NullsFit ∧ textGroups.ObjectsConform ∧
      textGroups.ty = .grouping (.int .int32) (.sequence .string) ∧
      (ofValue textGroups).ty.admits textGroups = true ∧ (ofValue textGroups).Trusted := by
  have uniform : textGroups.Uniform := by decide
  have fit : textGroups.NullsFit := by decide
  have conform : textGroups.ObjectsConform := by
    intro id d fields h
    simp [textGroups, Value.parts, Value.partsAll, Value.int32] at h
  obtain ⟨-, admits, trusted⟩ := ofValue_admits uniform
  exact ⟨uniform, fit, conform, rfl, admits.2 fit, (trusted conform).2 fit⟩

end TypedExpr
