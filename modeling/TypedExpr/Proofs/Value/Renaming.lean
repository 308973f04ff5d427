import TypedExpr.Operator.Apply
import TypedExpr.Value.Cast

/-!
# Values up to identities

Objects and sequences that an evaluation builds have identities that depend on what was built
before.  `Value.rename` gives a value other identities.  Operators do not see which identities
values have, only which of them are the same, so that an injective renaming goes unnoticed.

* `Value.rename` — a value with other identities.
* **`Value.equals_rename`**, `Value.compareBy_rename` — comparisons do not notice.
* **`Value.cast_rename`**, `Value.combine_rename` — casts keep the renaming, operators forget it.
-/

namespace TypedExpr.Value

variable {format : GuidFormat} {π : Identity → Identity}

mutual

/-- The value with other identities. -/
def rename (π : Identity → Identity) : Value → Value
  | .object i d fields => .object (π i) d (renameAll π fields)
  | .sequence i items => .sequence (π i) (renameAll π items)
  | .grouping i key items => .grouping (π i) (rename π key) (renameAll π items)
  | v => v

/-- The values with other identities. -/
def renameAll (π : Identity → Identity) : List Value → List Value
  | [] => []
  | v :: rest => rename π v :: renameAll π rest

end

mutual

@[simp] theorem rename_id : ∀ v : Value, v.rename id = v
  | .null | .boolean _ | .int .. | .single _ | .double _ | .string _ | .guid _ | .dateTime _
  | .enum .. => rfl
  | .object i d fields => by rw [rename, renameAll_id fields, id]
  | .sequence i items => by rw [rename, renameAll_id items, id]
  | .grouping i key items => by rw [rename, rename_id key, renameAll_id items, id]

theorem renameAll_id : ∀ vs : List Value, renameAll id vs = vs
  | [] => rfl
  | v :: rest => by rw [renameAll, rename_id v, renameAll_id rest]

end

/-- Whether a value has no identity. -/
def isPlain : Value → Bool
  | .object .. | .sequence .. | .grouping .. => false
  | _ => true

theorem rename_of_isPlain {v : Value} (h : v.isPlain = true) : v.rename π = v := by
  cases v with
  | object | sequence | grouping => cases h
  | _ => rfl

/-! ## What is seen of a value -/

@[simp] theorem isNull_rename (v : Value) : (v.rename π).isNull = v.isNull := by
  cases v <;> rfl

@[simp] theorem number?_rename (v : Value) : (v.rename π).number? = v.number? := by
  cases v <;> rfl

@[simp] theorem isOf_rename (v : Value) (t : Ty) : (v.rename π).isOf t = v.isOf t := by
  cases v <;> cases t <;> rfl

@[simp] theorem kindName_rename (v : Value) : (v.rename π).kindName = v.kindName := by
  cases v <;> rfl

mutual

@[simp] theorem ty_rename : ∀ v : Value, (v.rename π).ty = v.ty
  | .null | .boolean _ | .int .. | .single _ | .double _ | .string _ | .guid _ | .dateTime _
  | .enum .. | .object .. => rfl
  | .sequence i items => by simp only [rename, ty, itemsTy_rename items]
  | .grouping i key items => by simp only [rename, ty, ty_rename key, itemsTy_rename items]

theorem itemsTy_rename : ∀ vs : List Value, itemsTy (renameAll π vs) = itemsTy vs
  | [] => rfl
  | v :: rest => by simp only [renameAll, itemsTy, isNull_rename, ty_rename v, itemsTy_rename rest]

end

mutual

@[simp] theorem text_rename : ∀ v : Value, (v.rename π).text = v.text
  | .null | .boolean _ | .int .. | .single _ | .double _ | .string _ | .guid _ | .dateTime _
  | .enum .. => rfl
  | .object i d fields => by simp only [rename, text, fieldsText_rename d.fields fields]
  | .sequence i items => by simp only [rename, text, itemsTy_rename items]
  | .grouping i key items => by simp only [rename, text, ty_rename key, itemsTy_rename items]

theorem fieldsText_rename : ∀ (fields : List (String × Ty)) (vs : List Value),
    fieldsText fields (renameAll π vs) = fieldsText fields vs
  | [], [] | [], _ :: _ | _ :: _, [] => rfl
  | [(name, t)], [v] | [(name, t)], v :: _ :: _ | (name, t) :: _ :: _, [v] => by
    simp only [renameAll, fieldsText, text_rename v]
  | (name, t) :: f :: fields, v :: w :: rest => by
    have tail := fieldsText_rename (f :: fields) (w :: rest)
    rw [renameAll] at tail
    rw [renameAll, renameAll, fieldsText, fieldsText, text_rename v, tail]

end

/-! ## Comparisons -/

theorem beq_of_injective (inj : π.Injective) (i j : Identity) : (π i == π j) = (i == j) := by
  rw [Bool.eq_iff_iff, beq_iff_eq, beq_iff_eq, inj.eq_iff]

mutual

/-- **Equality sees only which identities are the same.** -/
theorem equals_rename (inj : π.Injective) :
    ∀ a b : Value, (a.rename π).equals (b.rename π) = a.equals b
  | .null, b | .boolean _, b | .int .., b | .single _, b | .double _, b | .string _, b | .guid _, b
  | .dateTime _, b | .enum .., b => by cases b <;> rfl
  | .object i d as, b => by
    cases b with
    | object j e bs =>
      simp only [rename, equals, equalsAll_rename inj as bs, beq_of_injective inj]
    | _ => rfl
  | .sequence i as, b => by
    cases b with
    | sequence j bs =>
      simp only [rename, equals, equalsAll_rename inj as bs, beq_of_injective inj]
    | _ => rfl
  | .grouping i k as, b => by
    cases b with
    | grouping j l bs =>
      simp only [rename, equals, equals_rename inj k l, equalsAll_rename inj as bs,
        beq_of_injective inj]
    | _ => rfl

theorem equalsAll_rename (inj : π.Injective) :
    ∀ as bs : List Value, equalsAll (renameAll π as) (renameAll π bs) = equalsAll as bs
  | [], [] | [], _ :: _ | _ :: _, [] => rfl
  | a :: as, b :: bs => by
    simp only [renameAll, equalsAll, equals_rename inj a b, equalsAll_rename inj as bs]

end

/-- The order does not look at identities at all. -/
theorem compare?_rename (a b : Value) : (a.rename π).compare? (b.rename π) = a.compare? b := by
  cases a <;> cases b <;> rfl

theorem compareBy_rename (inj : π.Injective) (op : BinaryOp) (a b : Value) :
    compareBy op (a.rename π) (b.rename π) = compareBy op a b := by
  simp only [compareBy, equals_rename inj, compare?_rename, isNull_rename]

/-! ## Conversions and operators -/

theorem ofNumber?_renamed (n : Number) (t : Ty) :
    (ofNumber? n t).map (rename π) = ofNumber? n t := by
  cases t <;> rfl

theorem castNumber_renamed (v : Value) (goal : Ty) :
    (v.castNumber goal).map (rename π) = v.castNumber goal := by
  unfold castNumber
  split
  next w hw =>
    obtain ⟨n, -, hn⟩ := Option.bind_eq_some_iff.1 hw
    have same := ofNumber?_renamed (π := π) n goal
    rw [hn] at same
    exact congrArg Except.ok (Option.some.inj same)
  next => rfl

theorem castNumber_rename (v : Value) (goal : Ty) :
    (v.rename π).castNumber goal = v.castNumber goal := by
  rw [castNumber, castNumber, castNumeric?, castNumeric?, number?_rename, kindName_rename]

theorem readNumeric?_renamed (s : String) (t : Ty) :
    (readNumeric? s t).map (rename π) = readNumeric? s t := by
  unfold readNumeric?
  split
  · cases readInt? (Text.trim s) with
    | none => rfl
    | some n => simp [Option.map_map, Function.comp_def, rename]
  · cases readDouble? (Text.trim s) with
    | none => rfl
    | some x =>
      simp only [Option.bind_some, fitNumeric?, number?]
      split
      · exact ofNumber?_renamed _ t
      · rfl

theorem readAs_renamed {r : Option Value} (hr : r.map (rename π) = r) (s : String) (goal : Ty) :
    (readAs s goal r).map (rename π) = readAs s goal r := by
  cases r with
  | none => rfl
  | some w => exact congrArg Except.ok (Option.some.inj hr)

theorem castText_renamed (s : String) (goal : Ty) :
    (castText s goal).map (rename π) = castText s goal := by
  unfold castText
  split
  · exact readAs_renamed (by simp [Option.map_map, Function.comp_def, rename]) s _
  · exact readAs_renamed (by simp [Option.map_map, Function.comp_def, rename]) s _
  · exact readAs_renamed (readNumeric?_renamed s _) s _
  · exact readAs_renamed (readNumeric?_renamed s _) s _
  · exact readAs_renamed (readNumeric?_renamed s _) s _
  · exact castNumber_renamed _ goal

/-- A value that is no text is of a type already, or is converted as a number. -/
theorem asIs_rename (v : Value) (goal : Ty) :
    (if (v.rename π).isOf goal then .ok (v.rename π) else (v.rename π).castNumber goal) =
      (if v.isOf goal then .ok v else v.castNumber goal).map (rename π) := by
  rw [isOf_rename, castNumber_rename]
  split
  · rfl
  · exact (castNumber_renamed v goal).symm

theorem castPlain_rename (v : Value) (goal : Ty) :
    (v.rename π).castPlain goal = (v.castPlain goal).map (rename π) := by
  unfold castPlain
  split
  · rfl
  · rw [text_rename]
    rfl
  · cases v with
    | string s => exact (castText_renamed s goal).symm
    | _ => exact asIs_rename _ goal

/-- **A cast sees nothing of identities and keeps them.** -/
theorem cast_rename (v : Value) (target : Ty) :
    (v.rename π).cast target = (v.cast target).map (rename π) := by
  rw [cast, cast, isNull_rename]
  split
  · split <;> rfl
  · exact castPlain_rename v _

/-- Operators look at no identities and give no value with one. -/
theorem combine_rename (op : BinaryOp) (a b : Value) :
    combine op (a.rename π) (b.rename π) = combine op a b := by
  cases a <;> cases b <;> rfl

end TypedExpr.Value
