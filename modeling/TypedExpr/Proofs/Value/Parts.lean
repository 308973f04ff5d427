import TypedExpr.Value.Basic

/-!
# What a value is made of

Values are nested: objects have fields, sequences have items, and groupings have a key and items.

* **`Value.nested_induction`** — induction over values, with the hypothesis for each of these.
* `Value.parts` — the value and everything inside of it.
-/

namespace TypedExpr.Value

/-- **Induction over values**: what is inside of a value comes with the hypothesis. -/
@[elab_as_elim]
theorem nested_induction {P : Value → Prop} (null : P .null) (boolean : ∀ b, P (.boolean b))
    (int : ∀ t n, P (.int t n)) (single : ∀ x, P (.single x)) (double : ∀ x, P (.double x))
    (string : ∀ s, P (.string s)) (guid : ∀ g, P (.guid g)) (dateTime : ∀ ms, P (.dateTime ms))
    (enum : ∀ d n, P (.enum d n))
    (object : ∀ id d fields, (∀ v ∈ fields, P v) → P (.object id d fields))
    (sequence : ∀ id items, (∀ v ∈ items, P v) → P (.sequence id items))
    (grouping : ∀ id key items, P key → (∀ v ∈ items, P v) → P (.grouping id key items))
    (v : Value) : P v :=
  @Value.rec P (fun vs => ∀ v ∈ vs, P v) null boolean int single double string guid dateTime enum
    object sequence grouping nofun
    (fun _ _ first others => List.forall_mem_cons.2 ⟨first, others⟩) v

mutual

/-- The value and everything inside of it. -/
def parts : Value → List Value
  | .object id d fields => .object id d fields :: partsAll fields
  | .sequence id items => .sequence id items :: partsAll items
  | .grouping id key items => .grouping id key items :: (parts key ++ partsAll items)
  | v => [v]

/-- The values and everything inside of them. -/
def partsAll : List Value → List Value
  | [] => []
  | v :: rest => parts v ++ partsAll rest

end

variable {v p key : Value} {fields items : List Value} {id : Identity} {d : RecordDef}

theorem mem_parts_self (v : Value) : v ∈ v.parts := by
  cases v <;> exact List.mem_cons_self

theorem parts_subset_partsAll (h : v ∈ items) : v.parts ⊆ partsAll items := by
  induction items with
  | nil => cases h
  | cons w rest ih =>
    rcases List.mem_cons.1 h with rfl | h
    · exact List.subset_append_left _ _
    · exact List.Subset.trans (ih h) (List.subset_append_right _ _)

theorem parts_field (h : v ∈ fields) : v.parts ⊆ (Value.object id d fields).parts :=
  List.subset_cons_of_subset _ (parts_subset_partsAll h)

theorem parts_item (h : v ∈ items) : v.parts ⊆ (Value.sequence id items).parts :=
  List.subset_cons_of_subset _ (parts_subset_partsAll h)

theorem parts_key : key.parts ⊆ (Value.grouping id key items).parts :=
  List.subset_cons_of_subset _ (List.subset_append_left _ _)

theorem parts_member (h : v ∈ items) : v.parts ⊆ (Value.grouping id key items).parts :=
  List.subset_cons_of_subset _
    (List.Subset.trans (parts_subset_partsAll h) (List.subset_append_right _ _))

end TypedExpr.Value
