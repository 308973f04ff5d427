import TypedExpr.Member.Table

/-!
# The registry of types

Which types an expression can name, and what was computed for types already.

* `Registry.declare` — adds a record with what it can do.
* `Registry.register` — makes a type known by its declared name.
* `Registry.members` — the members of a type, which are computed once.
* `Registry.findType` — the type of a name: registered, or reachable from the type that the
  expression is about.  Only exposed types are found, and where a type leads is computed once.
* `Registry.findType?` — the same without regard to what was computed before.
-/

namespace TypedExpr

/-! ## Reachable types -/

namespace Ty

/-- The types that a type leads to in one step. -/
def parts (s : Schema) : Ty → List Ty
  | .record d => d.fields.map Prod.snd ++ (s.methods d).map Method.result
  | .nullable t | .sequence t => [t]
  | .grouping key t => [key, t]
  | _ => []

mutual

/-- A type and everything it is made of. -/
def subterms : Ty → List Ty
  | .record ⟨i, n, fs, q, e⟩ => .record ⟨i, n, fs, q, e⟩ :: fieldSubterms fs
  | .nullable t => .nullable t :: subterms t
  | .sequence t => .sequence t :: subterms t
  | .grouping k t => .grouping k t :: (subterms k ++ subterms t)
  | t => [t]

/-- Everything that the types of some fields are made of. -/
def fieldSubterms : List (String × Ty) → List Ty
  | [] => []
  | (_, t) :: fs => subterms t ++ fieldSubterms fs

end

theorem mem_subterms_self (t : Ty) : t ∈ t.subterms := by
  cases t <;> simp [subterms]

theorem subterms_subset_fieldSubterms {fs : List (String × Ty)} {f : String × Ty} (h : f ∈ fs) :
    f.2.subterms ⊆ fieldSubterms fs := by
  induction fs with
  | nil => cases h
  | cons g r ih =>
    intro u hu
    rw [fieldSubterms, List.mem_append]
    rcases List.mem_cons.1 h with rfl | h
    · exact Or.inl hu
    · exact Or.inr (ih h hu)

mutual

theorem subterms_trans : ∀ (t : Ty) {u : Ty}, u ∈ t.subterms → u.subterms ⊆ t.subterms
  | .record ⟨i, n, fs, q, e⟩, u, h => by
    simp only [subterms, List.mem_cons] at h
    rcases h with rfl | h
    · exact List.Subset.refl _
    · exact List.subset_cons_of_subset _ (fieldSubterms_trans fs h)
  | .nullable t, u, h => by
    simp only [subterms, List.mem_cons] at h
    rcases h with rfl | h
    · exact List.Subset.refl _
    · exact List.subset_cons_of_subset _ (subterms_trans t h)
  | .sequence t, u, h => by
    simp only [subterms, List.mem_cons] at h
    rcases h with rfl | h
    · exact List.Subset.refl _
    · exact List.subset_cons_of_subset _ (subterms_trans t h)
  | .grouping k t, u, h => by
    simp only [subterms, List.mem_cons, List.mem_append] at h
    rcases h with rfl | h | h
    · exact List.Subset.refl _
    · exact List.subset_cons_of_subset _ (List.subset_append_of_subset_left _ (subterms_trans k h))
    · exact List.subset_cons_of_subset _ (List.subset_append_of_subset_right _ (subterms_trans t h))
  | .null, u, h | .object, u, h | .boolean, u, h | .int _, u, h | .single, u, h
  | .double, u, h | .string, u, h | .guid, u, h | .dateTime, u, h | .enum _, u, h => by
    simp only [subterms, List.mem_singleton] at h
    rw [h]
    exact List.Subset.refl _

theorem fieldSubterms_trans : ∀ (fs : List (String × Ty)) {u : Ty}, u ∈ fieldSubterms fs →
    u.subterms ⊆ fieldSubterms fs
  | [], _, h => by simp [fieldSubterms] at h
  | (_, t) :: fs, u, h => by
    simp only [fieldSubterms, List.mem_append] at h
    rcases h with h | h
    · exact List.subset_append_of_subset_left _ (subterms_trans t h)
    · exact List.subset_append_of_subset_right _ (fieldSubterms_trans fs h)

end

/-- Every type that can be met on the way from `t`. -/
def horizon (s : Schema) (t : Ty) : List Ty :=
  t.subterms ++ s.records.flatMap fun r => r.methods.flatMap fun m => m.result.subterms

theorem result_mem_horizon {s : Schema} {root : Ty} {d : RecordDef} {m : Method}
    (h : m ∈ s.methods d) : m.result ∈ root.horizon s := by
  obtain ⟨r, hr, hm⟩ := Schema.mem_methods h
  simp only [horizon, List.mem_append, List.mem_flatMap]
  exact Or.inr ⟨r, hr, m, hm, mem_subterms_self _⟩

theorem subterms_subset_horizon {s : Schema} {root t : Ty} (h : t ∈ root.horizon s) :
    t.subterms ⊆ root.horizon s := by
  intro u hu
  simp only [horizon, List.mem_append, List.mem_flatMap] at h ⊢
  rcases h with h | ⟨r, hr, m, hm, h⟩
  · exact Or.inl (subterms_trans root h hu)
  · exact Or.inr ⟨r, hr, m, hm, subterms_trans m.result h hu⟩

/-- A step from a type of the horizon does not leave it. -/
theorem parts_subset_horizon {s : Schema} {root t : Ty} (h : t ∈ root.horizon s) :
    t.parts s ⊆ root.horizon s := by
  intro u hu
  have hsub := subterms_subset_horizon h
  cases t with
  | record d =>
    simp only [parts, List.mem_append, List.mem_map] at hu
    rcases hu with ⟨f, hf, rfl⟩ | ⟨m, hm, rfl⟩
    · exact hsub (List.mem_cons_of_mem _ (subterms_subset_fieldSubterms hf (mem_subterms_self _)))
    · exact result_mem_horizon hm
  | nullable t | sequence t =>
    simp only [parts, List.mem_singleton] at hu
    exact hsub (List.mem_cons_of_mem _ (hu ▸ mem_subterms_self t))
  | grouping k t =>
    simp only [parts, List.mem_cons, List.not_mem_nil, or_false] at hu
    refine hsub (List.mem_cons_of_mem _ (List.mem_append.2 ?_))
    rcases hu with rfl | rfl
    · exact Or.inl (mem_subterms_self _)
    · exact Or.inr (mem_subterms_self _)
  | _ => simp [parts] at hu

/-- Visits the types of a stack and what they lead to, each type once and depth first.  Every
step visits a new type of the horizon or shortens the stack. -/
def visit (s : Schema) (root : Ty) (stack visited : List Ty) (inside : stack ⊆ root.horizon s) :
    List Ty :=
  match stack, inside with
  | [], _ => visited.reverse
  | t :: rest, inside =>
    have rest_inside := (List.cons_subset.1 inside).2
    if t ∈ visited then visit s root rest visited rest_inside
    else
      visit s root (t.parts s ++ rest) (t :: visited)
        (List.append_subset.2 ⟨parts_subset_horizon (List.cons_subset.1 inside).1, rest_inside⟩)
termination_by (((root.horizon s).filter (· ∉ visited)).length, stack.length)
decreasing_by
  · exact Prod.Lex.right _ (by simp)
  · rename_i h
    refine Prod.Lex.left _ _ ?_
    have hsub : ((root.horizon s).filter (· ∉ t :: visited)) =
        ((root.horizon s).filter (· ∉ visited)).filter (· ≠ t) := by
      rw [List.filter_filter]
      congr 1
      funext u
      simp [not_or]
    rw [hsub]
    have hmem : t ∈ (root.horizon s).filter (· ∉ visited) := by
      simp [(List.cons_subset.1 inside).1, h]
    refine Nat.lt_of_le_of_ne (List.length_filter_le _ _) fun heq => ?_
    have := List.length_filter_eq_length_iff.1 heq t hmem
    simp at this

/-- The types reachable from a type, itself first, in the order in which they are met. -/
def reachable (s : Schema) (t : Ty) : List Ty :=
  visit s t [t] [] (by simp [horizon, mem_subterms_self])

/-- The exposed types reachable from a type, by name, in the order in which they are met. -/
def exposed (s : Schema) (t : Ty) : List (String × Ty) :=
  (t.reachable s).filterMap fun u =>
    if u.isExposed then u.declaredName?.map fun name => (name, u) else none

/-- Of a name stands for the first type that is met. -/
theorem lookup_exposed (s : Schema) (t : Ty) (name : String) :
    (t.exposed s).lookup name =
      (t.reachable s).find? fun u => u.isExposed && u.declaredName? == some name := by
  unfold exposed
  induction t.reachable s with
  | nil => rfl
  | cons u us ih =>
    rw [List.filterMap_cons, List.find?_cons]
    cases exposed : u.isExposed with
    | false => simpa using ih
    | true =>
      cases declared : u.declaredName? with
      | none => simpa using ih
      | some other =>
        simp only [if_true, Option.map_some, List.lookup_cons, Bool.true_and, Option.some_beq_some]
        rw [BEq.comm (a := name)]
        cases other == name with
        | true => rfl
        | false => exact ih

end Ty

/-! ## The registry -/

variable [GuidFormat]

/-- Another record does not change the members of a type. -/
theorem MemberTable.of_append {s : Schema} {entry : RecordEntry} {t : Ty}
    (other : t ≠ .record entry.data) : of ⟨s.records ++ [entry]⟩ t = of s t := by
  have methods : methodsOf ⟨s.records ++ [entry]⟩ t = methodsOf s t := by
    cases t with
    | record d =>
      have differs : ¬(entry.data == d) = true := fun h => other (by rw [eq_of_beq h])
      show ((s.records ++ [entry]).find? (·.data == d)).elim [] _ = _
      rw [List.find?_append, List.find?_singleton, if_neg differs, Option.or_none]
      rfl
    | _ => rfl
  rw [of, of, methods]

/-- The schema, the registered types by name, the newest first, and what was computed already: the
members of some types, and the exposed types that some types lead to.  What is kept is what would be
computed again. -/
structure Registry where
  schema : Schema
  named : List (String × Ty)
  tables : List (Ty × MemberTable)
  reached : List (Ty × List (String × Ty))
  tables_nodup : (tables.map Prod.fst).Nodup
  tables_eq : ∀ p ∈ tables, p.2 = MemberTable.of schema p.1
  reached_eq : ∀ p ∈ reached, p.2 = p.1.exposed schema

namespace Registry

/-- A registry without registered types, in which nothing is computed yet. -/
def new (schema : Schema) : Registry where
  schema := schema
  named := []
  tables := []
  reached := []
  tables_nodup := .nil
  tables_eq := nofun
  reached_eq := nofun

/-- Adds a record to the schema.  What the record has to do with is forgotten. -/
def declare (r : Registry) (entry : RecordEntry) : Registry where
  schema := ⟨r.schema.records ++ [entry]⟩
  named := r.named
  tables := r.tables.filter fun p => p.1 ≠ .record entry.data
  reached := []
  tables_nodup := r.tables_nodup.sublist (List.filter_sublist.map _)
  tables_eq p hp := by
    obtain ⟨hp, other⟩ := List.mem_filter.1 hp
    rw [r.tables_eq p hp, MemberTable.of_append (of_decide_eq_true other)]
  reached_eq := nofun

/-- Makes an enumeration or a record known by its declared name, in place of an earlier one. -/
def register (r : Registry) (t : Ty) : Registry :=
  match t.declaredName? with
  | some name => { r with named := (name, t) :: r.named }
  | none => r

/-! ### Members -/

theorem not_mem_tables {r : Registry} {t : Ty} (absent : r.tables.lookup t = none) :
    t ∉ r.tables.map Prod.fst := by
  intro h
  obtain ⟨p, hp, rfl⟩ := List.mem_map.1 h
  have differs := List.lookup_eq_none_iff.1 absent p hp
  exact bne_iff_ne.1 differs rfl

/-- Keeps the members of a type that are not kept yet. -/
def keepTable (r : Registry) (t : Ty) (absent : r.tables.lookup t = none) : Registry :=
  { r with
    tables := (t, MemberTable.of r.schema t) :: r.tables
    tables_nodup := List.nodup_cons.2 ⟨not_mem_tables absent, r.tables_nodup⟩
    tables_eq := List.forall_mem_cons.2 ⟨rfl, r.tables_eq⟩ }

/-- The members of a type: those that are kept, or else they are computed and kept. -/
def members (r : Registry) (t : Ty) : MemberTable × Registry :=
  match h : r.tables.lookup t with
  | some table => (table, r)
  | none => (MemberTable.of r.schema t, r.keepTable t h)

/-- What is kept is what would be computed. -/
@[simp] theorem members_fst (r : Registry) (t : Ty) :
    (r.members t).1 = MemberTable.of r.schema t := by
  unfold members
  split
  next table h =>
    obtain ⟨before, after, hp, -⟩ := List.lookup_eq_some_iff.1 h
    exact r.tables_eq (t, table) (by simp [hp])
  next => rfl

@[simp] theorem members_schema (r : Registry) (t : Ty) : (r.members t).2.schema = r.schema := by
  unfold members
  split <;> rfl

@[simp] theorem members_named (r : Registry) (t : Ty) : (r.members t).2.named = r.named := by
  unfold members
  split <;> rfl

/-- The members that are kept afterwards are those asked for and those kept before. -/
theorem mem_tables_members {r : Registry} {t u : Ty} :
    u ∈ (r.members t).2.tables.map Prod.fst ↔ u = t ∨ u ∈ r.tables.map Prod.fst := by
  unfold members
  split
  next table h =>
    obtain ⟨before, after, hp, -⟩ := List.lookup_eq_some_iff.1 h
    constructor
    · exact Or.inr
    · rintro (rfl | hu)
      · exact List.mem_map.2 ⟨(u, table), by simp [hp], rfl⟩
      · exact hu
  next => exact List.mem_cons

/-- The number of types whose members are kept. -/
def cachedTypes (r : Registry) : Nat := r.tables.length

/-! ### Names -/

/-- The exposed types that a type leads to: those that are kept, or else they are computed and
kept. -/
def exposedFrom (r : Registry) (t : Ty) : List (String × Ty) × Registry :=
  match r.reached.lookup t with
  | some types => (types, r)
  | none =>
    let types := t.exposed r.schema
    (types, { r with
      reached := (t, types) :: r.reached
      reached_eq := List.forall_mem_cons.2 ⟨rfl, r.reached_eq⟩ })

theorem exposedFrom_fst (r : Registry) (t : Ty) : (r.exposedFrom t).1 = t.exposed r.schema := by
  unfold exposedFrom
  split
  next types h =>
    obtain ⟨before, after, hp, -⟩ := List.lookup_eq_some_iff.1 h
    exact r.reached_eq (t, types) (by simp [hp])
  next => rfl

/-- The exposed type of a name: the registered one, or else the first one reachable from the
context. -/
def findType (r : Registry) (name : String) (context : Ty) : Option Ty × Registry :=
  match (r.named.lookup name).filter Ty.isExposed with
  | some t => (some t, r)
  | none =>
    let (types, r) := r.exposedFrom context
    (types.lookup name, r)

/-- The exposed type of a name, looked for without regard to what is kept. -/
def findType? (r : Registry) (name : String) (context : Ty) : Option Ty :=
  match (r.named.lookup name).filter Ty.isExposed with
  | some t => some t
  | none => (context.reachable r.schema).find? fun t => t.isExposed && t.declaredName? == some name

/-- What is kept is what would be found. -/
@[simp] theorem findType_fst (r : Registry) (name : String) (context : Ty) :
    (r.findType name context).1 = r.findType? name context := by
  unfold findType findType?
  split
  · rfl
  · rw [← Ty.lookup_exposed, ← exposedFrom_fst]

/-- Looking for a name changes nothing but what is kept of names. -/
theorem findType_snd (r : Registry) (name : String) (context : Ty) :
    (r.findType name context).2.schema = r.schema ∧
      (r.findType name context).2.named = r.named ∧
      (r.findType name context).2.tables = r.tables := by
  unfold findType
  split
  · exact ⟨rfl, rfl, rfl⟩
  · unfold exposedFrom
    dsimp only
    split <;> exact ⟨rfl, rfl, rfl⟩

end Registry

end TypedExpr
