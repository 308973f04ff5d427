import Mathlib.Logic.Relation
import TypedExpr.Proofs.Resolution.Caching

/-!
# Types by name

A name stands for an exposed type: the one that was registered last under it, or one that the
context leads to.  Where the context leads is explored depth first, and no type is entered twice.

* `Ty.LeadsTo`, `Ty.Reaches` — the steps from a type to others, and any number of them.
* `Ty.Explores` — an exploration, with the types that were visited before and after it.
* **`Ty.explores_reachable`** — every exploration comes to an end.
* **`Ty.mem_reachable_iff`** — it visits the types that are reached, and no others.
* `Request.lastNamed?` — the type that was registered last under a name.
* **`Request.findType_named`** — what a name stands for after any requests.
-/

namespace TypedExpr

/-! ## Reachable types -/

namespace Ty

variable {s : Schema} {t u : Ty} {ts us before inner after : List Ty}

/-- What a type leads to in one step: the types of the fields of a record and the results of its
methods, and the types that another type is made of. -/
inductive LeadsTo (s : Schema) : Ty → Ty → Prop
  | field {d : RecordDef} {f : String × Ty} (declared : f ∈ d.fields) : LeadsTo s (.record d) f.2
  | method {d : RecordDef} {m : Method} (declared : m ∈ s.methods d) :
      LeadsTo s (.record d) m.result
  | nullable (t : Ty) : LeadsTo s (.nullable t) t
  | sequence (t : Ty) : LeadsTo s (.sequence t) t
  | key (k t : Ty) : LeadsTo s (.grouping k t) k
  | item (k t : Ty) : LeadsTo s (.grouping k t) t

/-- A type leads to another one in any number of steps. -/
abbrev Reaches (s : Schema) : Ty → Ty → Prop := Relation.ReflTransGen (LeadsTo s)

theorem mem_parts_iff : u ∈ t.parts s ↔ LeadsTo s t u := by
  constructor
  · intro h
    cases t with
    | record d =>
      simp only [parts, List.mem_append, List.mem_map] at h
      rcases h with ⟨f, declared, rfl⟩ | ⟨m, declared, rfl⟩
      · exact .field declared
      · exact .method declared
    | nullable t | sequence t =>
      obtain rfl : u = t := by simpa [parts] using h
      constructor
    | grouping k t =>
      simp only [parts, List.mem_cons, List.not_mem_nil, or_false] at h
      rcases h with rfl | rfl
      · exact .key u t
      · exact .item k u
    | _ => simp [parts] at h
  · intro h
    cases h with
    | field declared => exact List.mem_append_left _ (List.mem_map_of_mem declared)
    | method declared => exact List.mem_append_right _ (List.mem_map_of_mem declared)
    | nullable | sequence | key | item => simp [parts]

/-! ## Explorations -/

/-- Types are explored one after the other.  A type that was visited before is passed over; any
other one is visited, and then its parts are explored.  The lists name the types visited before and
after, the last ones first. -/
inductive Explores (s : Schema) : List Ty → List Ty → List Ty → Prop
  | done (visited : List Ty) : Explores s [] visited visited
  | seen {t : Ty} {ts before after : List Ty} (again : t ∈ before)
      (rest : Explores s ts before after) : Explores s (t :: ts) before after
  | enter {t : Ty} {ts before inner after : List Ty} (new : t ∉ before)
      (inside : Explores s (t.parts s) (t :: before) inner) (rest : Explores s ts inner after) :
      Explores s (t :: ts) before after

namespace Explores

/-- An exploration of many types stops at each of them. -/
theorem split (h : Explores s (ts ++ us) before after) :
    ∃ inner, Explores s ts before inner ∧ Explores s us inner after := by
  induction ts generalizing before with
  | nil => exact ⟨before, .done before, h⟩
  | cons t ts ih =>
    cases h with
    | seen again rest =>
      obtain ⟨inner, first, second⟩ := ih rest
      exact ⟨inner, .seen again first, second⟩
    | enter new inside rest =>
      obtain ⟨inner, first, second⟩ := ih rest
      exact ⟨inner, .enter new inside first, second⟩

/-- What was visited stays visited. -/
theorem subset (h : Explores s ts before after) : before ⊆ after := by
  induction h with
  | done => exact List.Subset.refl _
  | seen _ _ ih => exact ih
  | enter _ _ _ ihInside ihRest =>
    exact List.Subset.trans (List.subset_cons_self _ _) (List.Subset.trans ihInside ihRest)

/-- The types that are explored are visited. -/
theorem covers (h : Explores s ts before after) : ts ⊆ after := by
  induction h with
  | done => exact List.nil_subset _
  | seen again rest ih => exact List.cons_subset.2 ⟨rest.subset again, ih⟩
  | enter _ inside rest _ ih =>
    exact List.cons_subset.2 ⟨rest.subset (inside.subset List.mem_cons_self), ih⟩

/-- What is visited on the way, so are its parts. -/
theorem closed (h : Explores s ts before after) (visited : u ∈ after) (new : u ∉ before) :
    u.parts s ⊆ after := by
  induction h with
  | done => exact absurd visited new
  | seen _ _ ih => exact ih visited new
  | @enter t ts before inner after _ inside rest ihInside ihRest =>
    by_cases within : u ∈ inner
    · by_cases first : u = t
      · exact first ▸ List.Subset.trans inside.covers rest.subset
      · exact List.Subset.trans (ihInside within (by simp [first, new])) rest.subset
    · exact ihRest visited within

/-- Nothing is visited but what the explored types lead to. -/
theorem reaches (h : Explores s ts before after) (visited : u ∈ after) :
    u ∈ before ∨ ∃ t ∈ ts, t.Reaches s u := by
  induction h with
  | done => exact Or.inl visited
  | seen _ _ ih => exact (ih visited).imp_right fun ⟨t, among, path⟩ => ⟨t, by simp [among], path⟩
  | @enter t ts before inner after _ inside rest ihInside ihRest =>
    rcases ihRest visited with within | ⟨w, among, path⟩
    · rcases ihInside within with old | ⟨w, part, path⟩
      · rcases List.mem_cons.1 old with rfl | old
        · exact Or.inr ⟨u, List.mem_cons_self, .refl⟩
        · exact Or.inl old
      · exact Or.inr ⟨t, List.mem_cons_self, .head (mem_parts_iff.1 part) path⟩
    · exact Or.inr ⟨w, by simp [among], path⟩

/-- No type is visited twice. -/
theorem nodup (h : Explores s ts before after) (distinct : before.Nodup) : after.Nodup := by
  induction h with
  | done => exact distinct
  | seen _ _ ih => exact ih distinct
  | enter new _ _ ihInside ihRest => exact ihRest (ihInside (List.nodup_cons.2 ⟨new, distinct⟩))

end Explores

/-- The visit that works off a stack is the exploration of the types on the stack. -/
theorem explores_visit {root : Ty} (inside : ts ⊆ root.horizon s) :
    Explores s ts before (visit s root ts before inside).reverse := by
  induction ts, before, inside using visit.induct with
  | case1 visited =>
    rw [visit, List.reverse_reverse]
    exact .done visited
  | case2 visited t rest _ _ again _ ih =>
    rw [visit, if_pos again]
    exact .seen again ih
  | case3 visited t rest _ _ new _ ih =>
    rw [visit, if_neg new]
    obtain ⟨inner, first, second⟩ := ih.split
    exact .enter new first second

/-- **Every exploration comes to an end**, for the relation has finite derivations only.  The
reachable types are those that it visits, in the order in which they are met. -/
theorem explores_reachable (s : Schema) (t : Ty) : Explores s [t] [] (t.reachable s).reverse :=
  explores_visit _

/-- **The reachable types are those that a type leads to.** -/
theorem mem_reachable_iff : u ∈ t.reachable s ↔ t.Reaches s u := by
  have explored := explores_reachable s t
  constructor
  · intro h
    simpa using explored.reaches (List.mem_reverse.2 h)
  · intro path
    rw [← List.mem_reverse]
    induction path with
    | refl => exact explored.covers List.mem_cons_self
    | tail _ step ih => exact explored.closed ih List.not_mem_nil (mem_parts_iff.2 step)

theorem nodup_reachable (s : Schema) (t : Ty) : (t.reachable s).Nodup :=
  List.nodup_reverse.1 ((explores_reachable s t).nodup .nil)

end Ty

/-! ## Names -/

namespace Request

section

variable {format : GuidFormat} {qs : List Request} {q : Request} {w : Workspace} {name : String}
  {t : Ty}

/-- The type that a request registers. -/
def registered? : Request → Option Ty
  | register t => some t
  | _ => none

theorem registered?_eq_none (h : q.isRegister = false) : q.registered? = none := by
  cases q with
  | register t => cases h
  | _ => rfl

/-- The type that was registered last under a name. -/
def lastNamed? (qs : List Request) (name : String) : Option Ty :=
  (qs.filterMap registered?).reverse.find? fun t => t.declaredName? == some name

theorem declaredName?_of_lastNamed? (h : lastNamed? qs name = some t) :
    t.declaredName? = some name := by
  simpa using List.find?_some h

/-- A type that is registered takes the place of an earlier one of its name. -/
theorem lookup_register (r : Registry) (t : Ty) (name : String) :
    (r.register t).named.lookup name =
      if t.declaredName? = some name then some t else r.named.lookup name := by
  unfold Registry.register
  cases declared : t.declaredName? with
  | none => simp
  | some other =>
    rw [List.lookup_cons]
    by_cases same : name = other
    · simp [same]
    · simp [beq_false_of_ne same, Ne.symm same]

/-- Of the requests, only those that register a type change what a name is registered for. -/
theorem lookup_run (q : Request) (w : Workspace) (name : String) :
    (q.run w).registry.named.lookup name =
      ((q.registered?.filter fun t => t.declaredName? == some name).or
        (w.registry.named.lookup name)) := by
  cases register : q.isRegister with
  | false =>
    rw [(run_akin register w).named, registered?_eq_none register]
    rfl
  | true =>
    cases q with
    | register t =>
      rw [run, lookup_register, registered?]
      by_cases same : t.declaredName? = some name <;> simp [same, Option.filter]
    | _ => cases register

/-- A name is registered for the last type that declares it. -/
theorem lookup_runAll (qs : List Request) (w : Workspace) (name : String) :
    (runAll qs w).registry.named.lookup name =
      (lastNamed? qs name).or (w.registry.named.lookup name) := by
  induction qs generalizing w with
  | nil => rfl
  | cons q qs ih =>
    rw [runAll, ih, lookup_run, ← Option.or_assoc]
    congr 1
    cases registers : q.registered? with
    | none => simp [lastNamed?, registers]
    | some t => simp [lastNamed?, registers, List.find?_append, List.find?_singleton, Option.filter]

theorem schema_run (q : Request) (w : Workspace) :
    (q.run w).registry.schema = w.registry.schema := by
  cases register : q.isRegister with
  | false => exact (run_akin register w).schema
  | true =>
    cases q with
    | register t =>
      simp only [run, Registry.register]
      split <;> rfl
    | _ => cases register

theorem schema_runAll (qs : List Request) (w : Workspace) :
    (runAll qs w).registry.schema = w.registry.schema := by
  induction qs generalizing w with
  | nil => rfl
  | cons q qs ih => rw [runAll, ih, schema_run]

/-- What a name stands for after some requests: the type that was registered last under it, if that
is exposed, and otherwise the first exposed type of that name that is met from the context. -/
theorem findType_runAll (schema : Schema) (next : Nat) (qs : List Request) (name : String)
    (context : Ty) :
    ((runAll qs ⟨.new schema, next⟩).findType name context).1 =
      ((lastNamed? qs name).filter Ty.isExposed).or
        ((context.reachable schema).find? fun t =>
          t.isExposed && t.declaredName? == some name) := by
  show ((runAll qs ⟨.new schema, next⟩).registry.findType name context).1 = _
  rw [Registry.findType_fst, Registry.findType?, lookup_runAll, schema_runAll]
  have nothing : (lastNamed? qs name).or ((Registry.new schema).named.lookup name) =
      lastNamed? qs name := Option.or_none
  simp only [nothing]
  cases (lastNamed? qs name).filter Ty.isExposed <;> rfl

/-- **What a name stands for**, after any requests.  A type that is found is exposed and declares
the name; it was registered last under the name, or the context leads to it.  If none is found, the
type registered last is hidden, and the context leads to no exposed type of the name.  From every
type, the exploration ends, and it visits no type twice. -/
theorem findType_named (schema : Schema) (next : Nat) (qs : List Request) (name : String)
    (context : Ty) :
    let found := ((runAll qs ⟨.new schema, next⟩).findType name context).1
    (∀ t, found = some t → t.isExposed = true ∧ t.declaredName? = some name ∧
      (lastNamed? qs name = some t ∨ context.Reaches schema t)) ∧
    (found = none → (∀ t, lastNamed? qs name = some t → t.isExposed = false) ∧
      ∀ t, context.Reaches schema t → t.isExposed = true → t.declaredName? ≠ some name) ∧
    ∀ t : Ty, Ty.Explores schema [t] [] (t.reachable schema).reverse ∧
      (t.reachable schema).Nodup := by
  intro found
  have answer : found = _ := findType_runAll schema next qs name context
  refine ⟨?_, ?_, fun t => ⟨t.explores_reachable schema, t.nodup_reachable schema⟩⟩
  · intro t h
    rw [answer, Option.or_eq_some_iff] at h
    rcases h with h | ⟨-, h⟩
    · obtain ⟨last, exposed⟩ := Option.filter_eq_some_iff.1 h
      exact ⟨exposed, declaredName?_of_lastNamed? last, Or.inl last⟩
    · have properties := List.find?_some h
      simp only [Bool.and_eq_true, beq_iff_eq] at properties
      have path := Ty.mem_reachable_iff.1 (List.mem_of_find?_eq_some h)
      exact ⟨properties.1, properties.2, Or.inr path⟩
  · intro h
    rw [answer, Option.or_eq_none_iff] at h
    constructor
    · intro t last
      simpa [last] using h.1
    · intro t path exposed declared
      have refused := List.find?_eq_none.1 h.2 t (Ty.mem_reachable_iff.2 path)
      simp [exposed, declared] at refused

/-- An enumeration that may be named. -/
def shownEnum : EnumDef := ⟨0, "E", .int .int32, [], true⟩

/-- Another enumeration of the same name, which may not. -/
def hiddenEnum : EnumDef := ⟨1, "E", .int .int32, [], false⟩

/-- A record with a sequence of constants. -/
def listRecord : RecordDef :=
  ⟨.declared 0, "P", [("Es", .sequence (.enum shownEnum))], .reference, true⟩

end

/-- A hidden type that was registered last does not stand in the way of a reachable one. -/
theorem findType_named_hidden :
    let qs := [register (.enum shownEnum), register (.enum hiddenEnum)]
    ∃ t, ((runAll qs ⟨.new .empty, 0⟩).findType "E" (.record listRecord)).1 = some t ∧
      t.isExposed = true ∧ (Ty.record listRecord).Reaches .empty t := by
  intro qs
  obtain ⟨sound, complete, -⟩ := findType_named .empty 0 qs "E" (.record listRecord)
  have last : lastNamed? qs "E" = some (.enum hiddenEnum) := rfl
  have path : (Ty.record listRecord).Reaches .empty (.enum shownEnum) :=
    .head (.field List.mem_cons_self) (.single (.sequence _))
  cases found : ((runAll qs ⟨.new .empty, 0⟩).findType "E" (.record listRecord)).1 with
  | none => exact absurd rfl ((complete found).2 _ path rfl)
  | some t =>
    obtain ⟨exposed, -, from_last | reached⟩ := sound t found
    · cases last.symm.trans from_last
      cases exposed
    · exact ⟨t, rfl, exposed, reached⟩

end Request

end TypedExpr
