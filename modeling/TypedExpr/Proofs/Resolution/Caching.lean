import Mathlib.Data.List.Dedup
import TypedExpr.OrderingKey
import TypedExpr.Proofs.Lockstep.Aligned
import TypedExpr.Proofs.Resolution.Composed

/-!
# What is kept is not noticed

A registry keeps what it computed for types.  What it answers is the same as if nothing had been
kept, whatever was looked up or compiled before, and what it keeps are the members of the types
that it was asked for.

* `Binder.Composed.alike` — what is kept does not change what the grammar does.
* `Binder.Asks` — the types whose members a run asks for, recorded call by call.
* `Binder.Asks.mem_kept` — they are the ones that are kept in the end.
* `Request` — what a registry can be asked for.
* **`Request.answers`** — the answers after some requests, and the number of types kept.
-/

namespace TypedExpr

variable {format : GuidFormat}

open Binder

/-! ## Workspaces -/

namespace Workspace

variable {w v : Workspace}

theorem Akin.members_fst (h : Akin w v) (t : Ty) : (w.members t).1 = (v.members t).1 := by
  show (w.registry.members t).1 = (v.registry.members t).1
  rw [Registry.members_fst, Registry.members_fst, h.schema]

theorem Akin.findType_fst (h : Akin w v) (name : String) (context : Ty) :
    (w.findType name context).1 = (v.findType name context).1 := by
  show (w.registry.findType name context).1 = (v.registry.findType name context).1
  rw [Registry.findType_fst, Registry.findType_fst, Registry.findType?, Registry.findType?,
    h.schema, h.named]

/-- The types whose members are kept. -/
def kept (w : Workspace) : List Ty := w.registry.tables.map Prod.fst

theorem mem_kept_members {t u : Ty} : u ∈ (w.members t).2.kept ↔ u = t ∨ u ∈ w.kept :=
  Registry.mem_tables_members

theorem kept_findType (w : Workspace) (name : String) (context : Ty) :
    (w.findType name context).2.kept = w.kept :=
  congrArg (List.map Prod.fst) (w.registry.findType_snd name context).2.2

end Workspace

open Workspace

/-! ## What is kept -/

/-- Two runs gave the same result or failed alike, and left the same tokens and similar
workspaces. -/
structure Alike {α : Type} (r r' : Except CompileError α × BindState) : Prop where
  result : r.1 = r'.1
  tokens : r.2.tokens = r'.2.tokens
  workspace : Similar r.2.workspace r'.2.workspace

/-- **What is kept does not change what the grammar does.** -/
theorem Binder.Composed.alike {α : Type} {x : Binder α} (h : Composed x) {w v : Workspace}
    (similar : Similar w v) (c : BindContext) (ts : List Token) :
    Alike (x c ⟨ts, w⟩) (x c ⟨ts, v⟩) := by
  induction h generalizing c ts w v with
  | pure | throw | read | current => exact ⟨rfl, rfl, similar⟩
  | schema => exact ⟨congrArg Except.ok similar.schema.symm, rfl, similar⟩
  | @bind _ _ x f _ _ first rest =>
    have front := first similar c ts
    rw [Binder.bind_apply, Binder.bind_apply]
    rcases run : x c ⟨ts, w⟩ with ⟨r, t, w'⟩
    rcases run' : x c ⟨ts, v⟩ with ⟨r', t', v'⟩
    rw [run, run'] at front
    obtain ⟨rfl, rfl, similar⟩ := front
    cases r with
    | error e => exact ⟨rfl, rfl, similar⟩
    | ok a => exact rest a similar c t
  | inScope t alias? _ inside => exact inside similar _ ts
  | advance =>
    obtain last | ⟨t, u, rest, rfl⟩ := last_or_cons ts
    · rw [advance_last last, advance_last last]
      exact ⟨rfl, rfl, similar⟩
    · exact ⟨rfl, rfl, similar⟩
  | peekKind =>
    obtain last | ⟨t, u, rest, rfl⟩ := last_or_cons ts
    · rw [peekKind_last last, peekKind_last last]
      exact ⟨rfl, rfl, similar⟩
    · exact ⟨rfl, rfl, similar⟩
  | members t =>
    exact ⟨congrArg Except.ok (similar.members_fst t), rfl,
      (similar_members w t).symm.trans (similar.trans (similar_members v t))⟩
  | findType? name =>
    refine ⟨?_, rfl,
      (similar_findType w name _).symm.trans (similar.trans (similar_findType v name _))⟩
    show Except.ok ((w.findType name c.scope.base.ty).1.or _) =
      Except.ok ((v.findType name c.scope.base.ty).1.or _)
    rw [similar.findType_fst]
  | anonymousRecord fields =>
    refine ⟨?_, rfl, ⟨⟨similar.schema, similar.named⟩, congrArg (· + 1) similar.next⟩⟩
    show Except.ok (⟨.anonymous w.nextAnonymous, _, _, _, _⟩ : RecordDef) = _
    rw [← similar.next]
    rfl

/-- The grammar changes no declaration. -/
theorem akin_leads : Composed.Leads fun s t => Akin s.workspace t.workspace where
  refl s := .refl s.workspace
  trans h h' := h.trans h'
  advance := .refl _
  members t := (similar_members _ t).toAkin
  findType name context := (similar_findType _ name context).toAkin
  numbers := akin_numbered _

/-! ## What a run asks for -/

namespace Binder

/-- The types whose members a run of a part of the grammar asks for, one after the other.  Of all
steps, it is `members` that asks for one.  What follows a part that fails is not run. -/
inductive Asks : {α : Type} → Binder α → BindContext → BindState → List Ty → Prop
  | members {c : BindContext} {s : BindState} (t : Ty) : Asks (members t) c s [t]
  | bind {α β : Type} {x : Binder α} {f : α → Binder β} {c : BindContext} {s s' : BindState}
      {a : α} {ts us : List Ty} (first : Asks x c s ts) (run : x c s = (.ok a, s'))
      (rest : Asks (f a) c s' us) : Asks (x >>= f) c s (ts ++ us)
  | fails {α β : Type} {x : Binder α} {f : α → Binder β} {c : BindContext} {s s' : BindState}
      {e : CompileError} {ts : List Ty} (first : Asks x c s ts) (run : x c s = (.error e, s')) :
      Asks (x >>= f) c s ts
  | inScope {α : Type} {x : Binder α} {c : BindContext} {s : BindState} {ts : List Ty} (t : Ty)
      (alias? : Option String) (inside : Asks x { c with scope := c.scope.push t alias? } s ts) :
      Asks (inScope t alias? x) c s ts
  | pure {α : Type} {c : BindContext} {s : BindState} (a : α) : Asks (pure a : Binder α) c s []
  | throw {α : Type} {c : BindContext} {s : BindState} (e : CompileError) :
      Asks (throw e : Binder α) c s []
  | read {c : BindContext} {s : BindState} : Asks read c s []
  | current {c : BindContext} {s : BindState} : Asks current c s []
  | advance {c : BindContext} {s : BindState} : Asks advance c s []
  | peekKind {c : BindContext} {s : BindState} : Asks peekKind c s []
  | schema {c : BindContext} {s : BindState} : Asks schema c s []
  | findType? {c : BindContext} {s : BindState} (name : String) : Asks (findType? name) c s []
  | anonymousRecord {c : BindContext} {s : BindState} (fields : List (String × Ty)) :
      Asks (anonymousRecord fields) c s []

variable {α : Type} {x : Binder α}

/-- Every run of a part of the grammar can be recorded. -/
theorem Composed.exists_asks (h : Composed x) (c : BindContext) (s : BindState) :
    ∃ ts, Asks x c s ts := by
  induction h generalizing c s with
  | pure a => exact ⟨[], .pure a⟩
  | throw e => exact ⟨[], .throw e⟩
  | @bind _ _ x f _ _ first rest =>
    obtain ⟨ts, first⟩ := first c s
    rcases run : x c s with ⟨e | a, s'⟩
    · exact ⟨ts, .fails first run⟩
    · obtain ⟨us, rest⟩ := rest a c s'
      exact ⟨ts ++ us, .bind first run rest⟩
  | inScope t alias? _ inside =>
    obtain ⟨ts, inside⟩ := inside { c with scope := c.scope.push t alias? } s
    exact ⟨ts, .inScope t alias? inside⟩
  | read => exact ⟨[], .read⟩
  | current => exact ⟨[], .current⟩
  | advance => exact ⟨[], .advance⟩
  | peekKind => exact ⟨[], .peekKind⟩
  | schema => exact ⟨[], .schema⟩
  | members t => exact ⟨[t], .members t⟩
  | findType? name => exact ⟨[], .findType? name⟩
  | anonymousRecord fields => exact ⟨[], .anonymousRecord fields⟩

theorem advance_workspace (c : BindContext) (s : BindState) :
    (advance c s).2.workspace = s.workspace := by
  obtain ⟨tokens, w⟩ := s
  obtain last | ⟨t, u, rest, rfl⟩ := Composed.last_or_cons tokens
  · rw [Composed.advance_last last]
  · rfl

theorem peekKind_workspace (c : BindContext) (s : BindState) :
    (peekKind c s).2.workspace = s.workspace := by
  obtain ⟨tokens, w⟩ := s
  obtain last | ⟨t, u, rest, rfl⟩ := Composed.last_or_cons tokens
  · rw [Composed.peekKind_last last]
  · rfl

/-- The members that are kept after a run are those that it asked for and those kept before. -/
theorem Asks.mem_kept {c : BindContext} {s : BindState} {ts : List Ty} (h : Asks x c s ts)
    {t : Ty} : t ∈ (x c s).2.workspace.kept ↔ t ∈ ts ∨ t ∈ s.workspace.kept := by
  have silent {us : List Ty} : t ∈ us ↔ t ∈ ([] : List Ty) ∨ t ∈ us :=
    (or_iff_right List.not_mem_nil).symm
  induction h with
  | pure | throw | read | current | schema | anonymousRecord => exact silent
  | members u =>
    rw [List.mem_singleton]
    exact mem_kept_members
  | bind _ run _ first rest =>
    rw [run] at first
    rw [bind_apply, run, List.mem_append]
    exact rest.trans ((or_congr_right first).trans (or_left_comm.trans or_assoc.symm))
  | fails _ run first =>
    rw [run] at first
    rwa [bind_apply, run]
  | inScope _ _ _ inside => exact inside
  | advance =>
    rw [advance_workspace]
    exact silent
  | peekKind =>
    rw [peekKind_workspace]
    exact silent
  | @findType? c s name =>
    show t ∈ (s.workspace.findType name c.scope.base.ty).2.kept ↔ _
    rw [kept_findType]
    exact silent

end Binder

/-! ## Texts -/

namespace Source

variable {α : Type} {b : Binder α} {w v : Workspace}

/-- The types whose members are asked for while a part of the grammar runs on a text. -/
def Asks (source : Source) (b : Binder α) (w : Workspace) (ts : List Ty) : Prop :=
  match Lexer.tokens source.text with
  | ([], some _) => ts = []
  | (tokens, fault) =>
    Binder.Asks b
      ⟨.ofElement source.element, source.params, source.contextKeywords, fault, tokens.length⟩
      ⟨tokens, w⟩ ts

/-- What is kept does not change what becomes of a text. -/
theorem run_similar (source : Source) (h : Composed b) (similar : Similar w v) :
    (source.run b w).1 = (source.run b v).1 ∧
      Similar (source.run b w).2 (source.run b v).2 := by
  unfold run
  split
  · exact ⟨rfl, similar⟩
  · have alike := h.alike similar
    exact ⟨(alike _ _).result, (alike _ _).workspace⟩

/-- Compiling a text changes no declaration. -/
theorem run_akin (source : Source) (h : Composed b) (w : Workspace) :
    Akin w (source.run b w).2 := by
  unfold run
  split
  · exact .refl w
  next tokens _ _ _ => exact (h.leadsTo akin_leads _ ⟨tokens, w⟩ :)

theorem exists_asks (source : Source) (h : Composed b) (w : Workspace) :
    ∃ ts, source.Asks b w ts := by
  unfold Asks
  split
  · exact ⟨[], rfl⟩
  · exact h.exists_asks _ _

theorem Asks.mem_kept {source : Source} {ts : List Ty} (h : source.Asks b w ts) {t : Ty} :
    t ∈ (source.run b w).2.kept ↔ t ∈ ts ∨ t ∈ w.kept := by
  unfold Source.Asks at h
  unfold run
  generalize Lexer.tokens source.text = read at h ⊢
  rcases read with ⟨_ | ⟨u, tokens⟩, _ | e⟩
  case nil.some =>
    obtain rfl : ts = [] := h
    exact (or_iff_right List.not_mem_nil).symm
  all_goals exact Binder.Asks.mem_kept h

end Source

/-! ## Requests -/

/-- What a registry can be asked for. -/
inductive Request
  | register (t : Ty)
  | members (t : Ty)
  | findMember (t : Ty) (name : String)
  | findMethods (t : Ty) (name : String)
  | findType (name : String) (context : Ty)
  | parse (source : Source)
  | parseOrdering (source : Source)
  | compilePredicate (source : Source)
  | compileProjection (source : Source) (target? : Option Ty)
  | compileOrdering (source : Source)

namespace Request

/-- Whether a type is registered. -/
def isRegister : Request → Bool
  | register _ => true
  | _ => false

/-- Whether a text is compiled. -/
def isText : Request → Bool
  | parse _ | parseOrdering _ | compilePredicate _ | compileProjection .. => true
  | compileOrdering _ => true
  | _ => false

/-- What a request leaves behind, whether it fails or not. -/
def run (q : Request) (w : Workspace) : Workspace :=
  match q with
  | register t => { w with registry := w.registry.register t }
  | members t | findMember t _ | findMethods t _ => (w.members t).2
  | findType name context => (w.findType name context).2
  | parse source => (source.parse w).2
  | parseOrdering source => (source.parseOrdering w).2
  | compilePredicate source => (source.compilePredicate w).2
  | compileProjection source target? => (source.compileProjection target? w).2
  | compileOrdering source => (OrderingKey.compile source w).2

/-- The types whose members a request asks for, one after the other. -/
def Asks (q : Request) (w : Workspace) (ts : List Ty) : Prop :=
  match q with
  | register _ | findType .. => ts = []
  | members t | findMember t _ | findMethods t _ => ts = [t]
  | parse source | compilePredicate source | compileProjection source _ =>
    source.Asks Grammar.whole w ts
  | parseOrdering source | compileOrdering source => source.Asks Grammar.ordering w ts

/-- What some requests leave behind. -/
def runAll : List Request → Workspace → Workspace
  | [], w => w
  | q :: qs, w => runAll qs (q.run w)

/-- The types whose members some requests ask for, one after the other. -/
inductive AsksAll : List Request → Workspace → List Ty → Prop
  | nil (w : Workspace) : AsksAll [] w []
  | cons {q : Request} {qs : List Request} {w : Workspace} {ts us : List Ty}
      (first : q.Asks w ts) (rest : AsksAll qs (q.run w) us) : AsksAll (q :: qs) w (ts ++ us)

variable {q : Request} {w v : Workspace} {ts : List Ty}

/-- A text is compiled by a part of the grammar. -/
theorem run_of_isText (h : q.isText = true) :
    ∃ (source : Source) (α : Type) (b : Binder α), Composed b ∧
      ∀ w, q.run w = (source.run b w).2 ∧ q.Asks w = source.Asks b w := by
  cases q with
  | parse source | compilePredicate source | compileProjection source =>
    exact ⟨source, _, _, Grammar.whole_composed, fun _ => ⟨rfl, rfl⟩⟩
  | parseOrdering source | compileOrdering source =>
    exact ⟨source, _, _, Grammar.ordering_composed, fun _ => ⟨rfl, rfl⟩⟩
  | _ => cases h

/-! ### One request -/

/-- Only registering a type changes a declaration. -/
theorem run_akin (h : q.isRegister = false) (w : Workspace) : Akin w (q.run w) := by
  cases text : q.isText with
  | true =>
    obtain ⟨source, α, b, composed, same⟩ := run_of_isText text
    rw [(same w).1]
    exact source.run_akin composed w
  | false =>
    cases q with
    | register => cases h
    | members t | findMember t | findMethods t => exact (similar_members w t).toAkin
    | findType name context => exact (similar_findType w name context).toAkin
    | _ => cases text

/-- Registering a type changes the declarations alike. -/
theorem register_akin (h : Akin w v) (t : Ty) :
    Akin ((register t).run w) ((register t).run v) := by
  simp only [run, Registry.register]
  cases t.declaredName? with
  | some name => exact ⟨h.schema, congrArg ((name, t) :: ·) h.named⟩
  | none => exact h

theorem exists_asks (q : Request) (w : Workspace) : ∃ ts, q.Asks w ts := by
  cases text : q.isText with
  | true =>
    obtain ⟨source, α, b, composed, same⟩ := run_of_isText text
    rw [(same w).2]
    exact source.exists_asks composed w
  | false =>
    cases q with
    | register | findType => exact ⟨[], rfl⟩
    | members t | findMember t | findMethods t => exact ⟨[t], rfl⟩
    | _ => cases text

/-- The members that are kept afterwards are those asked for and those kept before. -/
theorem Asks.mem_kept (h : q.Asks w ts) {t : Ty} :
    t ∈ (q.run w).kept ↔ t ∈ ts ∨ t ∈ w.kept := by
  cases text : q.isText with
  | true =>
    obtain ⟨source, α, b, composed, same⟩ := run_of_isText text
    rw [(same w).2] at h
    rw [(same w).1]
    exact h.mem_kept
  | false =>
    cases q with
    | register u =>
      obtain rfl : ts = [] := h
      have same : ((register u).run w).kept = w.kept := by
        simp only [run, Registry.register]
        cases u.declaredName? <;> rfl
      rw [same]
      exact (or_iff_right List.not_mem_nil).symm
    | members u | findMember u | findMethods u =>
      obtain rfl : ts = [u] := h
      rw [List.mem_singleton]
      exact mem_kept_members
    | findType name context =>
      obtain rfl : ts = [] := h
      rw [run, kept_findType]
      exact (or_iff_right List.not_mem_nil).symm
    | _ => cases text

/-! ### Some requests -/

/-- Of some requests, those that register types make the declarations. -/
theorem runAll_akin (qs : List Request) (h : Akin w v) :
    Akin (runAll qs w) (runAll (qs.filter isRegister) v) := by
  induction qs generalizing w v with
  | nil => exact h
  | cons q qs ih =>
    cases register : q.isRegister with
    | false =>
      rw [List.filter_cons_of_neg (by simp [register])]
      exact ih ((run_akin register w).symm.trans h)
    | true =>
      rw [List.filter_cons_of_pos register]
      cases q with
      | register t => exact ih (register_akin h t)
      | _ => cases register

theorem exists_asksAll (qs : List Request) (w : Workspace) : ∃ ts, AsksAll qs w ts := by
  induction qs generalizing w with
  | nil => exact ⟨[], .nil w⟩
  | cons q qs ih =>
    obtain ⟨ts, first⟩ := q.exists_asks w
    obtain ⟨us, rest⟩ := ih (q.run w)
    exact ⟨ts ++ us, .cons first rest⟩

theorem AsksAll.mem_kept {qs : List Request} (h : AsksAll qs w ts) {t : Ty} :
    t ∈ (runAll qs w).kept ↔ t ∈ ts ∨ t ∈ w.kept := by
  induction h with
  | nil => exact (or_iff_right List.not_mem_nil).symm
  | cons first _ ih => rw [runAll, ih, first.mem_kept, List.mem_append, or_left_comm, or_assoc]

/-- **What is kept is not noticed.**  After any requests, failing ones included, the members of
every type and the type of every name are those that a new registry gives in which the same types
were registered.  As many types are kept as the requests asked for, each of them counted once. -/
theorem answers (schema : Schema) (next next' : Nat) (qs : List Request) :
    let w := runAll qs ⟨.new schema, next⟩
    let fresh := runAll (qs.filter isRegister) ⟨.new schema, next'⟩
    (∀ t, (w.members t).1 = (fresh.members t).1) ∧
    (∀ t name, (w.members t).1.findMember? name = (fresh.members t).1.findMember? name) ∧
    (∀ t name, (w.members t).1.findMethods name = (fresh.members t).1.findMethods name) ∧
    (∀ name context, (w.findType name context).1 = (fresh.findType name context).1) ∧
    (∃ asked, AsksAll qs ⟨.new schema, next⟩ asked) ∧
    ∀ asked, AsksAll qs ⟨.new schema, next⟩ asked →
      w.registry.cachedTypes = asked.dedup.length := by
  intro w fresh
  have akin : Akin w fresh := runAll_akin qs ⟨rfl, rfl⟩
  have members := akin.members_fst
  refine ⟨members, fun t name => by rw [members], fun t name => by rw [members],
    akin.findType_fst, exists_asksAll qs _, fun asked h => ?_⟩
  have same : w.kept.Perm asked.dedup := by
    refine (List.perm_ext_iff_of_nodup w.registry.tables_nodup (List.nodup_dedup _)).2 fun t => ?_
    rw [List.mem_dedup]
    exact h.mem_kept.trans (or_iff_left List.not_mem_nil)
  rw [← same.length_eq]
  exact (List.length_map _).symm

end Request

end TypedExpr
