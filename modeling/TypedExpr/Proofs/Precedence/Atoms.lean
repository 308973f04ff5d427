import TypedExpr.Proofs.Precedence.Running
import TypedExpr.Proofs.Precedence.Tree

/-!
# Binding of atoms

What a single token is bound to depends on its kind and text, on the context and on the schema, but
not on what stands behind it, unless that is a parenthesis or a dot.

* `nameExpr?`, `atomExpr?` — what a name and an atom are bound to.
* **`Grammar.primaryStart_yields`** — the start of a primary binds an atom to this, or fails.
-/

namespace TypedExpr

variable {format : GuidFormat}

/-- What a name is bound to that no parenthesis and no dot follows: a scope, an item with the name,
or a member of the current item. -/
def nameExpr? [GuidFormat] (c : BindContext) (s : Schema) (name : String) : Option Expr :=
  if c.contextKeywords && Text.eqIgnoreCase name "it" then some c.scope.current
  else if c.contextKeywords && Text.eqIgnoreCase name "parent" then c.scope.parent?
  else if c.contextKeywords && Text.eqIgnoreCase name "root" then some c.scope.root
  else (c.scope.resolve? name).or
    (((MemberTable.of s c.scope.current.ty).findMember? name).map
      (Grammar.memberAccess c.scope.current))

/-- What an atom is bound to. -/
def atomExpr? [GuidFormat] (c : BindContext) (s : Schema) (token : Shape) : Option Expr :=
  match token.kind with
  | .integer => (Grammar.integerValue? token.text).map Expr.ofValue
  | .real => (Grammar.realValue? token.text).map Expr.ofValue
  | .string => some (.ofValue (.string token.text))
  | .keyword .trueValue => some (.ofValue (.boolean true))
  | .keyword .falseValue => some (.ofValue (.boolean false))
  | .keyword .nullValue => some (.ofValue .null)
  | .placeholder index => (c.params[index]?).map fun p => .placeholder index p.value p.ty
  | .symbol .dollar => some c.scope.current
  | .symbol .caret => c.scope.parent?
  | .symbol .tilde => some c.scope.root
  | .identifier => nameExpr? c s token.text
  | _ => none

namespace Binder

variable {c : BindContext} {α : Type} {a : α} {s s' : BindState} {o : Option Expr}
  {tokens : List Token}

/-- If there is a result, the part of the grammar gives it, leaves these tokens behind, and keeps
the schema; otherwise it fails. -/
def Yields (c : BindContext) (x : Binder Expr) (s : BindState) (tokens : List Token) :
    Option Expr → Prop
  | some e => ∃ w, w.registry.schema = s.workspace.registry.schema ∧ Runs c x s e ⟨tokens, w⟩
  | none => Fails c x s

theorem Runs.yields_bind {x : Binder α} {f : α → Binder Expr} (hx : Runs c x s a s')
    (schema : s'.workspace.registry.schema = s.workspace.registry.schema)
    (hf : Yields c (f a) s' tokens o) : Yields c (x >>= f) s tokens o := by
  cases o with
  | some e =>
    obtain ⟨w, hw, run⟩ := hf
    exact ⟨w, hw.trans schema, hx.bind run⟩
  | none => exact hx.fails_bind hf

theorem yields_pure {w : Workspace} {e : Expr} :
    Yields c (pure e) ⟨tokens, w⟩ tokens (some e) :=
  ⟨w, rfl, .pure⟩

end Binder

namespace Grammar

open Binder

variable {c : BindContext} {t u : Token} {rest : List Token} {w : Workspace} {inner : Binder Expr}

/-! ## Literals, parameters and scopes -/

theorem numberLiteral_yields (value? : String → Option Value) :
    Yields c (numberLiteral value?) ⟨t :: u :: rest, w⟩ (u :: rest)
      ((value? t.text).map Expr.ofValue) := by
  refine runs_advance.yields_bind rfl ?_
  cases value? t.text with
  | some v => exact yields_pure
  | none => exact ⟨_, _, rfl⟩

theorem literal_yields (v : Value) :
    Yields c (literal v) ⟨t :: u :: rest, w⟩ (u :: rest) (some (.ofValue v)) :=
  runs_advance.yields_bind rfl yields_pure

theorem parentReference_yields (keyword : String) (offset : Nat) :
    Yields c (parentReference keyword offset) ⟨u :: rest, w⟩ (u :: rest) c.scope.parent? := by
  refine runs_scope.yields_bind rfl ?_
  cases c.scope.parent? with
  | some e => exact yields_pure
  | none => exact fails_fail _ _

theorem bind_yields (index offset : Nat) :
    Yields c (liftM (Parameter.bind c.params index offset)) ⟨u :: rest, w⟩ (u :: rest)
      ((c.params[index]?).map fun p => .placeholder index p.value p.ty) := by
  unfold Parameter.bind
  cases c.params[index]? with
  | some p => exact yields_pure
  | none => exact ⟨_, _, rfl⟩

/-! ## Names -/

theorem members_keeps (w : Workspace) (t : Ty) :
    (w.members t).2.registry.schema = w.registry.schema :=
  w.registry.members_schema t

theorem runs_findMember? (c : BindContext) (u : Token) (rest : List Token) (w : Workspace) (ty : Ty)
    (name : String) :
    ∃ w', w'.registry.schema = w.registry.schema ∧
      Runs c (findMember? ty name) ⟨u :: rest, w⟩
        ((MemberTable.of w.registry.schema ty).findMember? name) ⟨u :: rest, w'⟩ := by
  refine ⟨(w.members ty).2, members_keeps w ty, ?_⟩
  rw [← w.registry.members_fst ty]
  rfl

/-- A type alone is no expression. -/
theorem typeAccess_fails (paren : u.kind ≠ .symbol .leftParen) (dot : u.kind ≠ .symbol .dot)
    (ty : Ty) (name : String) (offset : Nat) :
    Fails c (typeAccess inner ty name offset) ⟨u :: rest, w⟩ := by
  refine runs_current.fails_bind ?_
  split
  next h => exact absurd h dot
  next h => exact absurd h paren
  next => exact fails_unexpected _

theorem implicitMember_runs (c : BindContext) (inner : Binder Expr) (rest : List Token)
    (w : Workspace) (paren : u.kind ≠ .symbol .leftParen) (name : String) (offset : Nat) :
    ∃ w', w'.registry.schema = w.registry.schema ∧
      Runs c (implicitMember inner name offset) ⟨u :: rest, w⟩
        (((MemberTable.of w.registry.schema c.scope.current.ty).findMember? name).map
          (memberAccess c.scope.current)) ⟨u :: rest, w'⟩ := by
  obtain ⟨w', schema, run⟩ := runs_findMember? c u rest w c.scope.current.ty name
  refine ⟨w', schema, runs_scope.bind ((runs_isSymbol _).bind ?_)⟩
  rw [if_neg (by simpa using paren)]
  exact run.bind .pure

theorem memberOrType_yields (paren : u.kind ≠ .symbol .leftParen) (dot : u.kind ≠ .symbol .dot)
    (name : String) (offset : Nat) :
    Yields c (memberOrType inner name offset) ⟨u :: rest, w⟩ (u :: rest)
      (((MemberTable.of w.registry.schema c.scope.current.ty).findMember? name).map
        (memberAccess c.scope.current)) := by
  obtain ⟨w', schema, run⟩ := implicitMember_runs c inner rest w paren name offset
  refine run.yields_bind schema ?_
  cases ((MemberTable.of w.registry.schema c.scope.current.ty).findMember? name).map
      (memberAccess c.scope.current) with
  | some e => exact ⟨w', rfl, .pure⟩
  | none =>
    have found : ∃ ty? v, Runs c (findType? name) ⟨u :: rest, w'⟩ ty? ⟨u :: rest, v⟩ :=
      ⟨_, _, rfl⟩
    obtain ⟨ty?, v, found⟩ := found
    refine found.fails_bind ?_
    cases ty? with
    | some ty => exact typeAccess_fails paren dot ty name offset
    | none =>
      simp only
      split
      · exact fails_fail _ _
      · exact fails_fail _ _

theorem plainName_yields (paren : u.kind ≠ .symbol .leftParen) (dot : u.kind ≠ .symbol .dot)
    (name : String) (offset : Nat) :
    Yields c (plainName inner name offset) ⟨u :: rest, w⟩ (u :: rest)
      ((c.scope.resolve? name).or
        (((MemberTable.of w.registry.schema c.scope.current.ty).findMember? name).map
          (memberAccess c.scope.current))) := by
  refine (runs_isSymbol _).yields_bind rfl ?_
  rw [if_neg (by simp [paren])]
  refine runs_scope.yields_bind rfl ?_
  cases c.scope.resolve? name with
  | some e => exact yields_pure
  | none => exact memberOrType_yields paren dot name offset

theorem identifier_yields (paren : u.kind ≠ .symbol .leftParen) (dot : u.kind ≠ .symbol .dot) :
    Yields c (identifier inner) ⟨t :: u :: rest, w⟩ (u :: rest)
      (nameExpr? c w.registry.schema t.text) := by
  refine runs_advance.yields_bind rfl (runs_read.yields_bind rfl ?_)
  have plain : Yields c (plainName inner t.text t.offset) ⟨u :: rest, w⟩ (u :: rest) _ :=
    plainName_yields paren dot t.text t.offset
  unfold nameExpr?
  cases c.contextKeywords with
  | false => exact plain
  | true =>
    simp only [↓reduceIte, Bool.true_and]
    unfold contextKeyword
    by_cases it : Text.eqIgnoreCase t.text "it" = true
    · rw [if_pos it, if_pos it]
      have run : Runs c (do return some (← scope).current) ⟨u :: rest, w⟩ (some c.scope.current)
        ⟨u :: rest, w⟩ := rfl
      exact run.yields_bind rfl yields_pure
    rw [if_neg it, if_neg it]
    by_cases parent : Text.eqIgnoreCase t.text "parent" = true
    · rw [if_pos parent, if_pos parent]
      have found : Yields c (parentReference t.text t.offset) ⟨u :: rest, w⟩ (u :: rest)
        c.scope.parent? := parentReference_yields t.text t.offset
      cases hp : c.scope.parent? with
      | some e =>
        rw [hp] at found
        obtain ⟨w', schema, run⟩ := found
        have run : Runs c (do return some (← parentReference t.text t.offset)) ⟨u :: rest, w⟩
          (some e) ⟨u :: rest, w'⟩ := run.bind .pure
        exact run.yields_bind schema yields_pure
      | none =>
        rw [hp] at found
        exact (found.bind _).bind _
    rw [if_neg parent, if_neg parent]
    by_cases root : Text.eqIgnoreCase t.text "root" = true
    · rw [if_pos root, if_pos root]
      have run : Runs c (do return some (← scope).root) ⟨u :: rest, w⟩ (some c.scope.root)
        ⟨u :: rest, w⟩ := rfl
      exact run.yields_bind rfl yields_pure
    rw [if_neg root, if_neg root]
    exact Runs.pure.yields_bind rfl plain

/-! ## Atoms -/

/-- **An atom is bound to its expression, or the start of a primary fails.** -/
theorem primaryStart_yields (atomic : t.kind.isAtom = true) (paren : u.kind ≠ .symbol .leftParen)
    (dot : u.kind ≠ .symbol .dot) :
    Yields c (primaryStart inner) ⟨t :: u :: rest, w⟩ (u :: rest)
      (atomExpr? c w.registry.schema t.shape) := by
  refine runs_current.yields_bind rfl ?_
  unfold atomExpr? Token.shape
  cases hk : t.kind with
  | identifier => exact identifier_yields paren dot
  | integer => exact numberLiteral_yields _
  | real => exact numberLiteral_yields _
  | string => exact literal_yields _
  | placeholder index =>
    exact runs_advance.yields_bind rfl (runs_read.yields_bind rfl (bind_yields _ _))
  | keyword k =>
    rw [hk] at atomic
    cases k with
    | trueValue | falseValue | nullValue => exact literal_yields _
    | _ => cases atomic
  | symbol sign =>
    rw [hk] at atomic
    cases sign with
    | dollar | tilde => exact runs_advance.yields_bind rfl (runs_scope.yields_bind rfl yields_pure)
    | caret => exact runs_advance.yields_bind rfl (parentReference_yields _ _)
    | _ => cases atomic
  | finish =>
    rw [hk] at atomic
    cases atomic

end Grammar

end TypedExpr
