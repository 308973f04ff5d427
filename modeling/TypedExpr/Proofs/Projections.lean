import Mathlib.Data.List.Pairwise
import TypedExpr.Proofs.Evaluation.Visits
import TypedExpr.Proofs.Resolution.Composed

/-!
# Projections

A projection reads expressions and a name for each of them, and makes a record with one field for
each, in the same order.  Names are compared up to the case of ASCII letters when they are read,
as they are when a member is looked up.  So at most one field answers to a name, in whichever
letter case, and the exact letter case gives no field precedence over another.

* `Apart` — fields of which no two answer to the same name.
* `Grammar.Fields` — the expressions and the names of a projection, as they are read.
* `Expr.EvaluateTo` — the values of expressions, one after the other.
* **`Grammar.projection_read_back`** — what a projection is made of is found in it by name, and what
  its expressions evaluate to is read from the object.
-/

namespace TypedExpr

open Binder

/-! ## Members by name -/

section

variable {format : GuidFormat}

/-- No two fields have the same name up to the case of ASCII letters. -/
def Apart {τ : Type} (fields : List (String × τ)) : Prop :=
  fields.Pairwise fun f g => Text.eqIgnoreCase f.1 g.1 = false

/-- If no two members answer to the same name, a member is found by its name in any letter case. -/
theorem MemberTable.findMember?_eq_some {table : MemberTable} {m : Member} {name : String}
    (apart : table.members.Pairwise fun m n => Text.eqIgnoreCase m.name n.name = false)
    (known : m ∈ table.members) (same : Text.eqIgnoreCase m.name name = true) :
    table.findMember? name = some m := by
  have only (n : Member) (among : n ∈ table.members)
      (answers : Text.eqIgnoreCase n.name name = true) : n = m := by
    by_contra other
    have symmetric : Std.Symm fun m n : Member => Text.eqIgnoreCase m.name n.name = false :=
      ⟨fun _ _ differ => by rwa [Text.eqIgnoreCase_comm]⟩
    have differ := apart.forall among known other
    rw [Text.eqIgnoreCase_comm] at same
    rw [Text.eqIgnoreCase_trans answers same] at differ
    cases differ
  rw [findMember?]
  cases exact : table.members.find? (·.name == name) with
  | some n =>
    have spelled : n.name = name := by simpa using List.find?_some exact
    have answers : Text.eqIgnoreCase n.name name = true := by
      rw [spelled, Text.eqIgnoreCase_refl]
    rw [Option.some_or, only n (List.mem_of_find?_eq_some exact) answers]
  | none =>
    rw [Option.none_or]
    cases loose : table.members.find? fun m => Text.eqIgnoreCase m.name name with
    | some n =>
      have answers := List.find?_some loose
      rw [only n (List.mem_of_find?_eq_some loose) answers]
    | none => exact absurd same (List.find?_eq_none.1 loose m known)

/-- A field of a record is found by its name in any letter case. -/
theorem findMember?_field [GuidFormat] {d : RecordDef} (apart : Apart d.fields) {i : Nat}
    {name : String} {t : Ty} (field : d.fields[i]? = some (name, t)) {spelling : String}
    (same : Text.eqIgnoreCase name spelling = true) (s : Schema) :
    (MemberTable.of s (.record d)).findMember? spelling = some ⟨name, t, .field i⟩ := by
  have members : (MemberTable.of s (.record d)).members =
      d.fields.mapIdx fun i f => ⟨f.1, f.2, .field i⟩ := rfl
  have known : (⟨name, t, .field i⟩ : Member) ∈ (MemberTable.of s (.record d)).members := by
    rw [members]
    exact List.mem_of_getElem? (i := i) (by simp [field])
  refine MemberTable.findMember?_eq_some ?_ known same
  rw [members, List.pairwise_iff_getElem]
  intro i j hi hj lt
  rw [Apart, List.pairwise_iff_getElem] at apart
  simpa using apart i j (by simpa using hi) (by simpa using hj) lt

/-! ## Reading fields -/

namespace Grammar

/-- How an expression is named: by the identifier behind `as`, or else by the name that it
suggests. -/
inductive Named (c : BindContext) (e : Expr) : BindState → String → BindState → Prop
  | given {s s₁ s₂ word t} (asName : (headToken s.tokens).kind = .keyword .asName)
    (past : Runs c advance s word s₁) (identifier : Runs c expectIdentifier s₁ t s₂) :
    Named c e s t.text s₂
  | inferred {s name} (plain : (headToken s.tokens).kind ≠ .keyword .asName)
    (suggested : inferredName? c.scope e = some name) : Named c e s name s

/-- The fields that are read one after the other: an expression, its name, and the next field if and
only if a comma follows. -/
inductive Fields (inner : Binder Expr) (c : BindContext) :
    BindState → List (String × Expr) → BindState → Prop
  | last {s t u e name} (expression : Runs c inner s e t) (named : Named c e t name u)
    (other : (headToken u.tokens).kind ≠ .symbol .comma) : Fields inner c s [(name, e)] u
  | next {s t u v w e name comma fields} (expression : Runs c inner s e t)
    (named : Named c e t name u) (sign : (headToken u.tokens).kind = .symbol .comma)
    (past : Runs c advance u comma v) (rest : Fields inner c v fields w) :
    Fields inner c s ((name, e) :: fields) w

variable {inner : Binder Expr} {c : BindContext} {s s' : BindState} {e : Expr} {name : String}
  {fields fields' : List (String × Expr)}

theorem Named.of_runs (run : Runs c (fieldName e) s name s') : Named c e s name s' := by
  obtain ⟨_, _, ⟨⟩, run⟩ := Runs.of_bind run
  split at run
  next asName =>
    obtain ⟨word, s₁, past, run⟩ := Runs.of_bind run
    obtain ⟨t, s₂, identifier, ⟨⟩⟩ := Runs.of_bind run
    exact .given (by simpa using asName) past identifier
  next plain =>
    obtain ⟨_, _, ⟨⟩, run⟩ := Runs.of_bind run
    split at run
    next suggested =>
      cases run
      exact .inferred (by simpa using plain) suggested
    next => cases run

/-- One more field is read, and its name differs from those that were read before. -/
theorem exists_of_projectionField (run : Runs c (projectionField inner fields) s fields' s') :
    ∃ e name t, fields' = fields ++ [(name, e)] ∧ Runs c inner s e t ∧ Named c e t name s' ∧
      ∀ f ∈ fields, Text.eqIgnoreCase f.1 name = false := by
  obtain ⟨_, _, ⟨⟩, run⟩ := Runs.of_bind run
  obtain ⟨e, t, expression, run⟩ := Runs.of_bind run
  obtain ⟨name, u, named, run⟩ := Runs.of_bind run
  split at run
  next => cases run
  next fresh =>
    cases run
    exact ⟨e, name, t, rfl, expression, .of_runs named, by simpa using fresh⟩

/-- The comma is left behind, if it is not the last token. -/
theorem length_of_comma {comma : Token} {u v : BindState} (past : Runs c advance u comma v)
    (sign : (headToken u.tokens).kind = .symbol .comma) :
    v.tokens.length + 1 = u.tokens.length ∨ u.tokens.length < 2 ∧ v.tokens = u.tokens := by
  obtain few | ⟨t, t', rest, more⟩ := Composed.last_or_cons u.tokens
  · rw [Runs, Composed.advance_last few] at past
    exact Or.inr ⟨few, by rw [← (Prod.mk.inj past).2]⟩
  · obtain ⟨_, w⟩ := u
    subst more
    cases past
    exact Or.inl rfl

/-- One field is read after the other up to where no comma follows, and no name comes up again.  No
bound stops the reading before: every comma is one of the tokens that are left. -/
theorem exists_of_separatedFrom {fuel : Nat} (steps : Composed inner)
    (run : Runs c (separatedFrom (projectionField inner) fuel fields) s fields' s')
    (room : s.tokens.length ≤ fuel ∨
      s.tokens.length < 2 ∧ (headToken s.tokens).kind = .symbol .comma)
    (some_left : s.tokens ≠ []) (behind : (headToken s'.tokens).kind ≠ .symbol .comma) :
    ∃ more, fields' = fields ++ more ∧ Fields inner c s more s' ∧
      (Apart fields → Apart fields') := by
  induction fuel generalizing fields s with
  | zero =>
    cases run
    rcases room with none | ⟨-, sign⟩
    · exact absurd (List.length_eq_zero_iff.1 (Nat.le_zero.1 none)) some_left
    · exact absurd sign behind
  | succ fuel ih =>
    obtain ⟨extended, u, item, run⟩ := Runs.of_bind run
    obtain ⟨suffix, kept⟩ := item.suffix (projectionField_composed steps fields)
    obtain ⟨e, name, t, rfl, expression, named, fresh⟩ := exists_of_projectionField item
    have apart (before : Apart fields) : Apart (fields ++ [(name, e)]) := by
      refine List.pairwise_append.2 ⟨before, List.pairwise_singleton _ _, ?_⟩
      simpa using fresh
    obtain ⟨_, _, ⟨⟩, run⟩ := Runs.of_bind run
    split at run
    next sign =>
      have sign : (headToken u.tokens).kind = .symbol .comma := by simpa using sign
      obtain ⟨comma, v, past, run⟩ := Runs.of_bind run
      obtain ⟨left, still⟩ := past.suffix .advance
      have fewer := suffix.length_le
      have room : v.tokens.length ≤ fuel ∨
          v.tokens.length < 2 ∧ (headToken v.tokens).kind = .symbol .comma := by
        rcases length_of_comma past sign with less | ⟨few, same⟩
        · left
          omega
        · rw [same]
          exact Or.inr ⟨few, sign⟩
      obtain ⟨more, rfl, rest, distinct⟩ := ih run room (still (kept some_left))
      refine ⟨(name, e) :: more, List.append_assoc .., ?_, distinct ∘ apart⟩
      exact .next expression named sign past rest
    next other =>
      cases run
      exact ⟨[(name, e)], rfl, .last expression named (by simpa using other), apart⟩

/-- What was expected stood there. -/
theorem kind_of_expect {kind : TokenKind} {t : Token} (run : Runs c (expect kind) s t s') :
    (headToken s.tokens).kind = kind := by
  obtain ⟨_, _, ⟨⟩, run⟩ := Runs.of_bind run
  split at run
  next found => exact beq_iff_eq.1 found
  next => cases run

/-- **A projection makes a record of the fields that it reads** between its parentheses. -/
theorem exists_of_projection (steps : Composed inner) (room : s.tokens.length ≤ c.tokenCount)
    (run : Runs c (projection inner) s e s') :
    ∃ d fields, e = .new d (fields.map Prod.snd) ∧
      d.fields = fields.map (fun f => (f.1, f.2.ty)) ∧ Apart fields ∧
      ∃ new s₁ paren s₂ s₃ close s₄, Runs c (expect (.keyword .new)) s new s₁ ∧
        Runs c (expect (.symbol .leftParen)) s₁ paren s₂ ∧ Fields inner c s₂ fields s₃ ∧
        Runs c (expect (.symbol .rightParen)) s₃ close s₄ ∧
        Runs c (anonymousRecord (fields.map fun f => (f.1, f.2.ty))) s₄ d s' := by
  obtain ⟨new, s₁, started, run⟩ := Runs.of_bind run
  obtain ⟨paren, s₂, opened, run⟩ := Runs.of_bind run
  obtain ⟨fields, s₃, items, run⟩ := Runs.of_bind run
  obtain ⟨close, s₄, closed, run⟩ := Runs.of_bind run
  obtain ⟨d, s₅, made, ⟨⟩⟩ := Runs.of_bind run
  obtain ⟨_, _, ⟨⟩, items⟩ := Runs.of_bind items
  obtain ⟨first, kept⟩ := started.suffix (.expect _)
  obtain ⟨second, kept'⟩ := opened.suffix (.expect _)
  have some_left : s.tokens ≠ [] := by
    intro none
    have word := kind_of_expect started
    rw [none] at word
    cases word
  have room : s₂.tokens.length ≤ c.tokenCount :=
    Nat.le_trans (second.trans first).length_le room
  have behind : (headToken s₃.tokens).kind ≠ .symbol .comma := by
    rw [kind_of_expect closed]
    nofun
  obtain ⟨fields, rfl, read, apart⟩ :=
    exists_of_separatedFrom steps items (Or.inl room) (kept' (kept some_left)) behind
  have shape : d.fields = fields.map fun f => (f.1, f.2.ty) := by
    cases made
    rfl
  exact ⟨d, fields, rfl, shape, apart .nil, new, s₁, paren, s₂, s₃, close, s₄, started, opened,
    read, closed, made⟩

end Grammar

/-! ## Evaluation of fields -/

namespace Expr

/-- One after the other, the expressions evaluate to the values. -/
inductive EvaluateTo [GuidFormat] (frames : List Value) :
    List Expr → Store → List Value → Store → Prop
  | nil (st) : EvaluateTo frames [] st [] st
  | cons {e es v vs st st₁ st₂} (first : e.evaluate frames st = (.ok v, st₁))
    (rest : EvaluateTo frames es st₁ vs st₂) : EvaluateTo frames (e :: es) st (v :: vs) st₂

variable {frames : List Value} {d : RecordDef} {e target : Expr} {es : List Expr} {v : Value}
  {vs : List Value} {st st₁ st₂ : Store} {err : EvalError}

theorem EvaluateTo.length_eq (h : EvaluateTo frames es st vs st₁) : vs.length = es.length := by
  induction h with
  | nil => rfl
  | cons first rest ih => rw [List.length_cons, List.length_cons, ih]

theorem EvaluateTo.evaluateAll_eq (h : EvaluateTo frames es st vs st₁) :
    evaluateAll es frames st = (.ok vs, st₁) := by
  induction h with
  | nil => rfl
  | cons first rest ih => exact bind_eq_ok.2 ⟨_, _, first, bind_eq_ok.2 ⟨_, _, ih, rfl⟩⟩

/-- The object of a projection holds the values of the expressions. -/
theorem EvaluateTo.evaluate_new (h : EvaluateTo frames es st vs st₁) (d : RecordDef) :
    (new d es).evaluate frames st =
      (.ok (.object st₁.fresh d vs), { st₁ with fresh := st₁.fresh + 1 }) := by
  show (evaluateAll es frames >>= fun values => Eval.newObject d values) st = _
  rw [bind_of_ok h.evaluateAll_eq]
  rfl

/-- The expressions behind one that fails are not evaluated. -/
theorem EvaluateTo.evaluate_new_fails (h : EvaluateTo frames es st vs st₁)
    (fails : e.evaluate frames st₁ = (.error err, st₂)) (d : RecordDef) (after : List Expr) :
    (new d (es ++ e :: after)).evaluate frames st = (.error err, st₂) :=
  bind_of_error (evaluateAll_fails h.evaluateAll_eq fails) _

/-- What is at the position of a field is read from an object. -/
theorem evaluate_field {id : Identity} {i : Nat} {name : String} {t : Ty}
    (object : target.evaluate frames st = (.ok (.object id d vs), st₁)) (value : vs[i]? = some v) :
    (Grammar.memberAccess target ⟨name, t, .field i⟩).evaluate frames st = (.ok v, st₁) := by
  show (target.evaluate frames >>= fun o => liftM (o.fieldAt target.ty name i)) st = _
  rw [bind_of_ok object]
  simp only [Value.fieldAt, value]
  rfl

end Expr

end

/-! ## What is read back -/

namespace Grammar

section

variable {format : GuidFormat} {inner : Binder Expr} {c : BindContext} {s s' : BindState} {e : Expr}

/-- A primary that starts with `new` is a projection. -/
theorem primaryStart_new (word : (headToken s.tokens).kind = .keyword .new) :
    primaryStart inner c s = projection inner c s := by
  have head : Runs c current s (headToken s.tokens) s := rfl
  rw [primaryStart, head.bind_eq]
  simp only [word]

/-- **What goes into a projection is found in it.**  The expressions between the parentheses of a
projection, with a comma in front of each but the first, get names that differ, whatever the case of
their ASCII letters.  Whatever part of the grammar reads them, the bound that stands for the number
of tokens of the text stops it nowhere, as long as no more tokens are left.  By its name in any
letter case the field of an expression is found, at the position and with the static type of the
expression.  If all expressions evaluate to values, so does the projection, and each field of the
object gives the value of its expression; if one fails, so does the projection, with the error of
the first. -/
theorem projection_read_back (steps : Composed inner) (room : s.tokens.length ≤ c.tokenCount)
    (word : (headToken s.tokens).kind = .keyword .new)
    (run : Runs c (primaryStart inner) s e s') :
    ∃ d fields, e = .new d (fields.map Prod.snd) ∧
      d.fields = fields.map (fun f => (f.1, f.2.ty)) ∧
      (∃ new s₁ paren s₂ s₃ close s₄, Runs c (expect (.keyword .new)) s new s₁ ∧
        Runs c (expect (.symbol .leftParen)) s₁ paren s₂ ∧ Fields inner c s₂ fields s₃ ∧
        Runs c (expect (.symbol .rightParen)) s₃ close s₄ ∧
        Runs c (anonymousRecord (fields.map fun f => (f.1, f.2.ty))) s₄ d s') ∧
      (fields.Pairwise fun f g => Text.eqIgnoreCase f.1 g.1 = false) ∧
      (∀ i name x, fields[i]? = some (name, x) → ∀ spelling,
        Text.eqIgnoreCase name spelling = true → ∀ c₁ s₁, ∃ s₂,
          Runs c₁ (findMember? e.ty spelling) s₁ (some ⟨name, x.ty, .field i⟩) s₂) ∧
      (∀ frames st vs st₁, Expr.EvaluateTo frames (fields.map Prod.snd) st vs st₁ →
        ∃ object, e.evaluate frames st = (.ok object, { st₁ with fresh := st₁.fresh + 1 }) ∧
          ∀ i name x, fields[i]? = some (name, x) → ∃ v, vs[i]? = some v ∧
            ∀ target frames₁ st₂ st₃, target.evaluate frames₁ st₂ = (.ok object, st₃) →
              (memberAccess target ⟨name, x.ty, .field i⟩).evaluate frames₁ st₂ = (.ok v, st₃)) ∧
      ∀ before f after, fields = before ++ f :: after → ∀ frames st vs st₁ err st₂,
        Expr.EvaluateTo frames (before.map Prod.snd) st vs st₁ →
        f.2.evaluate frames st₁ = (.error err, st₂) → e.evaluate frames st = (.error err, st₂) := by
  rw [Runs, primaryStart_new word] at run
  obtain ⟨d, fields, rfl, shape, apart, read⟩ := exists_of_projection steps room run
  refine ⟨d, fields, rfl, shape, read, apart, ?_, ?_, ?_⟩
  · intro i name x field spelling same c₁ s₁
    have found := findMember?_field (d := d) (by rwa [shape, Apart, List.pairwise_map])
      (i := i) (t := x.ty) (by simp [shape, field]) same s₁.workspace.registry.schema
    refine ⟨{ s₁ with workspace := (s₁.workspace.members (.record d)).2 }, ?_⟩
    rw [← found, ← s₁.workspace.registry.members_fst]
    rfl
  · intro frames st vs st₁ values
    refine ⟨_, values.evaluate_new d, fun i name x field => ?_⟩
    obtain ⟨lt, -⟩ := List.getElem?_eq_some_iff.1 field
    have inside : i < vs.length := by rwa [values.length_eq, List.length_map]
    have value := List.getElem?_eq_getElem inside
    exact ⟨_, value, fun target frames₁ st₂ st₃ object => Expr.evaluate_field object value⟩
  · rintro before f after rfl frames st vs st₁ err st₂ values fails
    rw [List.map_append, List.map_cons]
    exact values.evaluate_new_fails fails d _

/-- The length of a text, a number and a truth value. -/
def lengthTwoTrue : RecordDef :=
  ⟨.anonymous 0, "AnonymousType0",
    [("Length", .int .int32), ("Second", .int .int32), ("Third", .boolean)], .structural, false⟩

/-- The tree of a projection of all three. -/
def lengthTwoTrueTree : Expr :=
  .new lengthTwoTrue
    [.member (.parameter 0 .string) ⟨"Length", .int .int32, .property .length⟩,
      .literal (Value.int32 2) (.int .int32), .literal (.boolean true) .boolean]

end

/-- The place in front of the projection, in an expression about a text. -/
def beforeLengthTwoTrue : BindState :=
  ⟨[⟨.keyword .new, "new", 0⟩, ⟨.symbol .leftParen, "(", 4⟩, ⟨.identifier, "Length", 5⟩,
    ⟨.symbol .comma, ",", 11⟩, ⟨.integer, "2", 13⟩, ⟨.keyword .asName, "as", 15⟩,
    ⟨.identifier, "Second", 18⟩, ⟨.symbol .comma, ",", 24⟩, ⟨.keyword .trueValue, "true", 26⟩,
    ⟨.keyword .asName, "as", 31⟩, ⟨.identifier, "Third", 34⟩, ⟨.symbol .rightParen, ")", 39⟩,
    ⟨.finish, "", 40⟩], Workspace.empty⟩

/-- The place behind the projection. -/
def behindLengthTwoTrue : BindState :=
  ⟨[⟨.finish, "", 40⟩], { (Workspace.empty.members .string).2 with nextAnonymous := 1 }⟩

/-- What is known around the projection. -/
def aboutText : BindContext := ⟨.ofElement .string, [], false, none, 13⟩

set_option maxRecDepth 4000 in
/-- The last of three members is found and read by its name, in capital letters. -/
theorem projection_read_back_third :
    Lexer.tokens "new (Length, 2 as Second, true as Third)" = (beforeLengthTwoTrue.tokens, none) ∧
      Runs aboutText (primaryStart anyExpression) beforeLengthTwoTrue lengthTwoTrueTree
        behindLengthTwoTrue ∧
      (∀ c₁ s₁, ∃ s₂, Runs c₁ (findMember? lengthTwoTrueTree.ty "THIRD") s₁
        (some ⟨"Third", .boolean, .field 2⟩) s₂) ∧
      ((memberAccess lengthTwoTrueTree ⟨"Third", .boolean, .field 2⟩).evaluate [.string "abc"]
        Store.empty).1 = .ok (.boolean true) := by
  have run : Runs aboutText (primaryStart anyExpression) beforeLengthTwoTrue lengthTwoTrueTree
      behindLengthTwoTrue := rfl
  obtain ⟨d, fields, same, shape, -, -, found, values, -⟩ :=
    projection_read_back anyExpression_composed (by decide) rfl run
  obtain ⟨rfl, parts⟩ := Expr.new.inj same
  obtain ⟨x, third, ty⟩ : ∃ x, fields[2]? = some ("Third", x) ∧ x.ty = .boolean := by
    have last : (fields.map fun f => (f.1, f.2.ty))[2]? = some ("Third", .boolean) := by
      rw [← shape]
      rfl
    rw [List.getElem?_map, Option.map_eq_some_iff] at last
    obtain ⟨⟨_, x⟩, third, named⟩ := last
    obtain ⟨rfl, ty⟩ := Prod.mk.inj named
    exact ⟨x, third, ty⟩
  have evaluated : Expr.EvaluateTo [.string "abc"] (fields.map Prod.snd) Store.empty
      [Value.int32 3, Value.int32 2, .boolean true] Store.empty := by
    rw [← parts]
    exact .cons rfl (.cons rfl (.cons rfl (.nil _)))
  obtain ⟨object, new, read⟩ := values _ _ _ _ evaluated
  obtain ⟨v, value, read⟩ := read 2 _ _ third
  cases value
  rw [ty] at read
  refine ⟨rfl, run, ?_, congrArg Prod.fst (read _ _ _ _ new)⟩
  rw [← ty]
  exact found 2 _ _ third "THIRD" (by decide)

end Grammar

end TypedExpr
