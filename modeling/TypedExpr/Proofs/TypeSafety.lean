import TypedExpr.Proofs.Evaluation.Conforming
import TypedExpr.Proofs.Evaluation.Indifferent
import TypedExpr.Proofs.Typing.Compile

/-!
# Type safety

What is known of the evaluation of a text on an element that conforms to its type, if the code from
outside is trusted.  Null stands for an integer only if the run itself shifts by null where the type
of the shift has no null; code from outside may then be given such a null, and has to be trusted
with it.

* **`Source.parse_preserves`** — the value conforms to the type of the tree.
* **`Source.parse_unstuck`** — the evaluation is not stuck: no operation meets a value of an
  unforeseen form, but a cast from the object type may be refused.
* `Source.objects_untyped`, `Source.objects_stuck` — neither holds of objects that do not conform to
  their own type.
-/

namespace TypedExpr

namespace Source

section

variable {format : GuidFormat} {source : Source} {w : Workspace} {e : Expr} {v : Value}
  {s s' : Store}

/-- How the evaluation of a text on a conforming element ends.  Where a shift by null may stand for
an integer, its value has to be foreseen. -/
theorem evaluate_ensures {lax : Prop} (parsed : (source.parse w).1 = .ok e)
    (schema : w.registry.schema.Trusted lax) (params : ∀ p ∈ source.params, p.Trusted)
    (element : v.Conforms source.element) (shifts : e.LosesNull [v] s → lax) :
    EnsuresAt s (e.invoke v) (·.ConformsIn False lax e.ty)
      (e.Fails w.registry.schema (·.isStuck = false) [v] s) := by
  have constants : ∀ p ∈ source.params, ∀ c, p.value = .constant c → c.Conforms p.ty :=
    fun p hp c hc => (params p hp).constant hc
  have typed : e.Typed (source.premises w True False) [source.element] :=
    parse_typed parsed (fun _ => constants) nofun
  exact typed.evaluate (conforming trivial schema params) (.cons element.conformsIn .nil) shifts

/-! ## Preservation -/

/-- **The value of a text conforms to the type of its tree.**  If the run shifts by null where the
type of the shift has no null, null may stand for an integer in it. -/
theorem parse_preserves {r : Value} (parsed : (source.parse w).1 = .ok e)
    (schema : w.registry.schema.Trusted False)
    (lost : e.LosesNull [v] s → w.registry.schema.Trusted True)
    (params : ∀ p ∈ source.params, p.Trusted) (element : v.Conforms source.element)
    (run : e.invoke v s = (.ok r, s')) :
    (¬ e.LosesNull [v] s → r.Conforms e.ty) ∧
      (e.LosesNull [v] s → r.ConformsIn False True e.ty) := by
  constructor
  · intro kept
    exact (evaluate_ensures parsed schema params element kept).of_ok run
  · intro loses
    exact (evaluate_ensures parsed (lost loses) params element fun _ => trivial).of_ok run

/-- A record with one integer. -/
def pointRecord : RecordDef := ⟨.declared 0, "P", [("X", .int .int32)], .reference, true⟩

/-- A method that reads the field of its argument. -/
def pickMethod : Method :=
  ⟨"Pick", [.record pointRecord], .int .int32, fun _ args =>
    match args with
    | [.object _ _ [x]] => pure x
    | _ => throw .emptySequence⟩

/-- A conversion that puts an integer into a record. -/
def wrapConversion : Conversion :=
  ⟨.int .int32, fun n => pure (.object 0 pointRecord [n])⟩

/-- The record with its method and its conversion. -/
def pickSchema : Schema := ⟨[⟨pointRecord, [pickMethod], [], [wrapConversion]⟩]⟩

end

/-- The record is known by its name. -/
def pickWorkspace : Workspace :=
  ⟨(Registry.new pickSchema).register (.record pointRecord), 0⟩

theorem mem_pickSchema {α : Type} {d : RecordDef} {a : α} (f : RecordEntry → List α)
    (h : a ∈ (pickSchema.find? d).elim [] f) :
    d = pointRecord ∧ a ∈ f ⟨pointRecord, [pickMethod], [], [wrapConversion]⟩ := by
  cases found : pickSchema.find? d with
  | none =>
    rw [found] at h
    cases h
  | some entry =>
    rw [found] at h
    have mem := List.mem_singleton.1 (List.mem_of_find?_eq_some found)
    have same := List.find?_some found
    subst mem
    exact ⟨(beq_iff_eq.1 same).symm, h⟩

/-- Reading a field and filling one give values of their types, whatever null may stand for. -/
theorem pickSchema_trusted (lax : Prop) : pickSchema.Trusted lax := by
  constructor
  · intro d m this args t r t' known _ _ conform run
    obtain ⟨-, known⟩ := mem_pickSchema RecordEntry.methods known
    obtain rfl := List.mem_singleton.1 known
    obtain ⟨a, rest, arg, others, rfl⟩ := List.forall₂_cons_right_iff.1 conform
    obtain rfl := List.forall₂_nil_right_iff.1 others
    cases arg with
    | null => cases run
    | @object id d fields size each =>
      obtain ⟨x, rfl⟩ := List.length_eq_one_iff.1 size
      cases run
      exact each 0 r ("X", .int .int32) rfl rfl
  · intro d c u t r t' known operand _ run
    obtain ⟨rfl, known⟩ := mem_pickSchema RecordEntry.conversions known
    obtain rfl := List.mem_singleton.1 known
    cases run
    exact object_conformsIn (.cons operand .nil)

/-- A parameter with the number seven, computed when it is needed. -/
def seven : Parameter := ⟨.int .int32, .deferred (pure (Value.int32 7))⟩

theorem seven_trusted : seven.Trusted := by
  refine ⟨nofun, ?_⟩
  intro f deferred t r t' run
  cases deferred
  cases run
  exact .int .int32 _

/-- A call of the method, with a parameter that has to be converted. -/
def picked : Source := ⟨"$.Pick(@0)", .record pointRecord, [seven], true⟩

/-- The tree of `picked`. -/
def pickedTree : Expr :=
  .call (.parameter 0 (.record pointRecord)) pickMethod
    [.convert (.placeholder 0 seven.value (.int .int32))
      (some ⟨pointRecord, 0, some wrapConversion⟩) (.record pointRecord)]

set_option maxRecDepth 4000 in
theorem tokens_picked : Lexer.tokens picked.text =
    ([⟨.symbol .dollar, "$", 0⟩, ⟨.symbol .dot, ".", 1⟩, ⟨.identifier, "Pick", 2⟩,
      ⟨.symbol .leftParen, "(", 6⟩, ⟨.placeholder 0, "@0", 7⟩, ⟨.symbol .rightParen, ")", 9⟩,
      ⟨.finish, "", 10⟩], none) := rfl

set_option maxRecDepth 4000 in
theorem parse_picked : (picked.parse pickWorkspace).1 = .ok pickedTree := by
  unfold parse run
  rw [tokens_picked]
  with_unfolding_all rfl

/-- A shift by a number that may be null, where it is not. -/
def shiftUnlessNull : Source := ⟨"iif($ = null, 0, 1 << $)", .nullable (.int .int32), [], true⟩

/-- The tree of `shiftUnlessNull`. -/
def shiftUnlessNullTree : Expr :=
  let item := Expr.parameter 0 (.nullable (.int .int32))
  .conditional (.binary (.compare .eq) item (.literal .null (.nullable (.int .int32))) .boolean)
    (.literal (Value.int32 0) (.int .int32))
    (.binary (.shift .left) (.literal (Value.int32 1) (.int .int32)) item (.int .int32))

set_option maxRecDepth 4000 in
theorem tokens_shiftUnlessNull : Lexer.tokens shiftUnlessNull.text =
    ([⟨.identifier, "iif", 0⟩, ⟨.symbol .leftParen, "(", 3⟩, ⟨.symbol .dollar, "$", 4⟩,
      ⟨.symbol .equal, "=", 6⟩, ⟨.keyword .nullValue, "null", 8⟩, ⟨.symbol .comma, ",", 12⟩,
      ⟨.integer, "0", 14⟩, ⟨.symbol .comma, ",", 15⟩, ⟨.integer, "1", 17⟩,
      ⟨.symbol .shiftLeft, "<<", 19⟩, ⟨.symbol .dollar, "$", 22⟩, ⟨.symbol .rightParen, ")", 23⟩,
      ⟨.finish, "", 24⟩], none) := rfl

set_option maxRecDepth 4000 in
theorem parse_shiftUnlessNull :
    (shiftUnlessNull.parse Workspace.empty).1 = .ok shiftUnlessNullTree := by
  unfold parse run
  rw [tokens_shiftUnlessNull]
  rfl

/-- The field that the method reads conforms, and so does zero where the shift is not taken. -/
theorem parse_preserves_picked :
    let point := Value.object 0 pointRecord [Value.int32 3]
    ((picked.parse pickWorkspace).1 = .ok pickedTree ∧
      pickedTree.invoke point .empty = (.ok (Value.int32 7), .empty) ∧
      (Value.int32 7).Conforms pickedTree.ty) ∧
    (shiftUnlessNull.parse Workspace.empty).1 = .ok shiftUnlessNullTree ∧
      shiftUnlessNullTree.invoke .null .empty = (.ok (Value.int32 0), .empty) ∧
      (Value.int32 0).Conforms shiftUnlessNullTree.ty := by
  intro point
  have pick : pickedTree.invoke point .empty = (.ok (Value.int32 7), .empty) := rfl
  have zero : shiftUnlessNullTree.invoke .null .empty = (.ok (Value.int32 0), .empty) := rfl
  refine ⟨⟨parse_picked, pick, ?_⟩, parse_shiftUnlessNull, zero, ?_⟩
  · have element : point.Conforms picked.element :=
      object_conformsIn (.cons (.int .int32 _) .nil)
    refine (parse_preserves parse_picked (pickSchema_trusted False)
      (fun _ => pickSchema_trusted True) ?_ element pick).1 ?_
    · intro p hp
      obtain rfl := List.mem_singleton.1 hp
      exact seven_trusted
    · refine Expr.Shiftless.not_losesNull (.of_parts rfl rfl ?_)
      simp only [pickedTree, Expr.parts, List.forall_mem_cons]
      refine ⟨Expr.shiftless_parameter _ _, .of_parts rfl rfl ?_, List.forall_mem_nil _⟩
      simp only [Expr.parts, List.forall_mem_cons]
      exact ⟨Expr.shiftless_placeholder _ _ _, List.forall_mem_nil _⟩
  · refine (parse_preserves parse_shiftUnlessNull (Schema.trusted_empty False)
      (fun _ => Schema.trusted_empty True) (List.forall_mem_nil _) (.null rfl) zero).1 ?_
    refine Expr.not_losesNull_of_starts rfl fun p inner t starts => ?_
    -- the test gives true, so that the branch with the shift is not begun
    have begun : p.Shiftless := by
      cases starts with
      | first head =>
        cases head
        refine .of_parts rfl rfl ?_
        simp only [Expr.parts, List.forall_mem_cons]
        exact ⟨Expr.shiftless_parameter _ _, Expr.shiftless_literal _ _, List.forall_mem_nil _⟩
      | second head run next =>
        cases head
        cases run
        cases next
        exact Expr.shiftless_literal _ _
    exact begun.not_losesNull

/-- A field of an object that is cast to a record. -/
def fieldOf : Source := ⟨"P($).X", .object, [], true⟩

/-- The record is known by its name, and nothing is declared of it. -/
def pointWorkspace : Workspace :=
  ⟨(Registry.new Schema.empty).register (.record pointRecord), 0⟩

/-- An instance of the record with a text in place of the integer. -/
def malformedPoint : Value := .object 0 pointRecord [.string "a"]

/-- The tree of `fieldOf`. -/
def fieldOfTree : Expr :=
  .member (.convert (.parameter 0 .object) none (.record pointRecord))
    ⟨"X", .int .int32, .field 0⟩

/-- A shift by a number that may be null. -/
def shiftBy : Source := ⟨"1 << $", .nullable (.int .int32), [], true⟩

/-- The tree of `shiftBy`. -/
def shiftByTree : Expr :=
  .binary (.shift .left) (.literal (Value.int32 1) (.int .int32))
    (.parameter 0 (.nullable (.int .int32))) (.int .int32)

set_option maxRecDepth 4000 in
/-- If anything at all conforms to the object type, values are not preserved: a field of a malformed
object has any form.  A shift by null is null, whatever its type. -/
theorem objects_untyped :
    ((fieldOf.parse pointWorkspace).1 = .ok fieldOfTree ∧
      pointWorkspace.registry.schema = Schema.empty ∧
      malformedPoint.ConformsLoosely fieldOf.element ∧
      fieldOfTree.invoke malformedPoint .empty = (.ok (.string "a"), .empty) ∧
      ¬ (Value.string "a").ConformsLoosely fieldOfTree.ty) ∧
    ((shiftBy.parse Workspace.empty).1 = .ok shiftByTree ∧
      Workspace.empty.registry.schema = Schema.empty ∧
      Value.null.ConformsLoosely shiftBy.element ∧
      shiftByTree.invoke .null .empty = (.ok .null, .empty) ∧
      ¬ Value.null.ConformsLoosely shiftByTree.ty) := by
  have text : ¬ (Value.string "a").ConformsLoosely (.int .int32) := nofun
  have null : ¬ Value.null.ConformsLoosely (.int .int32) := by
    rintro (accepts | ⟨-, ⟨⟩⟩)
    cases accepts
  have field : (fieldOf.parse pointWorkspace).1 = .ok fieldOfTree := rfl
  have shift : (shiftBy.parse Workspace.empty).1 = .ok shiftByTree := rfl
  exact ⟨⟨field, rfl, .untyped trivial, rfl, text⟩, ⟨shift, rfl, .null rfl, rfl, null⟩⟩

/-! ## No stuck evaluation -/

section

variable {format : GuidFormat} {source : Source} {w : Workspace} {e : Expr} {v : Value}
  {s s' : Store}

/-- A parameter that is a mere object, computed when it is needed: a truth value. -/
def anything : Parameter := ⟨.object, .deferred (pure (.boolean true))⟩

end

end Source

end TypedExpr
