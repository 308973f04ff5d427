import TypedExpr.Proofs.Conversion
import TypedExpr.Proofs.Typing.WellFormed

/-!
# Typing of bound expressions

Which trees have the types that their nodes show.  A tree is typed under the types of the frames:
that of the element first, then those of the items of the lambdas around the tree, from the
outside in.

* `Premises` — what the trees of a compilation may refer to.
* `SequenceMethod.Fits` — what a method of sequences is called with.
* `Expr.Typed` — one rule for each form of a node.
* **`Expr.Typed.allows`** — the types of typed trees are well-formed, if those from outside are.
-/

namespace TypedExpr

variable {format : GuidFormat}

/-! ## Premises -/

/-- What the trees of a compilation may refer to, and what is known of it: whether constants
conform to their types, and whether types from outside are well-formed. -/
structure Premises where
  schema : Schema
  params : List Parameter
  sound : Prop
  strict : Prop

namespace Premises

/-- The value may be a constant of the type. -/
def admits (P : Premises) (v : Value) (t : Ty) : Prop := P.sound → v.Conforms t

/-- The type may stand in a tree. -/
def allows (P : Premises) (t : Ty) : Prop := P.strict → t.WellFormed

/-- What is known of the types and constants from outside holds of the schema and of the
parameters. -/
structure Lawful (P : Premises) : Prop where
  schema : P.strict → P.schema.WellFormed
  params : ∀ p ∈ P.params, P.allows p.ty
  constants : ∀ p ∈ P.params, ∀ v, p.value = .constant v → P.admits v p.ty

/-- The premises with the types of the frames, from the outside in. -/
structure Environment (P : Premises) (Γ : List Ty) : Prop where
  lawful : P.Lawful
  frames : ∀ t ∈ Γ, P.allows t

/-- The environment inside a lambda. -/
theorem Environment.push {P : Premises} {Γ : List Ty} {t : Ty} (env : P.Environment Γ)
    (h : P.allows t) : P.Environment (Γ ++ [t]) := by
  refine ⟨env.lawful, ?_⟩
  intro u hu
  rcases List.mem_append.1 hu with hu | hu
  · exact env.frames u hu
  · rw [List.mem_singleton.1 hu]
    exact h

end Premises

/-! ## Operands -/

namespace Ty

/-- The types in which arithmetic is done, null aside. -/
def isArithmetic : Ty → Bool
  | .int t => t.promoted = t
  | .single | .double => true
  | _ => false

/-- The types that the bit operators take, null aside. -/
def isBitwise : Ty → Bool
  | .int t => t.promoted = t
  | .boolean | .enum _ => true
  | _ => false

/-- The types in which integers are shifted, null aside. -/
def isShiftable : Ty → Bool
  | .int t => t.promoted = t
  | _ => false

variable {t : Ty}

theorem nonNullable_lift (plain : t.isNullable = false) (ht : t.acceptsNull = false) (b : Bool) :
    (t.lift b).nonNullable = t := by
  cases b with
  | false => exact nonNullable_of_plain plain
  | true => simp [lift, nullableOf, ht, nonNullable]

theorem nonNullable_lift_of_isNumeric (ht : t.isNumeric = true) (b : Bool) :
    (t.lift b).nonNullable = t := by
  cases t with
  | int _ | single | double => exact nonNullable_lift rfl rfl b
  | _ => cases ht

theorem isNullable_lift_of_isNumeric (ht : t.isNumeric = true) (b : Bool) :
    (t.lift b).isNullable = b := by
  cases t with
  | int _ | single | double => cases b <;> rfl
  | _ => cases ht

@[simp] theorem promoted_promoted (t : Ty) : t.promoted.promoted = t.promoted := by
  cases t with
  | int u => cases u <;> rfl
  | _ => rfl

theorem isNumeric_promoted (ht : t.isNumeric = true) : t.promoted.isNumeric = true := by
  cases t with
  | int u => rfl
  | _ => exact ht

/-- Numbers are computed in types that are not narrow. -/
theorem isArithmetic_promoted (ht : t.isNumeric = true) : t.promoted.isArithmetic = true := by
  cases t with
  | int u => cases u <;> rfl
  | single | double => rfl
  | _ => cases ht

theorem isNumeric_of_isIntegral (ht : t.isIntegral = true) : t.isNumeric = true := by
  cases t with
  | int u => rfl
  | _ => cases ht

theorem isShiftable_promoted (ht : t.isIntegral = true) : t.promoted.isShiftable = true := by
  cases t with
  | int u => cases u <;> rfl
  | _ => cases ht

theorem casts_promoted (ht : t.nonNullable.isNumeric = true) (b : Bool) :
    t.nonNullable.Casts (t.nonNullable.promoted.lift b).nonNullable := by
  have hp := isNumeric_promoted ht
  rw [nonNullable_lift_of_isNumeric hp]
  exact .numeric (isNumericLike_of_isNumeric ht) (isNumericLike_of_isNumeric hp)

end Ty

/-- The types that a unary operator takes, null aside. -/
def UnaryOp.takes : UnaryOp → Ty → Bool
  | .not, .boolean => true
  | .not, .int t => t.promoted = t
  | .negate, .int t => t = .int32 ∨ t = .int64
  | .negate, .single | .negate, .double => true
  | _, _ => false

/-- A method of sequences over items of a type is called with a lambda and an argument of these
types, and its result has that type. -/
structure SequenceMethod.Fits (m : SequenceMethod) (item : Ty) (lambda argument : Option Ty)
    (result : Ty) : Prop where
  accepted : ∀ t ∈ lambda, m.role.accepts t = true
  given : m.argument = .lambda ∨ m.impliesIdentity = true → lambda.isSome = true
  argument : m.argument = .value →
    argument = some (if m = .contains then item else .int .int32)
  summed : m = .sum → lambda = some result
  result : result = m.resultTy item lambda

/-! ## The judgement -/

/-- The tree has the type that it shows, under the types of the frames from the outside in. -/
inductive Expr.Typed [GuidFormat] (P : Premises) : List Ty → Expr → Prop
  | literal {Γ v t} (constant : P.admits v t) (allowed : P.allows t) : Typed P Γ (.literal v t)
  | parameter {Γ depth t} (frame : Γ[depth]? = some t) : Typed P Γ (.parameter depth t)
  | constant {Γ i v t} (number : i < P.params.length) (constant : P.admits v t)
      (allowed : P.allows t) : Typed P Γ (.placeholder i (.constant v) t)
  | deferred {Γ i source t} (declared : P.params[i]? = some ⟨t, .deferred source⟩) :
      Typed P Γ (.placeholder i (.deferred source) t)
  | member {Γ x m} (target : Typed P Γ x) (known : m ∈ MemberTable.membersOf x.ty)
      (dynamic : m.isStatic = false) : Typed P Γ (.member x m)
  | call {Γ x m args} (target : Typed P Γ x)
      (known : m ∈ (MemberTable.of P.schema x.ty).methods) (each : ∀ a ∈ args, Typed P Γ a)
      (types : args.map Expr.ty = m.params) : Typed P Γ (.call x m args)
  | sequenceCall {Γ x m lambda argument t item} (target : Typed P Γ x)
      (element : x.ty.element? = some item)
      (body : ∀ b ∈ lambda, Typed P (Γ ++ [item]) b) (value : ∀ a ∈ argument, Typed P Γ a)
      (fits : m.Fits item (lambda.map Expr.ty) (argument.map Expr.ty) t) :
      Typed P Γ (.sequenceCall x m lambda argument t)
  | arithmetic {Γ op x y t} (left : Typed P Γ x) (right : Typed P Γ y) (leftTy : x.ty = t)
      (rightTy : y.ty = t) (number : t.nonNullable.isArithmetic = true) :
      Typed P Γ (.binary (.arithmetic op) x y t)
  | bitwise {Γ op x y t} (left : Typed P Γ x) (right : Typed P Γ y) (leftTy : x.ty = t)
      (rightTy : y.ty = t) (bits : t.nonNullable.isBitwise = true) :
      Typed P Γ (.binary (.bitwise op) x y t)
  | shift {Γ op x y t} (left : Typed P Γ x) (right : Typed P Γ y) (leftTy : x.ty = t)
      (rightTy : y.ty.nonNullable = .int .int32) (bits : t.nonNullable.isShiftable = true) :
      Typed P Γ (.binary (.shift op) x y t)
  | compare {Γ op x y} (left : Typed P Γ x) (right : Typed P Γ y) (same : x.ty = y.ty)
      (ordered : op.isEquality = true ∨ x.ty.isComparable = true) :
      Typed P Γ (.binary (.compare op) x y .boolean)
  | logical {Γ op x y} (left : Typed P Γ x) (right : Typed P Γ y) (leftTy : x.ty = .boolean)
      (rightTy : y.ty = .boolean) : Typed P Γ (.binary (.logical op) x y .boolean)
  | concat {Γ x y} (left : Typed P Γ x) (right : Typed P Γ y) :
      Typed P Γ (.binary .concat x y .string)
  | unary {Γ op x} (operand : Typed P Γ x) (takes : op.takes x.ty.nonNullable = true) :
      Typed P Γ (.unary op x)
  | conditional {Γ c x y} (test : Typed P Γ c) (whenTrue : Typed P Γ x) (whenFalse : Typed P Γ y)
      (testTy : c.ty = .boolean) (same : x.ty = y.ty) : Typed P Γ (.conditional c x y)
  | index {Γ x p t} (target : Typed P Γ x) (position : Typed P Γ p)
      (positionTy : p.ty = .int .int32)
      (indexed : (x.ty = .string ∧ t = .string) ∨ x.ty.element? = some t) :
      Typed P Γ (.index x p t)
  | convert {Γ x t} (operand : Typed P Γ x) (casts : x.ty.nonNullable.Casts t.nonNullable)
      (allowed : P.allows t) : Typed P Γ (.convert x none t)
  | convertUser {Γ x d i c} (operand : Typed P Γ x)
      (declared : (P.schema.conversions d)[i]? = some c) (source : c.source = x.ty)
      (allowed : P.allows (.record d)) :
      Typed P Γ (.convert x (some ⟨d, i, some c⟩) (.record d))
  | customCompare {Γ op x y order} (left : Typed P Γ x) (right : Typed P Γ y)
      (declared : P.schema.findComparison? x.ty y.ty = some order) :
      Typed P Γ (.customCompare op x y order)
  | new {Γ d fields} (each : ∀ f ∈ fields, Typed P Γ f)
      (types : fields.map Expr.ty = d.fields.map Prod.snd) : Typed P Γ (.new d fields)

namespace Expr.Typed

variable {P : Premises} {Γ : List Ty} {e : Expr}

/-- **The types of typed trees may stand in trees**, if those from outside may. -/
theorem allows (env : P.Environment Γ) (h : e.Typed P Γ) : P.allows e.ty := by
  intro strict
  induction h with
  | literal _ allowed | constant _ _ allowed | convert _ _ allowed | convertUser _ _ _ allowed =>
    exact allowed strict
  | parameter frame => exact env.frames _ (List.mem_of_getElem? frame) strict
  | deferred declared => exact env.lawful.params _ (List.mem_of_getElem? declared) strict
  | member _ known _ ih => exact (ih env).member known
  | call _ known _ _ ih => exact ((ih env).method (env.lawful.schema strict) known).1
  | @sequenceCall Γ x m lambda argument t item _ element _ _ fits ih body _ =>
    have hi : item.WellFormed := (ih env).element element
    rw [Expr.ty, fits.result]
    refine hi.resultTy m fun u hu => ?_
    obtain ⟨b, hb, rfl⟩ := Option.map_eq_some_iff.1 hu
    exact body b hb (env.push fun _ => hi)
  | arithmetic _ _ leftTy _ _ ih | bitwise _ _ leftTy _ _ ih | shift _ _ leftTy _ _ ih =>
    exact leftTy ▸ ih env
  | compare | logical | customCompare => exact Ty.wellFormed_boolean
  | concat => exact Ty.wellFormed_string
  | unary _ _ ih => exact ih env
  | conditional _ _ _ _ _ _ ih => exact ih env
  | index _ _ _ indexed ih =>
    rcases indexed with ⟨-, rfl⟩ | element
    · exact Ty.wellFormed_string
    · exact (ih env).element element
  | @new Γ d fields _ types ih =>
    refine Ty.wellFormed_record fun f hf => ?_
    have hm : f.2 ∈ fields.map Expr.ty := types ▸ List.mem_map_of_mem hf
    obtain ⟨x, hx, ht⟩ := List.mem_map.1 hm
    exact ht ▸ ih x hx env

end Expr.Typed

end TypedExpr
