import TypedExpr.Proofs.Evaluation.Occurrence
import TypedExpr.Proofs.Typing.Compile

/-!
# Consistent annotations

The types that the nodes of a tree show fit together: the rules of binding bring operands to one
type before they are put under an operator, and an evaluation relies on it.

* `Expr.Consistent` — what a node asks of its type and of the types of its parts.
* `Expr.annotations` — the types that a node shows.
* **`Source.parse_consistent`** — the tree of a text is consistent everywhere, and shows types in
  which null is added once.
-/

namespace TypedExpr

/-- The integral types that operators are applied in; narrower numbers are promoted first. -/
def IntType.operative : List IntType := [.int32, .int64, .uint32, .uint64]

theorem IntType.mem_operative {t : IntType} (h : t.promoted = t) : t ∈ operative := by
  cases t with
  | int32 | int64 | uint32 | uint64 => simp [operative]
  | int8 | int16 | uint8 | uint16 => cases h

namespace Ty

/-- One of the integral types that operators are applied in. -/
def IsOperative (t : Ty) : Prop := ∃ u ∈ IntType.operative, t = .int u

variable {t : Ty}

theorem isOperative_of_isShiftable (h : t.isShiftable = true) : t.IsOperative := by
  cases t with
  | int u => exact ⟨u, IntType.mem_operative (by simpa [isShiftable] using h), rfl⟩
  | _ => cases h

theorem operative_of_isArithmetic (h : t.isArithmetic = true) :
    t.IsOperative ∨ t = .single ∨ t = .double := by
  cases t with
  | int u => exact Or.inl (isOperative_of_isShiftable h)
  | single | double => simp
  | _ => cases h

theorem operative_of_isBitwise (h : t.isBitwise = true) :
    t.IsOperative ∨ t = .boolean ∨ ∃ d, t = .enum d := by
  cases t with
  | int u => exact Or.inl (isOperative_of_isShiftable h)
  | boolean | enum => simp
  | _ => cases h

end Ty

namespace Expr

variable {format : GuidFormat}

/-! ## Nodes -/

/-- What a node of a tree over so many parameters asks of its type and of the types of its parts.
Types are meant with or without null, where their null is set aside. -/
def Consistent (params : Nat) : Expr → Prop
  | placeholder i _ _ => i < params
  | binary (.arithmetic _) x y t =>
    x.ty = t ∧ y.ty = t ∧
      (t.nonNullable.IsOperative ∨ t.nonNullable = .single ∨ t.nonNullable = .double)
  | binary (.bitwise _) x y t =>
    x.ty = t ∧ y.ty = t ∧
      (t.nonNullable.IsOperative ∨ t.nonNullable = .boolean ∨ ∃ d, t.nonNullable = .enum d)
  | binary (.shift _) x y t =>
    x.ty = t ∧ t.nonNullable.IsOperative ∧ y.ty.nonNullable = .int .int32
  | binary (.compare op) x y t =>
    x.ty = y.ty ∧ t = .boolean ∧ (op.isEquality = true ∨ x.ty.isComparable = true)
  | binary (.logical _) x y t => x.ty = .boolean ∧ y.ty = .boolean ∧ t = .boolean
  | unary op x => (unary op x).ty = x.ty ∧ op.takes x.ty.nonNullable = true
  | conditional c x y =>
    c.ty = .boolean ∧ (conditional c x y).ty = x.ty ∧ (conditional c x y).ty = y.ty
  | sequenceCall _ m (some body) _ t =>
    (m.role = .predicate → body.ty = .boolean) ∧ (m = .sum → body.ty = t)
  | _ => True

/-- The types that a node shows: its own, those of the parameters of a method that it calls, and
those that a declared conversion leads from and to. -/
def annotations : Expr → List Ty
  | call _ m _ => m.result :: m.params
  | convert _ (some ⟨d, _, some c⟩) t => [t, .record d, c.source]
  | convert _ (some ⟨d, _, none⟩) t => [t, .record d]
  | e => [e.ty]

variable {P : Premises} {Γ : List Ty} {e : Expr}

/-- The node of a typed tree is consistent. -/
theorem Typed.consistent (h : e.Typed P Γ) : e.Consistent P.params.length := by
  cases h with
  | constant number => exact number
  | deferred declared => exact (List.getElem?_eq_some_iff.1 declared).1
  | @sequenceCall _ _ m lambda _ _ _ _ _ _ _ fits =>
    cases lambda with
    | none => trivial
    | some body =>
      have accepted : m.role.accepts body.ty = true := fits.accepted body.ty rfl
      refine ⟨?_, ?_⟩
      · intro role
        simpa [role, LambdaRole.accepts] using accepted
      · intro sum
        simpa using fits.summed sum
  | arithmetic _ _ leftTy rightTy number =>
    exact ⟨leftTy, rightTy, Ty.operative_of_isArithmetic number⟩
  | bitwise _ _ leftTy rightTy bits => exact ⟨leftTy, rightTy, Ty.operative_of_isBitwise bits⟩
  | shift _ _ leftTy rightTy bits => exact ⟨leftTy, Ty.isOperative_of_isShiftable bits, rightTy⟩
  | compare _ _ same ordered => exact ⟨same, rfl, ordered⟩
  | logical _ _ leftTy rightTy => exact ⟨leftTy, rightTy, rfl⟩
  | unary _ takes => exact ⟨rfl, takes⟩
  | conditional _ _ _ testTy same => exact ⟨testTy, rfl, same⟩
  | _ => trivial

/-- The types that a node of a typed tree shows may stand in trees, if those from outside may. -/
theorem Typed.allows_annotations (env : P.Environment Γ) (h : e.Typed P Γ) :
    ∀ t ∈ e.annotations, P.allows t := by
  have own : P.allows e.ty := h.allows env
  cases h with
  | call target known =>
    intro t ht strict
    have method := ((target.allows env) strict).method (env.lawful.schema strict) known
    rcases List.mem_cons.1 ht with rfl | ht
    · exact method.1
    · exact method.2 t ht
  | convertUser operand _ source allowed =>
    have converted : P.allows _ := source ▸ operand.allows env
    simpa [annotations, allowed] using converted
  | _ => simpa [annotations] using own

end Expr

namespace Source

section

variable {format : GuidFormat} {source : Source} {w : Workspace} {e : Expr}

/-! ## Trees of texts -/

/-- **The annotations of the tree of a text are consistent.**  This holds at every place, under any
lambdas.  If types from outside have null added once, so have the types that the places show. -/
theorem parse_consistent (parsed : (source.parse w).1 = .ok e) (receivers : List Expr) (sub : Expr)
    (ho : e.Occurs receivers sub) :
    sub.Consistent source.params.length ∧
      (source.WellFormed w → ∀ t ∈ sub.annotations, t.WellFormed) := by
  refine ⟨?_, ?_⟩
  · have typed : e.Typed (source.premises w False False) [source.element] :=
      parse_typed parsed nofun nofun
    obtain ⟨items, -, typed⟩ := typed.occurs ho
    exact typed.consistent
  · intro types t ht
    have env : (source.premises w False True).Environment [source.element] :=
      environment nofun fun _ => types
    have typed : e.Typed (source.premises w False True) [source.element] :=
      parse_typed parsed nofun fun _ => types
    obtain ⟨Δ, inner, typed⟩ := typed.environment_of_occurs env ho
    exact typed.allows_annotations inner t ht trivial

/-- A sum of multiples of narrow numbers that may be null. -/
def sumOfTriples : Source := ⟨"$.Sum($ * 3)", .sequence (.nullable (.int .uint8)), [], true⟩

/-- The body of the lambda of `sumOfTriples`. -/
def triple : Expr :=
  .binary (.arithmetic .mul)
    (.convert (.parameter 1 (.nullable (.int .uint8))) none (.nullable (.int .int32)))
    (.literal (Value.int32 3) (.nullable (.int .int32))) (.nullable (.int .int32))

/-- The tree of `sumOfTriples`. -/
def sumOfTriplesTree : Expr :=
  .sequenceCall (.parameter 0 (.sequence (.nullable (.int .uint8)))) .sum (some triple) none
    (.nullable (.int .int32))

end

theorem sumOfTriples_wellFormed : sumOfTriples.WellFormed Workspace.empty := by
  have byte : (Ty.int .uint8).nullableOf.WellFormed := (Ty.wellFormed_int .uint8).nullableOf
  exact ⟨byte.sequence, nofun, nofun, nofun⟩

set_option maxRecDepth 4000 in
/-- Both factors under a lambda are brought to the type of the product. -/
theorem parse_consistent_triples :
    (sumOfTriples.parse Workspace.empty).1 = .ok sumOfTriplesTree ∧
      sumOfTriples.WellFormed Workspace.empty ∧
      triple.Consistent 0 ∧ ∀ t ∈ triple.annotations, t.WellFormed := by
  have parsed : (sumOfTriples.parse Workspace.empty).1 = .ok sumOfTriplesTree := rfl
  have inside : sumOfTriplesTree.Occurs [.parameter 0 (.sequence (.nullable (.int .uint8)))]
      triple := .body rfl (.refl _)
  obtain ⟨consistent, annotations⟩ := parse_consistent parsed _ _ inside
  exact ⟨parsed, sumOfTriples_wellFormed, consistent, annotations sumOfTriples_wellFormed⟩

end Source

end TypedExpr
