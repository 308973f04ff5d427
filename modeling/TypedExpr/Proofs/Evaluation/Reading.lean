import Mathlib.Data.List.Forall2
import TypedExpr.Expr.Evaluate
import TypedExpr.Proofs.Ensures
import TypedExpr.Proofs.Typing.Judgement

/-!
# Readings of types

What a type may say about the values of an evaluation, and which errors are expected.  A reading is
a relation between values and types together with a set of errors, such that every single operation
on values of the right types gives a value of its type or fails as expected.  What holds of whole
evaluations is derived from a reading once, for all of them.

* `Reading` — the operations, each with its rule.
* `Reading.receiver`, `Reading.defaultOf`, … — what follows for simple operations.
-/

namespace TypedExpr

variable {format : GuidFormat}

/-- A relation between values and types, and a set of errors, that the operations of an evaluation
respect.  A shift by null has to respect it where its type has null, and elsewhere if `lax`
holds. -/
structure Reading [GuidFormat] (P : Premises) (lax : Prop) (V : Value → Ty → Prop)
    (H : EvalError → Prop) : Prop where
  /-- Constants have their types. -/
  admits : ∀ {v t}, P.admits v t → V v t
  /-- Errors that are not those of a stuck evaluation are expected. -/
  unstuck : ∀ {e}, e.isStuck = false → H e
  /-- An explicit null only adds null to a type. -/
  nonNullable : ∀ {v t}, V v t → v.isNull = false → V v t.nonNullable
  of_nonNullable : ∀ {v t}, V v t.nonNullable → V v t
  /-- Values that are put together have the types of their parts. -/
  sequence : ∀ {id items t}, (∀ v ∈ items, V v t) → V (.sequence id items) (.sequence t)
  object : ∀ {id d fields}, List.Forall₂ V fields (d.fields.map Prod.snd) →
    V (.object id d fields) (.record d)
  /-- Values are taken apart. -/
  items : ∀ {v t u} (m : SequenceMethod), V v t → t.element? = some u →
    Meets (v.itemsFor m) (fun items => ∀ w ∈ items, V w u) H
  itemAt : ∀ {v p t u}, V v t → V p (.int .int32) →
    (t = .string ∧ u = .string) ∨ t.element? = some u → Meets (v.itemAt p) (V · u) H
  field : ∀ {v t m i}, V v t → m ∈ MemberTable.membersOf t → m.kind = .field i →
    Meets (v.fieldAt t m.name i) (V · m.ty) H
  property : ∀ {v t m p}, V v t → (v.isNull = true → t.isNullable = true) →
    m ∈ MemberTable.membersOf t → m.kind = .property p → Meets (p.read v) (V · m.ty) H
  /-- Truth values. -/
  truth : ∀ {v}, V v .boolean → Meets (Items.truth v) (fun _ => True) H
  /-- Operators. -/
  arithmetic : ∀ {a b t} (op : ArithmeticOp), V a t → V b t → t.nonNullable.isArithmetic = true →
    Meets (Value.combine (.arithmetic op) a b) (V · t) H
  bitwise : ∀ {a b t} (op : BitwiseOp), V a t → V b t → t.nonNullable.isBitwise = true →
    Meets (Value.combine (.bitwise op) a b) (V · t) H
  shift : ∀ {a b t u} (op : ShiftOp), V a t → V b u → t.nonNullable.isShiftable = true →
    u.nonNullable = .int .int32 → (b.isNull = true → t.isNullable = true ∨ lax) →
    Meets (a.shift (.shift op) b) (V · t) H
  unary : ∀ {v t} (op : UnaryOp), V v t → op.takes t.nonNullable = true →
    Meets (Value.applyUnary op v) (V · t) H
  /-- Conversions.  Only a mere object may be refused. -/
  cast : ∀ {v a t}, V v a → a.nonNullable.Casts t.nonNullable →
    Meets (v.cast t) (V · t) (fun e => H e ∨ a.nonNullable = .object)
  /-- The values that code from outside gives; its errors are its own. -/
  deferred : ∀ {i : Nat} {t : Ty} {source : Eval Value} {s v s'},
    P.params[i]? = some ⟨t, .deferred source⟩ → source s = (.ok v, s') → V v t
  method : ∀ {d m this args s v s'}, m ∈ P.schema.methods d → V this (.record d) →
    this.isNull = false → List.Forall₂ V args m.params → m.run this args s = (.ok v, s') →
    V v m.result
  convert : ∀ {d v s w s'} {i : Nat} {c : Conversion}, (P.schema.conversions d)[i]? = some c →
    V v c.source → v.isNull = false → c.convert v s = (.ok w, s') → V w (.record d)
  /-- Methods that are not declared. -/
  builtin : ∀ {t m this args}, m ∈ (MemberTable.of P.schema t).methods →
    (∀ d, t = .record d → m ∉ P.schema.methods d) → V this t →
    Ensures (fun _ => True) (m.run this args) (V · m.result) H

namespace Reading

variable {P : Premises} {lax : Prop} {V : Value → Ty → Prop} {H : EvalError → Prop}

theorem boolean (R : Reading P lax V H) (b : Bool) : V (.boolean b) .boolean :=
  R.admits fun _ => .boolean b

theorem int32 (R : Reading P lax V H) (n : Int) : V (Value.int32 n) (.int .int32) :=
  R.admits fun _ => .int .int32 _

theorem string (R : Reading P lax V H) (s : String) : V (.string s) .string :=
  R.admits fun _ => .string s

theorem null (R : Reading P lax V H) {t : Ty} (accepts : t.acceptsNull = true) : V .null t :=
  R.admits fun _ => .null accepts

theorem defaultOf (R : Reading P lax V H) (t : Ty) : V (Value.defaultOf t) t :=
  R.admits fun _ => Value.defaultOf_conformsIn t

/-- A receiver is null only if its type says so. -/
theorem receiver (R : Reading P lax V H) (v : Value) (t : Ty) (site : EvalSite) :
    Meets (v.receiver t site)
      (fun w => w = v ∧ (w.isNull = true → t.isNullable = true)) H := by
  unfold Value.receiver
  split
  next => exact meets_error.2 (R.unstuck rfl)
  next h =>
    refine meets_ok.2 ⟨rfl, ?_⟩
    intro hn
    simpa [hn] using h

end Reading

end TypedExpr
