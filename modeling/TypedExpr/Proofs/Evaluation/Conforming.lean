import TypedExpr.Proofs.Evaluation.Soundness

/-!
# The conforming reading

Values conform to their types, and the errors of operations are not those of a stuck evaluation.

* **`conforming`** — every operation respects this reading, if code from outside is trusted.
-/

namespace TypedExpr

variable {format : GuidFormat} {P : Premises} {lax : Prop}

theorem object_conformsIn {id : Identity} {d : RecordDef} {fields : List Value}
    (h : List.Forall₂ (Value.ConformsIn False lax) fields (d.fields.map Prod.snd)) :
    (Value.object id d fields).ConformsIn False lax (.record d) := by
  refine .object (by simpa using h.length_eq) fun i v f hv hf => ?_
  obtain ⟨w, hw, typed⟩ := Expr.getElem?_of_forall₂ (i := i) (b := f.2) h (by simp [hf])
  obtain rfl := Option.some.inj (hv.symm.trans hw)
  exact typed

/-- **Every operation gives values that conform to their types**, apart from null in place of an
integer after a shift, or fails in another way than a stuck evaluation. -/
theorem conforming (sound : P.sound) (schema : P.schema.Trusted lax)
    (params : ∀ p ∈ P.params, p.Trusted) :
    Reading P lax (Value.ConformsIn False lax) (·.isStuck = false) where
  admits h := (h sound).conformsIn
  unstuck h := h
  nonNullable := Value.ConformsIn.nonNullable
  of_nonNullable := Value.ConformsIn.of_nonNullable
  sequence := Value.ConformsIn.sequence
  object := object_conformsIn
  items m h element := h.meets_itemsFor m element
  itemAt h _ indexed := h.meets_itemAt indexed
  field h hm hk := h.meets_field hm hk
  property h hn hm hk := h.meets_property hn hm hk
  truth h := h.meets_truth
  arithmetic op ha hb ht := (ha.meets_arithmetic op hb ht).mono_error fun _ he => he.2 ▸ rfl
  bitwise op ha hb ht := (ha.meets_bitwise op hb ht).mono_error fun _ => False.elim
  shift op ha hb ht hu hn := ha.meets_shift op hb ht hu hn
  unary op h ht := h.meets_unary op ht
  cast h hc := h.meets_cast hc
  deferred declared given :=
    ((params _ (List.mem_of_getElem? declared)).deferred rfl given).conformsIn
  method := schema.method
  convert declared := schema.conversion (List.mem_of_getElem? declared)
  builtin := Method.ensures_builtin

end TypedExpr
