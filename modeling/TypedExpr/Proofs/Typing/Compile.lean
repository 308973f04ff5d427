import TypedExpr.Compile
import TypedExpr.Proofs.Typing.Grammar

/-!
# Typing of compiled texts

A text that is read as an expression is a typed tree over the one frame of the element.

* `Source.premises` — what the tree of a text may refer to.
* `Source.WellFormed` — types from outside have null added once.
* **`Source.parse_typed`** — the tree of a text is typed.
-/

namespace TypedExpr

variable {format : GuidFormat}

namespace Source

/-- What the tree of a text may refer to: the records of the workspace, and the parameters. -/
def premises (source : Source) (w : Workspace) (sound strict : Prop) : Premises :=
  ⟨w.registry.schema, source.params, sound, strict⟩

/-- The types from outside are well-formed: those of the element, of the parameters and of the
methods that records declare, and the registered ones. -/
structure WellFormed (source : Source) (w : Workspace) : Prop where
  element : source.element.WellFormed
  params : ∀ p ∈ source.params, p.ty.WellFormed
  schema : w.registry.schema.WellFormed
  named : ∀ p ∈ w.registry.named, p.2.WellFormed

variable {source : Source} {w : Workspace} {sound strict : Prop} {e : Expr}

theorem environment
    (constants : sound → ∀ p ∈ source.params, ∀ v, p.value = .constant v → v.Conforms p.ty)
    (types : strict → source.WellFormed w) :
    (source.premises w sound strict).Environment [source.element] := by
  refine ⟨⟨?_, ?_, ?_⟩, ?_⟩
  · intro h
    exact (types h).schema
  · intro p hp h
    exact (types h).params p hp
  · intro p hp v hv h
    exact constants h p hp v hv
  · intro t ht h
    rw [List.mem_singleton.1 ht]
    exact (types h).element

/-- **The tree of a text is typed** under the type of the element. -/
theorem parse_typed (parsed : (source.parse w).1 = .ok e)
    (constants : sound → ∀ p ∈ source.params, ∀ v, p.value = .constant v → v.Conforms p.ty)
    (types : strict → source.WellFormed w) :
    e.Typed (source.premises w sound strict) [source.element] := by
  unfold parse run at parsed
  split at parsed
  · cases parsed
  next tokens fault _ _ =>
    have keeps : (source.premises w sound strict).Keeps ⟨tokens, w⟩ :=
      ⟨rfl, fun p hp h => (types h).named p hp⟩
    have context : (source.premises w sound strict).Context
        ⟨.ofElement source.element, source.params, source.contextKeywords, fault, tokens.length⟩ :=
      ⟨rfl, Scope.types_ofElement source.element ▸ environment constants types⟩
    have binds := Grammar.whole_binds _ context _ keeps
    exact binds.2.ok e parsed

end Source

end TypedExpr
