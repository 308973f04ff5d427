import TypedExpr.EvalError
import TypedExpr.Value.Basic

/-!
# Evaluation

`Eval` is what an evaluation may do besides giving a value: it may fail, it may build objects and
sequences, which need identities of their own, and it may read from a source that gives another
value each time.  The `Store` remembers how far identities are used up and how often each source
was read; it survives a failure.

* `Eval.newSequence`, `Eval.newObject` — values with a fresh identity.
* `Eval.readCycle` — the next value of a source that repeats a list.
-/

namespace TypedExpr

/-- What outlives a single evaluation. -/
structure Store where
  fresh : Identity
  reads : Array Nat

namespace Store

/-- Nothing built and nothing read. -/
def empty : Store := ⟨0, #[]⟩

/-- A store with one more source, and the number of that source. -/
def addSource (s : Store) : Nat × Store :=
  (s.reads.size, { s with reads := s.reads.push 0 })

end Store

/-- A computation that may fail and that works on the store. -/
abbrev Eval := ExceptT EvalError (StateM Store)

namespace Eval

/-- An identity that no value has yet. -/
def newIdentity : Eval Identity := do
  let s ← get
  set { s with fresh := s.fresh + 1 }
  return s.fresh

/-- A new sequence. -/
def newSequence (items : List Value) : Eval Value :=
  return .sequence (← newIdentity) items

/-- A new object. -/
def newObject (d : RecordDef) (fields : List Value) : Eval Value :=
  return .object (← newIdentity) d fields

/-- How often a source was read before this time. -/
def countRead (source : Nat) : Eval Nat := do
  let s ← get
  set { s with reads := s.reads.modify source (· + 1) }
  return s.reads[source]?.getD 0

/-- The next value of a source that repeats a list; without values it is null. -/
def readCycle (source : Nat) (values : List Value) : Eval Value := do
  let n ← countRead source
  return values[n % values.length]?.getD .null

end Eval

end TypedExpr
