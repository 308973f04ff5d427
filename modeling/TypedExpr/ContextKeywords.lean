/-!
# The toggle of the context keywords

Whether `it`, `parent` and `root` stand for frames of the scope.  A guard changes the setting for
a time: releasing it brings back the setting that it found.
-/

namespace TypedExpr

/-- The setting, and what the guards in force found, the newest first. -/
structure ContextKeywords where
  enabled : Bool
  found : List Bool
deriving DecidableEq

namespace ContextKeywords

/-- The context keywords are enabled, and no guard is in force. -/
def initial : ContextKeywords := ⟨true, []⟩

/-- Changes the setting for good. -/
def set (k : ContextKeywords) (enabled : Bool) : ContextKeywords :=
  { k with enabled := enabled }

/-- Changes the setting under a new guard. -/
def guard (k : ContextKeywords) (enabled : Bool) : ContextKeywords :=
  ⟨enabled, k.enabled :: k.found⟩

/-- Releases the newest guard, if one is in force. -/
def release (k : ContextKeywords) : ContextKeywords :=
  match k.found with
  | [] => k
  | previous :: found => ⟨previous, found⟩

/-- A guard that is released leaves no trace, whatever was set under it. -/
theorem release_set_guard (k : ContextKeywords) (enabled again : Bool) :
    ((k.guard enabled).set again).release = k := rfl

end ContextKeywords

end TypedExpr
