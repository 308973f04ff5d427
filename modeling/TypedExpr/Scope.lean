import TypedExpr.Expr.Basic

/-!
# Scopes

The frames that are visible at a place of an expression: the element that the whole expression is
about, and the items of the lambdas around the place.  A frame may have a name.

* `Scope.current`, `Scope.parent?`, `Scope.root` — the innermost frame, the one around it, and
  the outermost.
* `Scope.resolve?` — the innermost frame of a name.
-/

namespace TypedExpr

/-- A frame: the type of its item, and its name. -/
structure Frame where
  ty : Ty
  alias? : Option String
deriving DecidableEq

/-- The outermost frame, and the inner ones from the inside out. -/
structure Scope where
  base : Frame
  inner : List Frame
deriving DecidableEq

namespace Scope

/-- The scope of a whole expression. -/
def ofElement (element : Ty) : Scope := ⟨⟨element, none⟩, []⟩

/-- The scope inside a lambda. -/
def push (s : Scope) (ty : Ty) (alias? : Option String) : Scope :=
  { s with inner := ⟨ty, alias?⟩ :: s.inner }

/-- The innermost frame and the scope around it; the outermost frame stays. -/
def pop? (s : Scope) : Option (Frame × Scope) :=
  match s.inner with
  | [] => none
  | f :: rest => some (f, { s with inner := rest })

/-- The number of frames. -/
def depth (s : Scope) : Nat := s.inner.length + 1

/-- All frames from the inside out. -/
def frames (s : Scope) : List Frame := s.inner ++ [s.base]

/-- The innermost frame. -/
def top (s : Scope) : Frame := s.inner.headD s.base

/-- A reference to the innermost frame. -/
def current (s : Scope) : Expr := .parameter (s.depth - 1) s.top.ty

/-- A reference to the frame around the innermost one. -/
def parent? (s : Scope) : Option Expr :=
  match s.inner with
  | [] => none
  | _ :: rest => some (.parameter rest.length (rest.headD s.base).ty)

/-- A reference to the outermost frame. -/
def root (s : Scope) : Expr := .parameter 0 s.base.ty

/-- The name of the frame at a depth, counted from the outside. -/
def alias? (s : Scope) (depth : Nat) : Option String :=
  (s.frames.reverse[depth]?).bind Frame.alias?

/-- A reference to the innermost of some frames that has a name. -/
def resolveIn? (name : String) : List Frame → Option Expr
  | [] => none
  | f :: rest =>
    if f.alias? = some name then some (.parameter rest.length f.ty) else resolveIn? name rest

/-- A reference to the innermost frame of a name. -/
def resolve? (s : Scope) (name : String) : Option Expr :=
  resolveIn? name s.frames

end Scope

end TypedExpr
