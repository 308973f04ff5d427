import TypedExpr.Expr.Basic
import TypedExpr.Sequence.Apply
import TypedExpr.Text.Part

/-!
# Evaluation of bound expressions

`Expr.evaluate` gives the value of an expression for a list of frames: the element that the
expression is about, followed by the items of the enclosing lambdas from the outside in.

Parts are evaluated from left to right.  Of a conditional and of the logical operators only the
part that decides is evaluated, and a constant member leaves its target alone.
-/

namespace TypedExpr

/-- The item or the character at a position; only `int64` numbers are positions. -/
def Value.itemAt (container position : Value) : Except EvalError Value :=
  let p : Int := (position.int64?).elim (-1) Word.val
  match container with
  | .null => .error (.nullReference .indexer)
  | .string s =>
    match if p < 0 then none else Text.charAt? s p.toNat with
    | some c => .ok (.string (String.singleton c))
    | none => .error (.indexOutOfRange p s.length)
  | v =>
    let items := v.items?.getD []
    match if p < 0 then none else items[p.toNat]? with
    | some item => .ok item
    | none => .error (.indexOutOfRange p items.length)

/-- The value of a field of an object.  `ty` is the static type of the expression that gave the
value. -/
def Value.fieldAt (ty : Ty) (name : String) (i : Nat) (v : Value) : Except EvalError Value :=
  match v with
  | .object _ d fields =>
    match fields[i]? with
    | some w => .ok w
    | none => .error (.missingField name d.name)
  | .null => .error (.nullReference (.member name))
  | v => .error (.typeMismatch ty.text v.kindName (.member name))

/-- A receiver, which may be null only if its static type says so explicitly. -/
def Value.receiver (ty : Ty) (site : EvalSite) (v : Value) : Except EvalError Value :=
  if v.isNull && !ty.isNullable then .error (.nullReference site) else .ok v

/-- The items of the receiver of a method of sequences. -/
def Value.itemsFor (m : SequenceMethod) (v : Value) : Except EvalError (List Value) :=
  match v.items? with
  | some items => .ok items
  | none =>
    if v.isNull then .error (.nullReference (.call m.name))
    else .error (.typeMismatch "sequence" v.kindName (.call m.name))

namespace Expr

variable [GuidFormat]

/-- The frames of a lambda: those around it, and its item. -/
def innerFrames (frames : List Value) (item : Value) : List Value := frames ++ [item]

mutual

/-- The value of an expression. -/
def evaluate : Expr → List Value → Eval Value
  | .literal v _, _ => return v
  | .parameter depth _, frames =>
    match frames[depth]? with
    | some v => return v
    | none => throw (.noFrame depth)
  | .placeholder _ value _, _ =>
    match value with
    | .constant v => return v
    | .deferred source => source
  | .member target m, frames =>
    match m.kind with
    | .field i => do liftM ((← evaluate target frames).fieldAt target.ty m.name i)
    | .property p => do
      let this ← evaluate target frames
      let this ← liftM (this.receiver target.ty (.member m.name))
      liftM (p.read this)
    | .constant v => return v
  | .call target m args, frames => do
    let this ← evaluate target frames
    let this ← liftM (this.receiver target.ty (.call m.name))
    let values ← evaluateAll args frames
    m.run this values
  | .sequenceCall target m lambda argument ty, frames => do
    let source ← evaluate target frames
    let items ← liftM (source.itemsFor m)
    let f := match lambda with
      | some body => some fun item => evaluate body (innerFrames frames item)
      | none => none
    let value := match argument with
      | some argument => evaluate argument frames
      | none => return .null
    Items.call m items f value ty
  | .binary op left right _, frames =>
    match op with
    | .logical .and => do
      match ← evaluate left frames with
      | .boolean false => return .boolean false
      | _ => evaluate right frames
    | .logical .or => do
      match ← evaluate left frames with
      | .boolean true => return .boolean true
      | _ => evaluate right frames
    | .compare _ => do
      let a ← evaluate left frames
      let b ← evaluate right frames
      return .boolean (a.compareBy op b)
    | .shift _ => do
      let a ← evaluate left frames
      let b ← evaluate right frames
      liftM (a.shift op b)
    | .concat => do
      let a ← evaluate left frames
      let b ← evaluate right frames
      return a.concat b
    | .arithmetic _ | .bitwise _ => do
      let a ← evaluate left frames
      let b ← evaluate right frames
      liftM (Value.combine op a b)
  | .unary op operand, frames => do liftM (Value.applyUnary op (← evaluate operand frames))
  | .conditional test whenTrue whenFalse, frames => do
    match ← evaluate test frames with
    | .boolean true => evaluate whenTrue frames
    | _ => evaluate whenFalse frames
  | .index target position _, frames => do
    let container ← evaluate target frames
    let p ← evaluate position frames
    liftM (container.itemAt p)
  | .convert operand user ty, frames =>
    match user with
    | none => do liftM ((← evaluate operand frames).cast ty)
    | some ⟨d, _, none⟩ => throw (.invalidCast d.name ty.text)
    | some ⟨_, _, some c⟩ => do
      let v ← evaluate operand frames
      if v.isNull then return .null else c.convert v
  | .customCompare op left right order, frames => do
    let a ← evaluate left frames
    let b ← evaluate right frames
    let result ← liftM (Value.compareWith (.compare op) order.order order.reversed a b)
    return .boolean result
  | .new d fields, frames => do
    let values ← evaluateAll fields frames
    Eval.newObject d values

/-- The values of a list of expressions, from left to right. -/
def evaluateAll : List Expr → List Value → Eval (List Value)
  | [], _ => return []
  | e :: es, frames => do
    let v ← evaluate e frames
    let vs ← evaluateAll es frames
    return v :: vs

end

end Expr

end TypedExpr
