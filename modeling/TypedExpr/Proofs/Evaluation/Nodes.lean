import TypedExpr.Proofs.Evaluation.Items
import TypedExpr.Proofs.Evaluation.Native

/-!
# Evaluation of nodes

Where the parts that are evaluated give values of their types, the node gives a value of its own,
whatever the reading.  There is one rule for each kind of node; it asks for a part only where the
evaluation of the node begins that of the part.

* `Expr.Evaluates` — a tree evaluates to a value of its type, or fails as expected.
* `Expr.Supplies` — the node begins the evaluation of a part only where the part does so.
* `Expr.Evaluates.member`, `Expr.Evaluates.sequenceCall`, … — the rules.
-/

namespace TypedExpr

variable {format : GuidFormat}

namespace Expr

/-- With these frames and from this store, the tree evaluates to a value of its type, or fails as
expected. -/
abbrev Evaluates [GuidFormat] (V : Value → Ty → Prop) (E : EvalError → Store → Prop) (e : Expr)
    (frames : List Value) (s : Store) : Prop :=
  EnsuresAt s (e.evaluate frames) (V · e.ty) E

/-- Whenever the evaluation of the node begins that of the part, with the same frames, the part
evaluates to a value of its type or fails as expected. -/
abbrev Supplies [GuidFormat] (V : Value → Ty → Prop) (E : EvalError → Store → Prop) (e : Expr)
    (frames : List Value) (s : Store) (p : Expr) : Prop :=
  ∀ t, e.Starts frames s p frames t → p.Evaluates V E frames t

variable {P : Premises} {lax : Prop} {V : Value → Ty → Prop} {H : EvalError → Prop}
  {E : EvalError → Store → Prop} {c x y : Expr} {t : Ty} {frames : List Value} {s : Store}

/-! ## Lists of parts -/

theorem evaluateAll_ensures : ∀ {es : List Expr} {s : Store},
    (∀ before e behind vs t, es = before ++ e :: behind →
      evaluateAll before frames s = (.ok vs, t) → e.Evaluates V E frames t) →
    EnsuresAt s (evaluateAll es frames) (fun vs => List.Forall₂ V vs (es.map Expr.ty)) E
  | [], _, _ => .pure .nil
  | e :: es, s, h => by
    refine (h [] e es [] s rfl rfl).bind fun v t run hv => ?_
    refine (evaluateAll_ensures ?_).bind fun vs _ _ hvs => .pure (.cons hv hvs)
    intro before a behind vs u split runs
    refine h (e :: before) a behind (v :: vs) u (congrArg (e :: ·) split) ?_
    exact (bind_of_ok run _).trans (bind_of_ok runs _)

theorem getElem?_of_forall₂ {α β : Type} {R : α → β → Prop} {as : List α} {bs : List β} {i : Nat}
    {b : β} (h : List.Forall₂ R as bs) (hb : bs[i]? = some b) : ∃ a, as[i]? = some a ∧ R a b := by
  induction h generalizing i with
  | nil => cases hb
  | cons hab _ ih =>
    cases i with
    | zero =>
      cases hb
      exact ⟨_, rfl, hab⟩
    | succ i => exact ih hb

namespace Evaluates

/-- An operation on values fails as expected. -/
theorem lift {α : Type} {r : Except EvalError α} {Q : α → Prop} (hE : ∀ e s, H e → E e s)
    (h : Meets r Q H) : EnsuresAt s (liftM r : Eval α) Q E :=
  .lift (h.mono_error fun e => hE e s)

/-! ## Members and calls -/

theorem member {m : Member} (R : Reading P lax V H) (hE : ∀ e s, H e → E e s)
    (known : m ∈ MemberTable.membersOf x.ty) (dynamic : m.isStatic = false)
    (target : (Expr.member x m).Supplies V E frames s x) :
    (Expr.member x m).Evaluates V E frames s := by
  have begins : x.Evaluates V E frames s := target s (.first (by simp [first?, dynamic]))
  obtain ⟨name, ty, kind⟩ := m
  cases kind with
  | field i =>
    show EnsuresAt s (do liftM ((← x.evaluate frames).fieldAt x.ty name i)) _ _
    exact begins.bind fun v _ _ hv => lift hE (R.field hv known rfl)
  | property p =>
    show EnsuresAt s (do
      let this ← x.evaluate frames
      let this ← liftM (this.receiver x.ty (.member name))
      liftM (p.read this)) _ _
    refine begins.bind fun v _ _ hv => ?_
    refine (lift hE (R.receiver v x.ty _)).bind fun w _ _ received => ?_
    obtain ⟨hw, hn⟩ := received
    exact lift hE (R.property (hw ▸ hv) hn known rfl)
  | constant v => cases dynamic

/-- Only the errors of declared methods come from outside. -/
theorem call {m : Method} {args : List Expr} (R : Reading P lax V H) (hE : ∀ e s, H e → E e s)
    (known : m ∈ (MemberTable.of P.schema x.ty).methods) (types : args.map Expr.ty = m.params)
    (target : (Expr.call x m args).Supplies V E frames s x)
    (each : ∀ a ∈ args, (Expr.call x m args).Supplies V E frames s a)
    (native : ∀ err s', (Expr.call x m args).FailsOutside P.schema frames s err s' → E err s') :
    (Expr.call x m args).Evaluates V E frames s := by
  show EnsuresAt s (do
    let this ← x.evaluate frames
    let this ← liftM (this.receiver x.ty (.call m.name))
    let values ← evaluateAll args frames
    m.run this values) _ _
  refine (target s (.first rfl)).bind fun v t run hv => ?_
  refine .bind_lift ((R.receiver v x.ty _).mono_error fun e => hE e t) fun w received same => ?_
  obtain ⟨hw, hn⟩ := same
  have hv : V w x.ty := hw ▸ hv
  refine (evaluateAll_ensures (V := V) ?_).bind fun vs u runs hvs => ?_
  · intro before a behind vs u split runs
    subst split
    exact each a (by simp) u (.argument run received runs)
  · rw [types] at hvs
    rcases m.declared_or_builtin P.schema x.ty with ⟨d, record, declared⟩ | builtin
    · have given : w.isNull = false := by
        rw [record] at hn
        simpa [Ty.isNullable] using hn
      rw [record] at hv
      refine .of_run (fun r _ returned => R.method declared hv given hvs returned) ?_
      exact fun err s' failed => native err s' (.method record declared run received runs failed)
    · exact .of_ensures (R.builtin known builtin hv) hE

/-- The body of a lambda is evaluated for items of the value that the receiver evaluated to. -/
theorem sequenceCall {m : SequenceMethod} {lambda argument : Option Expr} {item : Ty}
    (R : Reading P lax V H) (hE : ∀ e s, H e → E e s) (element : x.ty.element? = some item)
    (fits : m.Fits item (lambda.map Expr.ty) (argument.map Expr.ty) t)
    (target : (Expr.sequenceCall x m lambda argument t).Supplies V E frames s x)
    (body : ∀ b ∈ lambda, ∀ i u, V i item →
      (Expr.sequenceCall x m lambda argument t).Starts frames s b (innerFrames frames i) u →
      b.Evaluates V E (innerFrames frames i) u)
    (value : ∀ a ∈ argument, (Expr.sequenceCall x m lambda argument t).Supplies V E frames s a) :
    (Expr.sequenceCall x m lambda argument t).Evaluates V E frames s := by
  have begins : x.Evaluates V E frames s := target s (.first rfl)
  unfold Evaluates Expr.evaluate
  refine begins.bind fun source u run hv => ?_
  refine .bind_lift ((R.items m hv element).mono_error fun e => hE e u) fun items listed hi => ?_
  refine Items.call_ensures R hE fits hi ?_ ?_
  · cases lambda with
    | none => exact .none
    | some b =>
      refine .some fun i u' applied => ?_
      have typed : V i item := hi i (SequenceMethod.mem_of_mem_visited applied.mem)
      exact body b rfl i u' typed (.body run listed applied)
  · intro plain
    cases argument with
    | none =>
      intro a ha
      cases ha
    | some a =>
      intro _ ha
      cases ha
      exact value a rfl u (.plain run listed plain)

theorem index {p : Expr} (R : Reading P lax V H) (hE : ∀ e s, H e → E e s)
    (positionTy : p.ty = .int .int32)
    (indexed : (x.ty = .string ∧ t = .string) ∨ x.ty.element? = some t)
    (target : (Expr.index x p t).Supplies V E frames s x)
    (position : (Expr.index x p t).Supplies V E frames s p) :
    (Expr.index x p t).Evaluates V E frames s := by
  show EnsuresAt s (do
    let container ← x.evaluate frames
    let p ← p.evaluate frames
    liftM (container.itemAt p)) _ _
  refine (target s (.first rfl)).bind fun v u run hv => ?_
  refine (position u (.second rfl run rfl)).bind fun i _ _ hi => ?_
  rw [positionTy] at hi
  exact lift hE (R.itemAt hv hi indexed)

/-! ## Operators -/

/-- Both operands of an operator that is not logical are evaluated, the left one first. -/
theorem operands {α : Type} {op : BinaryOp} {k : Value → Value → Eval α} {Q : α → Prop}
    (plain : ∀ v, op.decidedBy v = false)
    (left : (Expr.binary op x y t).Supplies V E frames s x)
    (right : (Expr.binary op x y t).Supplies V E frames s y)
    (combined : ∀ a b u u', x.evaluate frames s = (.ok a, u) → y.evaluate frames u = (.ok b, u') →
      V a x.ty → V b y.ty → EnsuresAt u' (k a b) Q E) :
    EnsuresAt s (do
      let a ← x.evaluate frames
      let b ← y.evaluate frames
      k a b) Q E := by
  refine (left s (.first rfl)).bind fun a u runA ha => ?_
  have starts : (Expr.binary op x y t).Starts frames s y frames u :=
    .second rfl runA (by simp [second?, plain])
  exact (right u starts).bind fun b u' runB hb => combined a b u u' runA runB ha hb

theorem arithmetic {op : ArithmeticOp} (R : Reading P lax V H) (hE : ∀ e s, H e → E e s)
    (leftTy : x.ty = t) (rightTy : y.ty = t) (number : t.nonNullable.isArithmetic = true)
    (left : (Expr.binary (.arithmetic op) x y t).Supplies V E frames s x)
    (right : (Expr.binary (.arithmetic op) x y t).Supplies V E frames s y) :
    (Expr.binary (.arithmetic op) x y t).Evaluates V E frames s := by
  refine operands (fun _ => rfl) left right fun a b _ _ _ _ ha hb => ?_
  exact lift hE (R.arithmetic op (leftTy ▸ ha) (rightTy ▸ hb) number)

theorem bitwise {op : BitwiseOp} (R : Reading P lax V H) (hE : ∀ e s, H e → E e s)
    (leftTy : x.ty = t) (rightTy : y.ty = t) (bits : t.nonNullable.isBitwise = true)
    (left : (Expr.binary (.bitwise op) x y t).Supplies V E frames s x)
    (right : (Expr.binary (.bitwise op) x y t).Supplies V E frames s y) :
    (Expr.binary (.bitwise op) x y t).Evaluates V E frames s := by
  refine operands (fun _ => rfl) left right fun a b _ _ _ _ ha hb => ?_
  exact lift hE (R.bitwise op (leftTy ▸ ha) (rightTy ▸ hb) bits)

/-- Where the count of a shift is null, the reading has to foresee it. -/
theorem shift {op : ShiftOp} (R : Reading P lax V H) (hE : ∀ e s, H e → E e s)
    (leftTy : x.ty = t) (rightTy : y.ty.nonNullable = .int .int32)
    (bits : t.nonNullable.isShiftable = true)
    (left : (Expr.binary (.shift op) x y t).Supplies V E frames s x)
    (right : (Expr.binary (.shift op) x y t).Supplies V E frames s y)
    (foreseen : ∀ v u u', x.evaluate frames s = (.ok v, u) →
      y.evaluate frames u = (.ok .null, u') → t.isNullable = true ∨ lax) :
    (Expr.binary (.shift op) x y t).Evaluates V E frames s := by
  refine operands (fun _ => rfl) left right fun a b u u' runA runB ha hb => ?_
  refine lift hE (R.shift op (leftTy ▸ ha) hb bits rightTy ?_)
  intro hn
  rw [Value.isNull_iff.1 hn] at runB
  exact foreseen a u u' runA runB

theorem compare {op : CompareOp} (R : Reading P lax V H)
    (left : (Expr.binary (.compare op) x y .boolean).Supplies V E frames s x)
    (right : (Expr.binary (.compare op) x y .boolean).Supplies V E frames s y) :
    (Expr.binary (.compare op) x y .boolean).Evaluates V E frames s :=
  operands (fun _ => rfl) left right fun _ _ _ _ _ _ _ _ => .pure (R.boolean _)

theorem concat (R : Reading P lax V H)
    (left : (Expr.binary .concat x y .string).Supplies V E frames s x)
    (right : (Expr.binary .concat x y .string).Supplies V E frames s y) :
    (Expr.binary .concat x y .string).Evaluates V E frames s :=
  operands (fun _ => rfl) left right fun _ _ _ _ _ _ _ _ => .pure (R.string _)

/-- The left operand decides, or the value is that of the right one. -/
theorem logical {op : LogicalOp} (R : Reading P lax V H) (rightTy : y.ty = .boolean)
    (left : (Expr.binary (.logical op) x y .boolean).Supplies V E frames s x)
    (right : (Expr.binary (.logical op) x y .boolean).Supplies V E frames s y) :
    (Expr.binary (.logical op) x y .boolean).Evaluates V E frames s := by
  have begins : x.Evaluates V E frames s := left s (.first rfl)
  have follows {v : Value} {u : Store} (run : x.evaluate frames s = (.ok v, u))
      (undecided : (BinaryOp.logical op).decidedBy v = false) :
      EnsuresAt u (y.evaluate frames) (V · .boolean) E := by
    have typed := right u (.second rfl run (by simp [second?, undecided]))
    rwa [Evaluates, rightTy] at typed
  cases op with
  | and | or =>
    unfold Evaluates Expr.evaluate
    refine begins.bind fun a u run _ => ?_
    split
    · exact .pure (R.boolean _)
    next undecided =>
      exact follows run (Bool.eq_false_iff.2 fun h => undecided (Value.isTruth_iff.1 h))

theorem unary {op : UnaryOp} (R : Reading P lax V H) (hE : ∀ e s, H e → E e s)
    (takes : op.takes x.ty.nonNullable = true)
    (operand : (Expr.unary op x).Supplies V E frames s x) :
    (Expr.unary op x).Evaluates V E frames s := by
  show EnsuresAt s (do liftM (Value.applyUnary op (← x.evaluate frames))) _ _
  exact (operand s (.first rfl)).bind fun v _ _ hv => lift hE (R.unary op hv takes)

/-- Only one of the branches is evaluated. -/
theorem conditional (same : x.ty = y.ty)
    (test : (Expr.conditional c x y).Supplies V E frames s c)
    (whenTrue : (Expr.conditional c x y).Supplies V E frames s x)
    (whenFalse : (Expr.conditional c x y).Supplies V E frames s y) :
    (Expr.conditional c x y).Evaluates V E frames s := by
  have begins : c.Evaluates V E frames s := test s (.first rfl)
  unfold Evaluates Expr.evaluate
  refine begins.bind fun v u run _ => ?_
  split
  · exact whenTrue u (.second rfl run rfl)
  next other =>
    have next : (Expr.conditional c x y).second? v = some y :=
      congrArg some (if_neg fun h => other (Value.isTruth_iff.1 h))
    have typed := whenFalse u (.second rfl run next)
    rwa [Evaluates, ← same] at typed

/-- The order is code from outside. -/
theorem customCompare {op : CompareOp} {order : Schema.ComparisonMatch} (R : Reading P lax V H)
    (left : (Expr.customCompare op x y order).Supplies V E frames s x)
    (right : (Expr.customCompare op x y order).Supplies V E frames s y)
    (native : ∀ err s', (Expr.customCompare op x y order).FailsOutside P.schema frames s err s' →
      E err s') :
    (Expr.customCompare op x y order).Evaluates V E frames s := by
  show EnsuresAt s (do
    let a ← x.evaluate frames
    let b ← y.evaluate frames
    let result ← liftM (Value.compareWith (.compare op) order.order order.reversed a b)
    return Value.boolean result) _ _
  refine (left s (.first rfl)).bind fun a u runA _ => ?_
  refine (right u (.second rfl runA rfl)).bind fun b u' runB _ => ?_
  refine .bind_lift (Q := fun _ => True) ⟨fun _ _ => trivial, ?_⟩ fun _ _ _ => .pure (R.boolean _)
  intro err failed
  obtain ⟨ha, hb, ordered⟩ := Value.compareWith_eq_error.1 failed
  exact native err u' (.comparison runA runB ⟨ha, hb⟩ ordered)

/-! ## Conversions and records -/

/-- The refusal of a mere object has to be expected. -/
theorem convert (R : Reading P lax V H) (hE : ∀ e s, H e → E e s)
    (casts : x.ty.nonNullable.Casts t.nonNullable)
    (operand : (Expr.convert x none t).Supplies V E frames s x)
    (refused : x.ty.nonNullable = .object → ∀ v s' err,
      x.evaluate frames s = (.ok v, s') → v.cast t = .error err → E err s') :
    (Expr.convert x none t).Evaluates V E frames s := by
  show EnsuresAt s (do liftM ((← x.evaluate frames).cast t)) _ _
  refine (operand s (.first rfl)).bind fun v s' run hv => ?_
  have cast := R.cast hv casts
  refine .lift ⟨cast.ok, ?_⟩
  intro err failed
  rcases cast.error err failed with expected | object
  · exact hE err s' expected
  · exact refused object v s' err run failed

theorem convertUser {d : RecordDef} {i : Nat} {c : Conversion} (R : Reading P lax V H)
    (declared : (P.schema.conversions d)[i]? = some c) (source : c.source = x.ty)
    (operand : (Expr.convert x (some ⟨d, i, some c⟩) (.record d)).Supplies V E frames s x)
    (native : ∀ err s', (Expr.convert x (some ⟨d, i, some c⟩) (.record d)).FailsOutside P.schema
      frames s err s' → E err s') :
    (Expr.convert x (some ⟨d, i, some c⟩) (.record d)).Evaluates V E frames s := by
  show EnsuresAt s (do
    let v ← x.evaluate frames
    if v.isNull then return .null else c.convert v) _ _
  refine (operand s (.first rfl)).bind fun v u run hv => ?_
  split
  next => exact .pure (R.null rfl)
  next hn =>
    have given : v.isNull = false := by simpa using hn
    exact .of_run (fun w _ returned => R.convert declared (source ▸ hv) given returned)
      fun err s' failed => native err s' (.conversion run given failed)

theorem new {d : RecordDef} {fields : List Expr} (R : Reading P lax V H)
    (types : fields.map Expr.ty = d.fields.map Prod.snd)
    (each : ∀ f ∈ fields, (Expr.new d fields).Supplies V E frames s f) :
    (Expr.new d fields).Evaluates V E frames s := by
  show EnsuresAt s (do
    let values ← evaluateAll fields frames
    Eval.newObject d values) _ _
  refine (evaluateAll_ensures (V := V) ?_).bind fun vs _ _ hvs => ?_
  · intro before f behind vs u split runs
    subst split
    exact each f (by simp) u (.field runs)
  · rw [types] at hvs
    exact meets_ok.2 (R.object hvs)

end Evaluates

end Expr

end TypedExpr
