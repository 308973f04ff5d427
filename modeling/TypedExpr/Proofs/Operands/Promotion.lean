import TypedExpr.Compile
import TypedExpr.Proofs.Conversion
import TypedExpr.Proofs.Ensures

/-!
# Evaluation of promoted expressions

What an expression that was brought to another type evaluates to.  Constants are converted once and
for all, other expressions when they are evaluated, and neither is to be noticed.

* `Schema.represent` — what is done to a value on the way from one type to another.
* `Expr.Represents` — an expression of a type that stands for another expression.
* **`Expr.promote?_evaluate`** — promotions and conversions change nothing but the representation.
* `promotion_discards` — an expression that can only be null is dropped.
* **`Value.coerce?_restricts_cast`** — constants that adapt by their value are cast.
* `Binding.unify_represents` — the operands that are brought to one type stand for the given ones.
-/

namespace TypedExpr

variable {s : Schema} {a b e x y : Expr} {t u : Ty} {v w : Value} {c : ImplicitConversion}

/-! ## Values -/

section

variable {format : GuidFormat}

/-- The conversion that the target declares, where it is the one to use. -/
def Schema.declared? (s : Schema) (source target : Ty) : Option Conversion :=
  (s.implicit? source target).bind fun c =>
    match c.kind with
    | .userDefined d i => (s.conversions d)[i]?
    | _ => none

/-- What is done to a value of one type that is wanted in another: nothing if they are the same, a
declared conversion where it is the one to use, and a cast otherwise.  A declared conversion leaves
null alone. -/
def Schema.represent [GuidFormat] (s : Schema) (source target : Ty) (v : Value) : Eval Value :=
  if source = target then return v
  else
    match s.declared? source target with
    | some c => if v.isNull then return .null else c.convert v
    | none => liftM (v.cast target)

theorem Value.cast_null (accepts : t.acceptsNull = true) : Value.null.cast t = .ok .null := by
  simp only [cast, isNull, if_true, accepts]

/-- Null stays null. -/
theorem Schema.represent_null (accepts : t.acceptsNull = true) :
    s.represent u t .null = pure .null := by
  unfold represent
  split
  · rfl
  · split
    · rfl
    · rw [Value.cast_null accepts]
      rfl

theorem Schema.represent_of_eq (same : u = t) : s.represent u t = pure :=
  funext fun _ => if_pos same

/-- Where no declared conversion is used, values are cast. -/
theorem Schema.represent_cast (differ : u ≠ t) (plain : s.declared? u t = none) (v : Value) :
    s.represent u t v = liftM (v.cast t) := by
  rw [represent, if_neg differ, plain]

/-- Only records declare conversions. -/
theorem Schema.declared?_record {c : Conversion} (h : s.declared? u t = some c) :
    ∃ d, t = .record d := by
  obtain ⟨i, hi, hk⟩ := Option.bind_eq_some_iff.1 h
  rcases Schema.implicit?_sound hi with built | ⟨d, -, -, -, target, -⟩
  · split at hk
    next same => exact absurd (same ▸ built) Ty.not_implicit_userDefined
    next => cases hk
  · exact ⟨d, target⟩

theorem Schema.declared?_eq_none (s : Schema) (u : Ty) (h : ∀ d, t ≠ .record d) :
    s.declared? u t = none := by
  cases hc : s.declared? u t with
  | none => rfl
  | some c =>
    obtain ⟨d, hd⟩ := declared?_record hc
    exact absurd hd (h d)

/-- A built-in conversion is preferred to a declared one. -/
theorem Schema.implicit?_built_in (s : Schema) (h : u.implicit? t = some c) :
    s.implicit? u t = some c := by
  show (u.implicit? t).or _ = _
  rw [h, Option.some_or]

theorem Schema.implicit?_refl (s : Schema) (t : Ty) : s.implicit? t t = some ⟨.identity, 0⟩ :=
  s.implicit?_built_in t.implicit?_refl

/-- A value of one type in another one: it is cast, unless it has the type already. -/
def Value.viewAs [GuidFormat] (source target : Ty) (v : Value) : Except EvalError Value :=
  if source = target then .ok v else v.cast target

/-- Without a declared conversion, a value is represented as it is viewed. -/
theorem Schema.represent_eq_viewAs (plain : s.declared? u t = none) :
    s.represent u t = fun v => liftM (v.viewAs u t) := by
  funext v
  unfold Value.viewAs
  split
  next same =>
    rw [represent_of_eq same]
    rfl
  next differ => exact represent_cast differ plain v

/-- Where the conversion to use is built-in, none is declared. -/
theorem Schema.declared?_of_built_in (h : s.implicit? u t = some c)
    (built : ∀ d i, c.kind ≠ .userDefined d i) : s.declared? u t = none := by
  rw [declared?, h, Option.bind_some]
  split
  next d i hk => exact absurd hk (built d i)
  next => rfl

/-- Where a type accepts null, so do the types that it converts to. -/
theorem Ty.Implicit.acceptsNull_of {kind : ConversionKind} (h : u.Implicit t kind)
    (hu : u.acceptsNull = true) : t.acceptsNull = true := by
  cases h with
  | identity => exact hu
  | nullLiteral accepts => exact accepts
  | numericWidening source _ =>
    cases u with
    | int _ | single | double => cases hu
    | _ => cases source
  | enumToUnderlying => cases hu
  | groupingToSequence | toObject | wrap | wrapNumber => rfl

/-- **Built-in conversions do not fail** on values of their types. -/
theorem Ty.Implicit.viewAs [GuidFormat] {kind : ConversionKind} (h : u.Implicit t kind)
    (hv : v.Conforms u) :
    ∃ w, v.viewAs u t = .ok w ∧ w.Conforms t := by
  unfold Value.viewAs
  split
  next same => exact ⟨v, rfl, same ▸ hv⟩
  next differ =>
    by_cases null : v.isNull = true
    · rw [Value.isNull_iff.1 null] at hv ⊢
      have accepts := h.acceptsNull_of (Value.conforms_null_iff.1 hv)
      exact ⟨.null, Value.cast_null accepts, .null accepts⟩
    · have notNull : v.isNull = false := by simpa using null
      suffices plain :
          Meets (v.castPlain t.nonNullable) (·.Conforms t.nonNullable) fun _ => False by
        rw [Value.cast, if_neg null]
        obtain ⟨w, hw, hc⟩ := plain.exists_ok
        exact ⟨w, hw, hc.of_nonNullable⟩
      have hv := hv.nonNullable notNull
      cases h with
      | identity => exact absurd rfl differ
      | nullLiteral _ => exact absurd hv.eq_null fun h => by simp [h] at null
      | numericWidening source target =>
        rw [Ty.nonNullable_of_isNumeric source] at hv
        rw [Ty.nonNullable_of_isNumeric target]
        exact hv.meets_castPlain_numeric notNull (Ty.isNumericLike_of_isNumeric source)
          (Ty.isNumericLike_of_isNumeric target)
      | enumToUnderlying d target =>
        rw [Ty.nonNullable_of_isNumeric target]
        exact hv.meets_castPlain_numeric notNull rfl (Ty.isNumericLike_of_isNumeric target)
      | groupingToSequence key t =>
        rcases hv.eq_grouping with rfl | ⟨id, k, items, rfl, -, each⟩
        · exact absurd rfl null
        · rw [Value.castPlain_of_isOf (by simp) rfl]
          exact meets_ok.2 (.groupingItems each)
      | toObject => exact meets_ok.2 (.typed hv)
      | wrap plain =>
        rw [Ty.nonNullable_of_plain plain] at hv
        exact hv.meets_castPlain_refl notNull plain
      | wrapNumber source target =>
        exact hv.meets_castPlain_numeric notNull source (Ty.isNumericLike_of_isNumeric target)

/-! ## Constants -/

namespace Value

/-- A number that fits a type is the number cast. -/
theorem castNumber_of_fitNumeric? (h : v.fitNumeric? t = some w) : v.castNumber t = .ok w :=
  castNumber_eq_ok.2 (castNumeric?_of_fitNumeric? h)

/-- A number that fits the underlying type of an enumeration, and is an integer there, is one of
64 bits. -/
theorem castNumber_of_underlying {d : EnumDef} {n : Word .int64}
    (h : (v.fitNumeric? d.underlying).bind int64? = some n) :
    v.castNumber (.enum d) = .ok (.enum d n) := by
  obtain ⟨u, hu, hn⟩ := Option.bind_eq_some_iff.1 h
  cases hd : d.underlying with
  | int t =>
    rw [hd] at hu
    obtain ⟨a, number, rfl⟩ := fitNumeric?_int_eq_some_iff.1 hu
    have same : n.val = a.val := Word.fit?_eq_some_iff.1 hn
    rw [castNumber_eq_ok, castNumeric?, number, Option.bind_some, ofNumber?, Number.toInt, ← same,
      Word.wrap_val]
  | single | double =>
    rw [hd] at hu
    obtain ⟨k, -, hf⟩ := Option.bind_eq_some_iff.1 hu
    split at hf
    · cases hf
      cases hn
    · cases hf
  | _ =>
    rw [hd] at hu
    obtain ⟨k, -, hf⟩ := Option.bind_eq_some_iff.1 hu
    cases k <;> cases hf

/-- A constant that adapts by its value is the constant cast. -/
theorem cast_of_coerce? (h : v.coerce? t = some w) : v.cast t = .ok w := by
  unfold coerce? at h
  unfold cast
  split
  next hv =>
    rw [if_pos hv] at h
    split at h
    next accepts =>
      cases h
      rw [if_pos accepts]
    next => cases h
  next hv =>
    rw [if_neg hv] at h
    generalize t.nonNullable = goal at h
    simp only at h
    split at h
    next s =>
      cases h
      rfl
    next s =>
      obtain ⟨g, hg, rfl⟩ := Option.map_eq_some_iff.1 h
      show readAs s .guid _ = _
      rw [hg]
      rfl
    next s d =>
      obtain ⟨n, hn, rfl⟩ := Option.map_eq_some_iff.1 h
      show readAs s (.enum d) _ = _
      rw [hn]
      rfl
    next d n e =>
      split at h
      next same =>
        cases h
        exact if_pos (decide_eq_true same)
      next => cases h
    next => cases h
    next d text other =>
      obtain ⟨n, hn, rfl⟩ := Option.map_eq_some_iff.1 h
      have number := castNumber_of_underlying hn
      cases v with
      | string s => exact absurd rfl (text s)
      | enum e m => exact absurd rfl (other e m)
      | _ => exact number
    next =>
      cases h
      rfl
    next =>
      cases h
      rfl
    next =>
      cases h
      rfl
    next =>
      split at h
      next numeric =>
        have number := castNumber_of_fitNumeric? h
        cases v with
        | string s => cases h
        | _ =>
          cases goal with
          | int t | single | double => exact number
          | _ => cases numeric
      next => cases h

end Value

theorem Expr.evaluate_of_constant? (h : e.constant? = some v) (frames : List Value) :
    e.evaluate frames = pure v := by
  cases e with
  | literal => cases h; rfl
  | placeholder _ value =>
    cases value with
    | constant => cases h; rfl
    | deferred => cases h
  | _ => cases h

theorem Expr.eq_of_constant? {frames : List Value} {st st' : Store} (h : e.constant? = some w)
    (run : e.evaluate frames st = (.ok v, st')) : v = w := by
  rw [evaluate_of_constant? h] at run
  cases run
  rfl

@[simp] theorem Expr.evaluate_withConstant (e : Expr) (v : Value) (t : Ty) (frames : List Value) :
    (e.withConstant v t).evaluate frames = pure v := by
  cases e <;> rfl

/-! ## Expressions -/

/-- An expression of a type stands for another one: its value is represented in the type.  In the
place of an expression that can only be null, there may be the null literal. -/
structure Expr.Represents [GuidFormat] (s : Schema) (x e : Expr) (t : Ty) : Prop where
  ty : x.ty = t
  evaluates : (∀ frames, x.evaluate frames = e.evaluate frames >>= s.represent e.ty t) ∨
    (e.ty = .null ∧ t.acceptsNull = true ∧ ∀ frames, x.evaluate frames = pure .null)

namespace Expr.Represents

/-- Where null is known to be the value of what can only be null, nothing is lost. -/
theorem evaluate (h : x.Represents s e t) (null : e.ty = .null → e.constant? = some .null)
    (frames : List Value) : x.evaluate frames = e.evaluate frames >>= s.represent e.ty t := by
  rcases h.evaluates with after | ⟨ty, accepts, alone⟩
  · exact after frames
  · rw [alone frames, evaluate_of_constant? (null ty), pure_bind, Schema.represent_null accepts]

theorem refl (s : Schema) (e : Expr) : e.Represents s e e.ty where
  ty := rfl
  evaluates := Or.inl fun frames => by rw [Schema.represent_of_eq rfl, bind_pure]

theorem of_eq (same : e.ty = t) : e.Represents s e t := same ▸ refl s e

/-- A constant whose cast is known. -/
theorem constant (hc : e.constant? = some v) (hw : s.represent e.ty t v = pure w) :
    (e.withConstant w t).Represents s e t where
  ty := e.withConstant_ty w t
  evaluates := Or.inl fun frames => by
    rw [evaluate_withConstant, evaluate_of_constant? hc, pure_bind, hw]

/-- A cast, carried out when the expression is evaluated. -/
theorem convert (differ : e.ty ≠ t) (plain : s.declared? e.ty t = none) :
    (Expr.convert e none t).Represents s e t where
  ty := rfl
  evaluates := Or.inl fun frames => by
    rw [funext (Schema.represent_cast differ plain)]
    rfl

/-- A cast, carried out at once if the value is known and is not refused. -/
theorem cast (differ : e.ty ≠ t) (plain : s.declared? e.ty t = none) :
    Expr.Represents s (match e.constant?.bind fun v => (v.cast t).toOption with
      | some w => e.withConstant w t
      | none => .convert e none t) e t := by
  split
  next w hw =>
    obtain ⟨v, hv, hw⟩ := Option.bind_eq_some_iff.1 hw
    refine constant hv ?_
    rw [Schema.represent_cast differ plain]
    cases hr : v.cast t with
    | ok r =>
      rw [hr] at hw
      cases hw
      rfl
    | error e =>
      rw [hr] at hw
      cases hw
  next => exact convert differ plain

/-- A conversion that the target declares. -/
theorem convertUser {d : RecordDef} {i : Nat} {conversion : Conversion} (differ : e.ty ≠ t)
    (hd : (s.conversions d)[i]? = some conversion)
    (declared : s.declared? e.ty t = some conversion) :
    (Expr.convert e (some (userConversion s d i)) t).Represents s e t where
  ty := rfl
  evaluates := Or.inl fun frames => by
    have step : s.represent e.ty t =
        fun v => if v.isNull then return .null else conversion.convert v := by
      funext v
      rw [Schema.represent, if_neg differ, declared]
    rw [step, userConversion, hd]
    rfl

/-- **An implicit conversion changes the representation only.** -/
theorem applyConversion (h : s.implicit? e.ty t = some c) :
    (e.applyConversion s c t).Represents s e t := by
  by_cases same : e.ty = t
  · rw [same, Schema.implicit?_refl] at h
    cases h
    exact of_eq same
  unfold Expr.applyConversion
  split
  next hk =>
    rcases Schema.implicit?_sound h with built | ⟨d, i, -, declared, -⟩
    · rw [hk] at built
      exact absurd built.eq same
    · rw [hk] at declared
      cases declared
  next d i hk =>
    rcases Schema.implicit?_sound h with built | ⟨d', i', conversion, declared, -, hi, -⟩
    · rw [hk] at built
      exact absurd built Ty.not_implicit_userDefined
    · rw [hk] at declared
      cases declared
      refine convertUser same hi ?_
      rw [Schema.declared?, h, Option.bind_some, hk]
      exact hi
  next hk =>
    rcases Schema.implicit?_sound h with built | ⟨d, i, -, declared, -⟩
    · rw [hk] at built
      refine ⟨e.withConstant_ty .null t, Or.inr ⟨built.eq_null, built.acceptsNull, ?_⟩⟩
      exact e.evaluate_withConstant .null t
    · rw [hk] at declared
      cases declared
  next declared _ => exact cast same (Schema.declared?_of_built_in h declared)

/-- A constant that adapts by its value. -/
theorem coerce (differ : e.ty ≠ t) (hv : e.constant? = some v) (hw : v.coerce? t = some w) :
    (e.withConstant w t).Represents s e t := by
  have cast := Value.cast_of_coerce? hw
  refine constant hv ?_
  cases hd : s.declared? e.ty t with
  | none =>
    rw [Schema.represent_cast differ hd, cast]
    rfl
  | some c =>
    obtain ⟨d, rfl⟩ := Schema.declared?_record hd
    cases v with
    | null =>
      rw [Value.cast_null rfl] at cast
      cases cast
      exact Schema.represent_null rfl
    | _ => cases hw

/-- **An implicit promotion changes the representation only.** -/
theorem promote? {p : Promotion} {allowObject : Bool} (h : e.promote? s t allowObject = some p) :
    p.expr.Represents s e t := by
  unfold Expr.promote? at h
  split at h
  next same =>
    cases h
    exact of_eq same
  next differ =>
    simp only at h
    split at h
    next w hw =>
      cases h
      obtain ⟨v, hv, hw⟩ := Option.bind_eq_some_iff.1 hw
      exact coerce differ hv hw
    next =>
      obtain ⟨c, hc, rfl⟩ := Option.map_eq_some_iff.1 h
      exact applyConversion (Option.filter_eq_some_iff.1 hc).1

/-- Where a declared conversion is the one to use, a promotion uses it. -/
theorem declared?_of_promote? {allowObject : Bool} (differ : e.ty ≠ t)
    (refused : e.promote? s t allowObject = none) : s.declared? e.ty t = none := by
  rw [Expr.promote?, if_neg differ] at refused
  simp only at refused
  split at refused
  next => cases refused
  next =>
    rw [Option.map_eq_none_iff, Option.filter_eq_none_iff] at refused
    cases hc : s.implicit? e.ty t with
    | none => rw [Schema.declared?, hc, Option.bind_none]
    | some c =>
      refine Schema.declared?_of_built_in hc fun d i hk => refused c hc ?_
      rw [hk]
      exact Bool.or_true _

/-- What cannot be promoted is cast. -/
theorem coerceTo (s : Schema) (e : Expr) (t : Ty) : (e.coerceTo s t).Represents s e t := by
  unfold Expr.coerceTo
  split
  next same => exact of_eq same
  next differ =>
    split
    next p hp => exact promote? hp
    next refused => exact convert differ (declared?_of_promote? differ refused)

end Expr.Represents

/-- **A promotion changes nothing but the representation.**  A promoted expression fails where the
expression fails, with the same error, and has its value, represented in the type, otherwise.  The
same holds of an operand after an implicit conversion.  Of what can only be null, null has to be
known to be the value: the null literal takes its place, and it is not evaluated. -/
theorem Expr.promote?_evaluate (null : e.ty = .null → e.constant? = some .null) :
    (∀ t allowObject p, e.promote? s t allowObject = some p → ∀ frames,
      p.expr.evaluate frames = e.evaluate frames >>= s.represent e.ty t) ∧
    ∀ t c, s.operandConversion? e.ty t = some c → ∀ frames,
      (e.applyConversion s c t).evaluate frames = e.evaluate frames >>= s.represent e.ty t := by
  constructor
  · intro t allowObject p h
    exact (Represents.promote? h).evaluate null
  · intro t c h
    exact (Represents.applyConversion (Option.filter_eq_some_iff.1 h).1).evaluate null

/-- An element of 32 bits. -/
def element32 : Expr := .parameter 0 (.int .int32)

/-- The element in 64 bits. -/
def widened32 : Expr := .convert element32 none (.int .int64)

end

theorem promote?_evaluate_widened :
    element32.promote? Schema.empty (.int .int64) false = some ⟨widened32, 2⟩ ∧
      widened32.evaluate [Value.int32 5] .empty =
        (.ok (.int .int64 (Word.wrap .int64 5)), .empty) ∧
      widened32.evaluate [] .empty = (.error (.noFrame 0), .empty) := by
  have promoted : element32.promote? Schema.empty (.int .int64) false = some ⟨widened32, 2⟩ := rfl
  have notNull : element32.ty = .null → element32.constant? = some .null := fun h => by cases h
  have evaluates := (Expr.promote?_evaluate notNull).1 _ _ _ promoted
  refine ⟨promoted, ?_, ?_⟩
  · exact congrFun (evaluates [Value.int32 5]) .empty
  · exact congrFun (evaluates []) .empty

/-- A choice between null and null, whose test divides by zero. -/
def discarded : Expr :=
  .conditional
    (.binary (.compare .eq)
      (.binary (.arithmetic .div) (Expr.ofValue (Value.int32 1)) (Expr.ofValue (Value.int32 0))
        (.int .int32))
      (Expr.ofValue (Value.int32 1)) .boolean)
    (Expr.ofValue .null) (Expr.ofValue .null)

/-- The comparison of such a choice with an element. -/
def comparedToDiscarded : Source :=
  ⟨"iif(1 / 0 = 1, null, null) = $", .nullable (.int .int32), [], true⟩

/-- The truth value that a text gives for an element. -/
def Source.truth? [GuidFormat] (source : Source) (w : Workspace) (v : Value) : Option Bool :=
  (source.parse w).1.toOption.bind fun e => (e.invoke v .empty).1.toOption.bind Value.bool?

/-- What can only be null is not evaluated any more once it is promoted, and its error is lost. -/
theorem promotion_discards :
    discarded.ty = .null ∧ discarded.constant? = none ∧
      (discarded.evaluate [.null] .empty).1 = .error .divisionByZero ∧
      discarded.promote? Schema.empty (.nullable (.int .int32)) false =
        some ⟨.literal .null (.nullable (.int .int32)), 1⟩ ∧
      comparedToDiscarded.truth? Workspace.empty .null = some true :=
  ⟨rfl, rfl, rfl, rfl, by decide +kernel⟩

/-- **Coercing a constant restricts its cast.**  A constant that adapts to a type by its value is
the constant cast to that type.  A conversion that is left to the evaluation gives the same value;
and where the constant has another type, so do its promotion and the type applied to it, at
once. -/
theorem Value.coerce?_restricts_cast [GuidFormat] (h : v.coerce? t = some w) :
    v.cast t = .ok w ∧
    (∀ (x : Expr) frames st st', x.evaluate frames st = (.ok v, st') →
      (Expr.convert x none t).evaluate frames st = (.ok w, st')) ∧
    ∀ (s : Schema) (e : Expr), e.constant? = some v → e.ty ≠ t →
      (∀ allowObject, ∃ cost,
        e.promote? s t allowObject = some ⟨e.withConstant w t, cost⟩) ∧
      (∀ offset, Binding.explicitConversion s e t offset = .ok (e.withConstant w t)) ∧
      ∀ frames, (e.withConstant w t).evaluate frames = pure w := by
  have cast := cast_of_coerce? h
  refine ⟨cast, ?_, ?_⟩
  · intro x frames st st' run
    show (x.evaluate frames >>= fun z => liftM (z.cast t)) st = _
    rw [bind_of_ok run, cast]
    rfl
  · intro s e constant differ
    have promoted (allowObject : Bool) :
        ∃ cost, e.promote? s t allowObject = some ⟨e.withConstant w t, cost⟩ := by
      rw [Expr.promote?, if_neg differ, constant, Option.bind_some, h]
      exact ⟨_, rfl⟩
    refine ⟨promoted, fun offset => ?_, fun frames => e.evaluate_withConstant w t frames⟩
    obtain ⟨cost, found⟩ := promoted true
    rw [Binding.explicitConversion, found]

/-- A constant of 32 bits in a type of bytes that accepts null. -/
theorem Value.coerce?_restricts_cast_byte :
    (Value.int32 5).coerce? (.nullable (.int .uint8)) =
        some (.int .uint8 (Word.wrap .uint8 5)) ∧
      (Value.int32 5).cast (.nullable (.int .uint8)) = .ok (.int .uint8 (Word.wrap .uint8 5)) ∧
      Binding.explicitConversion Schema.empty (Expr.ofValue (Value.int32 5))
          (.nullable (.int .uint8)) 0 =
        .ok (.literal (.int .uint8 (Word.wrap .uint8 5)) (.nullable (.int .uint8))) := by
  have adapts : (Value.int32 5).coerce? (.nullable (.int .uint8)) =
      some (.int .uint8 (Word.wrap .uint8 5)) := rfl
  obtain ⟨cast, -, folded⟩ := Value.coerce?_restricts_cast adapts
  have differ : (Expr.ofValue (Value.int32 5)).ty ≠ .nullable (.int .uint8) := fun h => by cases h
  exact ⟨adapts, cast, (folded Schema.empty (Expr.ofValue (Value.int32 5)) rfl differ).2.1 0⟩

/-! ## Two operands -/

namespace Binding

variable {format : GuidFormat}

theorem adapt?_represents (differ : e.ty ≠ t) (h : adapt? e t = some x) : x.Represents s e t := by
  obtain ⟨w, hw, rfl⟩ := Option.map_eq_some_iff.1 h
  obtain ⟨v, hv, hw⟩ := Option.bind_eq_some_iff.1 hw
  exact .coerce differ hv hw

theorem implicit?_of_operandConversion? (h : s.operandConversion? u t = some c) :
    s.implicit? u t = some c :=
  (Option.filter_eq_some_iff.1 h).1

/-- The type is one that the operand converts to, or one that its value adapts to. -/
inductive Admits [GuidFormat] (s : Schema) (e : Expr) (t : Ty) : Prop
  | same (h : e.ty = t)
  | converts {c : ImplicitConversion} (h : s.operandConversion? e.ty t = some c)
  | adapts {v w : Value} (constant : e.constant? = some v) (fits : v.coerce? t = some w)

theorem admits_of_adapt? (h : adapt? e t = some x) : Admits s e t := by
  obtain ⟨w, hw, rfl⟩ := Option.map_eq_some_iff.1 h
  obtain ⟨v, hv, hw⟩ := Option.bind_eq_some_iff.1 hw
  exact .adapts hv hw

/-- What is built-in does not fail on values of their types. -/
theorem Admits.viewAs (h : Admits s e t) (plain : s.declared? e.ty t = none)
    (hv : v.Conforms e.ty) (hc : ∀ k, e.constant? = some k → v = k) :
    ∃ w, v.viewAs e.ty t = .ok w ∧ w.Conforms t := by
  cases h with
  | same same => exact ⟨v, if_pos same, same ▸ hv⟩
  | converts h =>
    rcases Schema.implicit?_sound (implicit?_of_operandConversion? h) with
      built | ⟨d, i, conversion, declared, -, hi, -⟩
    · exact built.viewAs hv
    · have found : s.declared? e.ty t = some conversion := by
        rw [Schema.declared?, implicit?_of_operandConversion? h, Option.bind_some, declared]
        exact hi
      rw [plain] at found
      cases found
  | adapts constant fits =>
    obtain rfl := hc _ constant
    have conforms : Value.Conforms _ t := Value.coerce?_conformsIn fits
    by_cases same : e.ty = t
    · exact ⟨v, if_pos same, same ▸ hv⟩
    · exact ⟨_, (if_neg same).trans (Value.cast_of_coerce? fits), conforms⟩

/-- What the implicit conversions make of two operands: the cheaper one of the two conversions is
used, and if there is none, both operands go to a type that they have in common. -/
inductive Converted [GuidFormat] (s : Schema) (a b : Expr) : Expr → Expr → Prop
  | toLeft {c : ImplicitConversion} (found : s.operandConversion? b.ty a.ty = some c)
      (cheap : ∀ c', s.operandConversion? a.ty b.ty = some c' → c.cost ≤ c'.cost) :
      Converted s a b a (b.applyConversion s c a.ty)
  | toRight {c : ImplicitConversion} (found : s.operandConversion? a.ty b.ty = some c)
      (cheap : ∀ c', s.operandConversion? b.ty a.ty = some c' → c.cost < c'.cost) :
      Converted s a b (a.applyConversion s c b.ty) b
  | common {t : Ty} (noLeft : s.operandConversion? b.ty a.ty = none)
      (noRight : s.operandConversion? a.ty b.ty = none) (meet : commonTy? s a.ty b.ty = some t) :
      Converted s a b (a.coerceTo s t) (b.coerceTo s t)

theorem convertBoth_eq_ok_iff {operator : String} {offset : Nat} :
    convertBoth s operator a b offset = .ok (x, y) ↔ Converted s a b x y := by
  unfold convertBoth
  constructor
  · intro h
    cases hb : s.operandConversion? b.ty a.ty with
    | some c =>
      cases ha : s.operandConversion? a.ty b.ty with
      | some c' =>
        simp only [hb, ha] at h
        split at h
        next cheaper =>
          cases h
          exact .toRight ha fun _ same => Option.some.inj (hb.symm.trans same) ▸ cheaper
        next dearer =>
          cases h
          exact .toLeft hb fun _ same =>
            Option.some.inj (ha.symm.trans same) ▸ Nat.le_of_not_lt dearer
      | none =>
        simp only [hb, ha] at h
        cases h
        exact .toLeft hb fun _ same => nomatch ha.symm.trans same
    | none =>
      cases ha : s.operandConversion? a.ty b.ty with
      | some c' =>
        simp only [hb, ha] at h
        cases h
        exact .toRight ha fun _ same => nomatch hb.symm.trans same
      | none =>
        simp only [hb, ha] at h
        split at h
        next t meet =>
          cases h
          exact .common hb ha meet
        next => cases h
  · intro h
    cases h with
    | toLeft found cheap =>
      cases ha : s.operandConversion? a.ty b.ty with
      | some c' => simp only [found, if_neg (Nat.not_lt.2 (cheap c' ha))]
      | none => simp only [found]
    | toRight found cheap =>
      cases hb : s.operandConversion? b.ty a.ty with
      | some c => simp only [found, if_pos (cheap c hb)]
      | none => simp only [found]
    | common noLeft noRight meet => simp only [noLeft, noRight, meet]

/-- The operands after the implicit conversions stand for the given ones, in a type that both
admit. -/
theorem Converted.represents (h : Converted s a b x y) :
    ∃ t, x.Represents s a t ∧ y.Represents s b t ∧ Admits s a t ∧ Admits s b t := by
  cases h with
  | toLeft found _ =>
    exact ⟨_, .refl s a, .applyConversion (implicit?_of_operandConversion? found), .same rfl,
      .converts found⟩
  | toRight found _ =>
    exact ⟨_, .applyConversion (implicit?_of_operandConversion? found), .refl s b, .converts found,
      .same rfl⟩
  | @common t _ _ meet =>
    have accepted := List.find?_some meet
    rw [Bool.and_eq_true, Option.isSome_iff_exists, Option.isSome_iff_exists] at accepted
    obtain ⟨⟨c, hc⟩, c', hc'⟩ := accepted
    exact ⟨t, .coerceTo s a t, .coerceTo s b t, .converts hc, .converts hc'⟩

/-- **The operands that are brought to one type stand for the given ones**, in a type that both
admit. -/
theorem unify_represents {operator : String} {offset : Nat}
    (h : unify s operator a b offset = .ok (x, y)) :
    ∃ t, x.Represents s a t ∧ y.Represents s b t ∧ Admits s a t ∧ Admits s b t := by
  unfold unify at h
  split at h
  next same =>
    cases h
    exact ⟨_, .refl s a, .of_eq same.symm, .same rfl, .same same.symm⟩
  next differ =>
    split at h
    next y' hy =>
      cases h
      exact ⟨_, .refl s a, adapt?_represents (Ne.symm differ) hy, .same rfl, admits_of_adapt? hy⟩
    next =>
      split at h
      next x' hx =>
        cases h
        exact ⟨_, adapt?_represents differ hx, .refl s b, admits_of_adapt? hx, .same rfl⟩
      next => exact (convertBoth_eq_ok_iff.1 h).represents

end Binding

end TypedExpr
