import TypedExpr.Proofs.Operands.Exchange
import TypedExpr.Proofs.Operands.Unify
import TypedExpr.Proofs.Value.Mirror
import TypedExpr.Proofs.Value.Operators

/-!
# Commutative operators

Sums, products and bit operators on exchanged operands.

* `Binding.operationTy?` — the type in which an operator computes.
* **`Binding.binary_commutes`** — exchanged operands are bound alike and give the same values,
  unless both are constants that adapt to each other.
* `Binding.constants_do_not_commute` — of two such constants, the right one adapts.
-/

namespace TypedExpr.Binding

section

variable {format : GuidFormat} {s : Schema} {op : BinaryOp} {a b e e' l r x y : Expr} {t u : Ty}
  {v w : Value}

variable {frames : List Value} {st : Store} {offset offset' : Nat}

/-! ## Binding -/

/-- The type in which a commutative operator computes on operands of a type. -/
def operationTy? (op : BinaryOp) (t : Ty) : Option Ty :=
  match op, t.nonNullable with
  | .arithmetic _, base =>
    if base.isNumeric then some (base.promoted.lift t.isNullable) else none
  | .bitwise _, .boolean | .bitwise _, .enum _ => some t
  | .bitwise _, .int i => some ((Ty.int i.promoted).lift t.isNullable)
  | _, _ => none

/-- An operator on two operands of one type, which are brought to the type that it computes in. -/
def operate [GuidFormat] (s : Schema) (op : BinaryOp) (x y : Expr) (u : Ty) : Expr :=
  .binary op (x.coerceTo s u) (y.coerceTo s u) u

theorem coerceTo_self (s : Schema) (same : e.ty = t) : e.coerceTo s t = e :=
  if_pos same

theorem arithmetic_eq_ok_iff {o : ArithmeticOp} : arithmetic s o a b offset = .ok e ↔
    ∃ x y u, unify s o.symbol a b offset = .ok (x, y) ∧
      operationTy? (.arithmetic o) x.ty = some u ∧ e = operate s (.arithmetic o) x y u := by
  constructor
  · intro h
    obtain ⟨⟨x, y⟩, hu, h⟩ := exists_of_bind_eq_ok h
    simp only at h
    split at h
    next number =>
      cases h
      exact ⟨x, y, _, hu, if_pos number, rfl⟩
    next => cases h
  · rintro ⟨x, y, u, hu, ht, rfl⟩
    simp only [operationTy?] at ht
    split at ht
    next number =>
      cases ht
      rw [arithmetic, hu]
      exact if_pos number
    next => cases ht

theorem bitwise_eq_ok_iff {o : BitwiseOp} : bitwise s o a b offset = .ok e ↔
    ∃ x y u, unify s o.symbol a b offset = .ok (x, y) ∧
      operationTy? (.bitwise o) x.ty = some u ∧ e = operate s (.bitwise o) x y u := by
  have same {x y : Expr} (hu : unify s o.symbol a b offset = .ok (x, y)) : y.ty = x.ty := by
    obtain ⟨t, hx, hy, -⟩ := unify_represents hu
    rw [hx.ty, hy.ty]
  constructor
  · intro h
    obtain ⟨⟨x, y⟩, hu, h⟩ := exists_of_bind_eq_ok h
    have asIs : operate s (.bitwise o) x y x.ty = .binary (.bitwise o) x y x.ty := by
      rw [operate, coerceTo_self s rfl, coerceTo_self s (same hu)]
    simp only at h
    split at h
    next boolean =>
      cases h
      exact ⟨x, y, x.ty, hu, by simp only [operationTy?, boolean], asIs.symm⟩
    next d enum =>
      cases h
      exact ⟨x, y, x.ty, hu, by simp only [operationTy?, enum], asIs.symm⟩
    next i int =>
      cases h
      exact ⟨x, y, _, hu, by simp only [operationTy?, int], rfl⟩
    next => cases h
  · rintro ⟨x, y, u, hu, ht, rfl⟩
    have asIs : operate s (.bitwise o) x y x.ty = .binary (.bitwise o) x y x.ty := by
      rw [operate, coerceTo_self s rfl, coerceTo_self s (same hu)]
    simp only [bitwise, hu, bind, Except.bind]
    cases base : x.ty.nonNullable with
    | boolean | enum d =>
      simp only [operationTy?, base, Option.some.injEq] at ht
      rw [← ht, asIs]
      rfl
    | int i =>
      simp only [operationTy?, base, Option.some.injEq] at ht
      rw [← ht]
      rfl
    | _ => simp only [operationTy?, base, reduceCtorEq] at ht

/-- A commutative operator is bound if there is a type for both operands in which it computes. -/
theorem binary_eq_ok_iff (comm : op.isCommutative = true) (ha : a.ty ≠ .string)
    (hb : b.ty ≠ .string) : binary s op a b offset = .ok e ↔
      ∃ x y u, unify s op.symbol a b offset = .ok (x, y) ∧ operationTy? op x.ty = some u ∧
        e = operate s op x y u := by
  cases op with
  | arithmetic o =>
    cases o with
    | add =>
      show sum s a b offset = .ok e ↔ _
      rw [sum, if_neg (not_or.2 ⟨ha, hb⟩)]
      exact arithmetic_eq_ok_iff
    | mul => exact arithmetic_eq_ok_iff
    | _ => cases comm
  | bitwise o => exact bitwise_eq_ok_iff
  | _ => cases comm

/-! ## The type of an operation -/

open Ty (isNumeric_promoted nonNullable_lift_of_isNumeric)

/-- Numbers are computed with as they are, or widened. -/
theorem implicit_promoted (number : t.nonNullable.isNumeric = true) :
    ∃ kind, t.Implicit (t.nonNullable.promoted.lift t.isNullable) kind := by
  have wide := isNumeric_promoted number
  cases t with
  | nullable t =>
    have lifted : t.promoted.nullableOf = .nullable t.promoted := by
      cases t with
      | int _ | single | double => rfl
      | _ => cases number
    refine ⟨.nullableWrap, ?_⟩
    show Ty.Implicit _ t.promoted.nullableOf _
    rw [lifted]
    exact .wrapNumber (Ty.isNumericLike_of_isNumeric number) wide
  | _ => exact ⟨_, .numericWidening number wide⟩

/-- An operator computes in the type of its operands, or in one that it converts to. -/
theorem implicit_of_operationTy? (h : operationTy? op t = some u) : ∃ kind, t.Implicit u kind := by
  unfold operationTy? at h
  split at h
  · split at h
    next number =>
      cases h
      exact implicit_promoted number
    next => cases h
  · cases h
    exact ⟨_, .identity t⟩
  · cases h
    exact ⟨_, .identity t⟩
  next i int =>
    cases h
    have number := implicit_promoted (t := t) (by rw [int]; rfl)
    rwa [int] at number
  · cases h

/-- Nothing is computed in records. -/
theorem not_record_of_operationTy? (h : operationTy? op t = some u) (d : RecordDef) :
    t ≠ .record d := by
  rintro rfl
  cases op <;> cases h

/-- The type in which an operator computes is one that it takes. -/
theorem takes_of_operationTy? (h : operationTy? op t = some u) :
    (∃ o, op = .arithmetic o ∧ u.nonNullable.isArithmetic = true) ∨
      ∃ o, op = .bitwise o ∧ u.nonNullable.isBitwise = true := by
  unfold operationTy? at h
  split at h
  next o =>
    split at h
    next number =>
      cases h
      rw [nonNullable_lift_of_isNumeric (isNumeric_promoted number)]
      exact Or.inl ⟨o, rfl, Ty.isArithmetic_promoted number⟩
    next => cases h
  next o base =>
    cases h
    exact Or.inr ⟨o, rfl, by rw [base]; rfl⟩
  next o d base =>
    cases h
    exact Or.inr ⟨o, rfl, by rw [base]; rfl⟩
  next o i base =>
    cases h
    rw [nonNullable_lift_of_isNumeric rfl]
    exact Or.inr ⟨o, rfl, by cases i <;> rfl⟩
  · cases h

theorem result_not_record_of_operationTy? (h : operationTy? op t = some u) (d : RecordDef) :
    u ≠ .record d := by
  rintro rfl
  rcases takes_of_operationTy? h with ⟨o, -, takes⟩ | ⟨o, -, takes⟩ <;> cases takes

/-! ## Operands -/

/-- An operand that was made of an expression by conversions which look at no identities, and do not
fail on values of the type of the expression. -/
structure Converts [GuidFormat] (l a : Expr) (u : Ty) (f : Value → Except EvalError Value) :
    Prop where
  follows : l.Follows a f
  blind : Blind f
  total : ∀ v : Value, v.Conforms a.ty → (∀ k, a.constant? = some k → v = k) →
    ∃ w, f v = .ok w ∧ w.Conforms u

theorem converts_coerceTo (hx : x.Represents s a t) (admits : Admits s a t)
    (computes : operationTy? op t = some u) : ∃ f, Converts (x.coerceTo s u) a u f := by
  obtain ⟨kind, implicit⟩ := implicit_of_operationTy? computes
  have plain : s.declared? a.ty t = none :=
    s.declared?_eq_none _ (not_record_of_operationTy? computes)
  have plain' : s.declared? t u = none :=
    s.declared?_eq_none _ (result_not_record_of_operationTy? computes)
  refine ⟨fun v => v.viewAs a.ty t >>= Value.viewAs t u, ?_,
    (blind_viewAs _ _).trans (blind_viewAs _ _), ?_⟩
  · exact (Expr.Represents.coerceTo s x u).follows_trans hx plain plain' implicit.acceptsNull_of
  · intro v hv hc
    obtain ⟨w, hw, conforms⟩ := admits.viewAs plain hv hc
    obtain ⟨r, hr, conforms⟩ := implicit.viewAs conforms
    exact ⟨r, by rw [hw]; exact hr, conforms⟩

/-- Exchanged operands are bound to the same operands, exchanged. -/
theorem binary_exchanged (offset' : Nat) (comm : op.isCommutative = true) (ha : a.ty ≠ .string)
    (hb : b.ty ≠ .string) (apart : ¬ MutuallyAdapt a b) (h : binary s op a b offset = .ok e) :
    ∃ l r u f g, e = .binary op l r u ∧ binary s op b a offset' = .ok (.binary op r l u) ∧
      Converts l a u f ∧ Converts r b u g ∧ ∃ t, operationTy? op t = some u := by
  obtain ⟨x, y, u, hu, computes, rfl⟩ := (binary_eq_ok_iff comm ha hb).1 h
  obtain ⟨t, hx, hy, admits, admits'⟩ := unify_represents hu
  have swapped : unify s op.symbol b a offset' = .ok (y, x) :=
    unify_swap apart hu (Or.inr (not_record_of_operationTy? computes))
  rw [hx.ty] at computes
  obtain ⟨f, hf⟩ := converts_coerceTo hx admits computes
  obtain ⟨g, hg⟩ := converts_coerceTo hy admits' computes
  refine ⟨_, _, u, f, g, rfl, ?_, hf, hg, t, computes⟩
  refine (binary_eq_ok_iff comm hb ha).2 ⟨y, x, u, swapped, ?_, rfl⟩
  rw [hy.ty, computes]

/-! ## Evaluation -/

theorem evaluate_operation (comm : op.isCommutative = true) :
    (Expr.binary op l r u).evaluate frames =
      l.evaluateBoth r frames >>= fun z => liftM (Value.combine op z.1 z.2) := by
  cases op with
  | arithmetic o | bitwise o =>
    simp only [Expr.evaluateBoth, bind_assoc, pure_bind]
    rfl
  | _ => cases comm

/-- A commutative operator on outcomes in either order. -/
theorem combine_pairUp_comm (comm : op.isCommutative = true) (π : Identity → Identity)
    (p q : Except EvalError Value) :
    (pairUp p q >>= fun z => Value.combine op z.1 z.2) = .ok v ↔
      (pairUp (q.map (Value.rename π)) (p.map (Value.rename π)) >>=
        fun z => Value.combine op z.1 z.2) = .ok v := by
  cases p with
  | error e => cases q <;> exact ⟨nofun, nofun⟩
  | ok x =>
    cases q with
    | error e => exact ⟨nofun, nofun⟩
    | ok y =>
      show Value.combine op x y = _ ↔ Value.combine op (y.rename π) (x.rename π) = _
      rw [Value.combine_rename]
      exact ⟨Value.combine_comm comm, Value.combine_comm comm⟩

/-- A commutative operator gives a value for operands of a type that it computes in. -/
theorem combine_total (comm : op.isCommutative = true) (computes : operationTy? op t = some u)
    (hv : v.Conforms u) (hw : w.Conforms u) : ∃ r, Value.combine op v w = .ok r := by
  have meets : Meets (Value.combine op v w) (·.Conforms u) fun _ => False := by
    rcases takes_of_operationTy? computes with ⟨o, rfl, takes⟩ | ⟨o, rfl, takes⟩
    · refine (hv.meets_arithmetic o hw takes).mono_error fun _ he => ?_
      cases o with
      | add | sub | mul => cases he.1
      | div | rem => cases comm
    · exact hv.meets_bitwise o hw takes
  obtain ⟨r, hr, -⟩ := meets.exists_ok
  exact ⟨r, hr⟩

/-- **Commutative operators do not depend on the order of their operands**, unless both operands are
constants that adapt to each other.  They are bound to trees of one type or not at all; and where
the order of evaluation does not matter, both trees give the same value if either gives one, as they
do for values of the types of the operands. -/
theorem binary_commutes (comm : op.isCommutative = true) (ha : a.ty ≠ .string) (hb : b.ty ≠ .string)
    (apart : ¬ MutuallyAdapt a b) :
    ((∃ e, binary s op a b offset = .ok e) ↔ ∃ e, binary s op b a offset' = .ok e) ∧
    ∀ e e', binary s op a b offset = .ok e → binary s op b a offset' = .ok e' →
      e.ty = e'.ty ∧
      ∀ frames st v w, (a.evaluateBoth b frames st).1 = .ok (v, w) → a.Exchanges b frames st →
        (∀ r, (e.evaluate frames st).1 = .ok r ↔ (e'.evaluate frames st).1 = .ok r) ∧
        (v.Conforms a.ty → w.Conforms b.ty → w.isPlain = true →
          ∃ r, (e.evaluate frames st).1 = .ok r) := by
  refine ⟨⟨?_, ?_⟩, ?_⟩
  · rintro ⟨e, h⟩
    obtain ⟨l, r, u, f, g, -, swapped, -⟩ := binary_exchanged offset' comm ha hb apart h
    exact ⟨_, swapped⟩
  · rintro ⟨e, h⟩
    obtain ⟨l, r, u, f, g, -, swapped, -⟩ :=
      binary_exchanged offset comm hb ha (fun both => apart both.symm) h
    exact ⟨_, swapped⟩
  intro e e' h h'
  obtain ⟨l, r, u, f, g, rfl, swapped, hl, hr, t, computes⟩ :=
    binary_exchanged offset' comm ha hb apart h
  obtain rfl := Except.ok.inj (swapped.symm.trans h')
  refine ⟨rfl, fun frames st v w run swap => ?_⟩
  obtain ⟨π, p, q, -, forth, back, first, second⟩ :=
    hl.follows.outcomes hr.follows hl.blind hr.blind run swap
  rw [evaluate_operation comm, evaluate_operation comm, bind_lift_fst, bind_lift_fst, forth, back]
  refine ⟨fun _ => combine_pairUp_comm comm π p q, fun hv hw plain => ?_⟩
  obtain ⟨st₁, st₂, hrun, hrun'⟩ := Expr.runs_of_evaluateBoth run
  obtain ⟨x, hx, conforms⟩ := hl.total v hv fun _ hk => Expr.eq_of_constant? hk hrun
  obtain ⟨y, hy, conforms'⟩ := hr.total w hw fun _ hk => Expr.eq_of_constant? hk hrun'
  have right : q = .ok .null ∨ q = .ok y := by
    rcases second with second | ⟨ρ, second⟩
    · exact Or.inl second
    · rw [Value.rename_of_isPlain plain] at second
      exact Or.inr (second.trans hy)
  rcases first with rfl | rfl
  · rw [hx]
    rcases right with rfl | rfl
    · exact ⟨.null, Value.combine_null_right op x⟩
    · exact combine_total comm computes conforms conforms'
  · rcases right with rfl | rfl <;> exact ⟨.null, rfl⟩

/-- The number of 64 bits. -/
def word64 (n : Int) : Value := .int .int64 (Word.wrap .int64 n)

/-- The literal `1`. -/
def one : Expr := .literal (Value.int32 1) (.int .int32)

/-- An element of 64 bits. -/
def element64 : Expr := .parameter 0 (.int .int64)

/-- The tree of `1 + $`. -/
def onePlus : Expr :=
  .binary (.arithmetic .add) (.literal (word64 1) (.int .int64)) element64 (.int .int64)

/-- The tree of `$ + 1`. -/
def plusOne : Expr :=
  .binary (.arithmetic .add) element64 (.literal (word64 1) (.int .int64)) (.int .int64)

end

theorem binary_commutes_onePlus :
    binary Schema.empty (.arithmetic .add) one element64 0 = .ok onePlus ∧
      binary Schema.empty (.arithmetic .add) element64 one 0 = .ok plusOne ∧
      onePlus.ty = plusOne.ty ∧ ∃ r, (onePlus.evaluate [word64 5] .empty).1 = .ok r ∧
        (plusOne.evaluate [word64 5] .empty).1 = .ok r := by
  have bound : binary Schema.empty (.arithmetic .add) one element64 0 = .ok onePlus := rfl
  have swapped : binary Schema.empty (.arithmetic .add) element64 one 0 = .ok plusOne := rfl
  have run : (one.evaluateBoth element64 [word64 5] .empty).1 =
      .ok (Value.int32 1, word64 5) := rfl
  have swap : one.Exchanges element64 [word64 5] .empty := ⟨id, fun _ _ => id, rfl⟩
  obtain ⟨ty, values⟩ :=
    (binary_commutes rfl (by decide) (by decide) (not_mutuallyAdapt (Or.inr rfl))).2
      _ _ bound swapped
  obtain ⟨same, total⟩ := values _ _ _ _ run swap
  obtain ⟨r, hr⟩ := total (.int .int32 _) (.int .int64 _) rfl
  exact ⟨bound, swapped, ty, r, hr, (same r).1 hr⟩

/-- The literal `2147483647`. -/
def greatest : Expr := .literal (Value.int32 2147483647) (.int .int32)

/-- The literal `1L`. -/
def wideOne : Expr := .literal (word64 1) (.int .int64)

/-- The sum of the two, in 32 bits. -/
def narrowSum : Expr := .binary (.arithmetic .add) greatest one (.int .int32)

/-- The sum of the two with the operands exchanged, in 64 bits. -/
def wideSum : Expr :=
  .binary (.arithmetic .add) wideOne (.literal (word64 2147483647) (.int .int64)) (.int .int64)

/-- The comparison of the two sums. -/
def exchangedSums : Source :=
  ⟨"(2147483647 + 1L) = (1L + 2147483647)", .int .int32, [], true⟩

/-- Of two constants that adapt to each other, the right one does: the type of their sum depends on
the order, and so does its value. -/
theorem constants_do_not_commute :
    (binary Schema.empty (.arithmetic .add) greatest wideOne 0 = .ok narrowSum ∧
      binary Schema.empty (.arithmetic .add) wideOne greatest 0 = .ok wideSum ∧
      narrowSum.ty ≠ wideSum.ty ∧
      (narrowSum.evaluate [] .empty).1 = .ok (Value.int32 (-2147483648)) ∧
      (wideSum.evaluate [] .empty).1 = .ok (word64 2147483648)) ∧
    exchangedSums.truth? Workspace.empty (Value.int32 0) = some false :=
  ⟨⟨rfl, rfl, by decide, rfl, rfl⟩, by decide +kernel⟩

end TypedExpr.Binding
