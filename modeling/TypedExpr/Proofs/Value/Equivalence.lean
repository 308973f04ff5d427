import Mathlib.Data.List.Forall2
import TypedExpr.Proofs.Value.Mirror
import TypedExpr.Proofs.Value.Parts
import TypedExpr.Proofs.Value.Renaming

/-!
# Equality of values is an equivalence

Two values are equal because they are the same object, sequence or grouping, or because their
contents are equal; and at every level of nesting the reason may be another one.  Equality is an
equivalence nevertheless, where an identity stands for one content and nothing is a floating-point
number.

* `Value.Alike` — equality by content.
* `Value.equals_iff` — the two reasons.
* `Value.Agrees`, `Value.Coherent` — one content for each identity.
* **`Value.equals_trans`**, **`Value.equals_equivalence`** — the equivalence.
-/

namespace TypedExpr.Value

variable {a b c v w : Value}

/-! ## Why values are equal -/

/-- Whether the value is a floating-point number. -/
def isFloat : Value → Bool
  | .single _ | .double _ => true
  | _ => false

/-- Whether both are objects, both sequences or both groupings, and have one identity. -/
def sharesIdentity : Value → Value → Bool
  | .object i _ _, .object j _ _ | .sequence i _, .sequence j _
  | .grouping i _ _, .grouping j _ _ => i == j
  | _, _ => false

/-- Lists of values that are equal position by position. -/
abbrev AllEqual : List Value → List Value → Prop := List.Forall₂ fun v w => v.equals w = true

/-- The values have equal contents: they are one value without an identity, or they are made of
equal values in the same way.  Objects have contents only if their record is compared by them. -/
inductive Alike : Value → Value → Prop
  | plain {v : Value} (noIdentity : v.isPlain = true) : Alike v v
  | object {i j : Identity} {d : RecordDef} {as bs : List Value}
      (structural : d.equality = .structural) (fields : AllEqual as bs) :
      Alike (.object i d as) (.object j d bs)
  | sequence {i j : Identity} {as bs : List Value} (items : AllEqual as bs) :
      Alike (.sequence i as) (.sequence j bs)
  | grouping {i j : Identity} {k l : Value} {as bs : List Value} (key : k.equals l = true)
      (items : AllEqual as bs) : Alike (.grouping i k as) (.grouping j l bs)

theorem equalsAll_iff {as bs : List Value} : equalsAll as bs = true ↔ AllEqual as bs := by
  induction as generalizing bs with
  | nil => cases bs <;> simp [equalsAll]
  | cons a as ih => cases bs <;> simp [equalsAll, ih]

theorem sharesIdentity_self (h : v.isPlain = false) : v.sharesIdentity v = true := by
  cases v with
  | object | sequence | grouping => exact beq_self_eq_true _
  | _ => cases h

theorem equals_of_sharesIdentity (h : v.sharesIdentity w = true) : v.equals w = true := by
  cases v <;> cases w <;> simp_all [sharesIdentity, equals]

theorem Alike.equals (h : Alike v w) (noFloat : v.isFloat = false) : v.equals w = true := by
  cases h with
  | plain noIdentity =>
    cases v with
    | single | double => cases noFloat
    | object | sequence | grouping => cases noIdentity
    | null => rfl
    | _ => simp [Value.equals]
  | object structural fields => simp [Value.equals, structural, equalsAll_iff.2 fields]
  | sequence items => simp [Value.equals, equalsAll_iff.2 items]
  | grouping key items => simp [Value.equals, key, equalsAll_iff.2 items]

/-- Equal values without an identity are one value, unless they are floating-point numbers. -/
theorem eq_of_equals (noIdentity : a.isPlain = true) (noFloat : a.isFloat = false)
    (h : a.equals b = true) : a = b := by
  cases a with
  | object | sequence | grouping => cases noIdentity
  | single | double => cases noFloat
  | int t m =>
    cases b with
    | int u n =>
      simp only [equals, Bool.and_eq_true, beq_iff_eq] at h
      obtain ⟨rfl, same⟩ := h
      rw [Word.ext same]
    | _ => cases h
  | _ => cases b <;> simp_all [equals]

theorem Alike.isFloat_eq (h : Alike v w) : v.isFloat = w.isFloat := by
  cases h <;> rfl

/-- **Why values are equal**: they are the same one, or have equal contents. -/
theorem equals_iff (noFloat : a.isFloat = false) :
    a.equals b = true ↔ a.sharesIdentity b = true ∨ Alike a b := by
  constructor
  · intro equal
    cases a with
    | object i d as =>
      cases b with
      | object j e bs =>
        simp only [equals, Bool.or_eq_true, Bool.and_eq_true, beq_iff_eq, equalsAll_iff] at equal
        rcases equal with same | ⟨⟨rfl, structural⟩, fields⟩
        · exact Or.inl (beq_iff_eq.2 same)
        · exact Or.inr (.object structural fields)
      | _ => cases equal
    | sequence i as =>
      cases b with
      | sequence j bs =>
        simp only [equals, Bool.or_eq_true, beq_iff_eq, equalsAll_iff] at equal
        exact equal.imp beq_iff_eq.2 .sequence
      | _ => cases equal
    | grouping i k as =>
      cases b with
      | grouping j l bs =>
        simp only [equals, Bool.or_eq_true, Bool.and_eq_true, beq_iff_eq, equalsAll_iff] at equal
        rcases equal with same | ⟨key, items⟩
        · exact Or.inl (beq_iff_eq.2 same)
        · exact Or.inr (.grouping key items)
      | _ => cases equal
    | _ =>
      rw [← eq_of_equals rfl noFloat equal]
      exact Or.inr (.plain rfl)
  · rintro (same | alike)
    · exact equals_of_sharesIdentity same
    · exact alike.equals noFloat

/-! ## One content for each identity -/

/-- Whatever is inside of the two values and shares an identity has one content. -/
def Agrees (v w : Value) : Prop :=
  ∀ p ∈ v.parts, ∀ q ∈ w.parts, p.sharesIdentity q = true → p = q

/-- An identity stands for one content in all the values of a set and inside of them. -/
def Coherent (S : Value → Prop) : Prop := ∀ v w, S v → S w → v.Agrees w

/-- Nothing inside of the value is a floating-point number. -/
def FloatFree (v : Value) : Prop := ∀ p ∈ v.parts, p.isFloat = false

theorem Agrees.mono (h : a.Agrees b) (hv : v.parts ⊆ a.parts) (hw : w.parts ⊆ b.parts) :
    v.Agrees w :=
  fun p hp q hq => h p (hv hp) q (hw hq)

theorem Agrees.eq (h : a.Agrees b) (same : a.sharesIdentity b = true) : a = b :=
  h a (mem_parts_self a) b (mem_parts_self b) same

theorem FloatFree.mono (h : a.FloatFree) (hv : v.parts ⊆ a.parts) : v.FloatFree :=
  fun p hp => h p (hv hp)

theorem FloatFree.isFloat (h : a.FloatFree) : a.isFloat = false := h a (mem_parts_self a)

/-! ## The equivalence -/

/-- A value equals itself, unless it is a floating-point number. -/
theorem equals_self (noFloat : a.isFloat = false) : a.equals a = true := by
  rw [equals_iff noFloat]
  cases plain : a.isPlain with
  | true => exact Or.inr (.plain plain)
  | false => exact Or.inl (sharesIdentity_self plain)

/-- Lists of equal values, one after the other. -/
theorem AllEqual.trans {as bs cs : List Value} (hab : AllEqual as bs) (hbc : AllEqual bs cs)
    (h : ∀ a ∈ as, ∀ b ∈ bs, ∀ c ∈ cs, a.equals b = true → b.equals c = true →
      a.equals c = true) : AllEqual as cs := by
  induction hab generalizing cs with
  | nil => exact hbc
  | cons first _ ih =>
    cases hbc with
    | cons first' others' =>
      refine .cons ?_ (ih others' ?_)
      · exact h _ List.mem_cons_self _ List.mem_cons_self _ List.mem_cons_self first first'
      · intro a ha b hb c hc
        exact h a (List.mem_cons_of_mem _ ha) b (List.mem_cons_of_mem _ hb) c
          (List.mem_cons_of_mem _ hc)

/-- A step by identity changes nothing; it remains to combine two steps by content. -/
theorem equals_trans_of (noFloat : a.isFloat = false) (hab : a.Agrees b) (hbc : b.Agrees c)
    (h : a.equals b = true) (h' : b.equals c = true)
    (content : Alike a b → Alike b c → Alike a c) : a.equals c = true := by
  rcases (equals_iff noFloat).1 h with same | alike
  · rwa [hab.eq same]
  · rcases (equals_iff (alike.isFloat_eq ▸ noFloat)).1 h' with same | alike'
    · rwa [← hbc.eq same]
    · exact (content alike alike').equals noFloat

/-- **Equality is transitive** where an identity stands for one content. -/
theorem equals_trans (free : a.FloatFree) (hab : a.Agrees b) (hbc : b.Agrees c)
    (h : a.equals b = true) (h' : b.equals c = true) : a.equals c = true := by
  induction a using nested_induction generalizing b c with
  | object i d as ih =>
    refine equals_trans_of rfl hab hbc h h' fun alike alike' => ?_
    cases alike with
    | plain noIdentity => cases noIdentity
    | object structural fields =>
      cases alike' with
      | plain noIdentity => cases noIdentity
      | object _ fields' =>
        refine .object structural (fields.trans fields' fun x hx y hy z hz => ?_)
        exact ih x hx (free.mono (parts_field hx)) (hab.mono (parts_field hx) (parts_field hy))
          (hbc.mono (parts_field hy) (parts_field hz))
  | sequence i as ih =>
    refine equals_trans_of rfl hab hbc h h' fun alike alike' => ?_
    cases alike with
    | plain noIdentity => cases noIdentity
    | sequence items =>
      cases alike' with
      | plain noIdentity => cases noIdentity
      | sequence items' =>
        refine .sequence (items.trans items' fun x hx y hy z hz => ?_)
        exact ih x hx (free.mono (parts_item hx)) (hab.mono (parts_item hx) (parts_item hy))
          (hbc.mono (parts_item hy) (parts_item hz))
  | grouping i k as ihKey ih =>
    refine equals_trans_of rfl hab hbc h h' fun alike alike' => ?_
    cases alike with
    | plain noIdentity => cases noIdentity
    | grouping key items =>
      cases alike' with
      | plain noIdentity => cases noIdentity
      | grouping key' items' =>
        refine .grouping ?_ (items.trans items' fun x hx y hy z hz => ?_)
        · exact ihKey (free.mono parts_key) (hab.mono parts_key parts_key)
            (hbc.mono parts_key parts_key) key key'
        · exact ih x hx (free.mono (parts_member hx))
            (hab.mono (parts_member hx) (parts_member hy))
            (hbc.mono (parts_member hy) (parts_member hz))
  | _ => rwa [eq_of_equals rfl free.isFloat h]

/-- **Equality is an equivalence.**  On any set of values without floating-point numbers inside of
them, in which an identity stands for one content, equality is reflexive, symmetric and transitive,
however sequences, groupings and objects of either kind are nested. -/
theorem equals_equivalence {S : Value → Prop} (coherent : Coherent S)
    (free : ∀ v, S v → v.FloatFree) :
    Equivalence fun v w : { v // S v } => v.1.equals w.1 = true where
  refl v := equals_self (free v.1 v.2).isFloat
  symm {v w} h := by rwa [equals_comm]
  trans {u v w} h h' :=
    equals_trans (free u.1 u.2) (coherent u.1 v.1 u.2 v.2) (coherent v.1 w.1 v.2 w.2) h h'

/-- A record that is compared by its fields. -/
def boxRecord : RecordDef :=
  ⟨.declared 0, "Box", [("Items", .sequence (.int .int32))], .structural, false⟩

/-- An instance of the record, with a list of one number in it. -/
def box (id list : Identity) : Value := .object id boxRecord [.sequence list [int32 7]]

/-- Two boxes with one list in both, and a box with a list of its own. -/
def boxes : List Value := [box 0 0, box 1 0, box 2 1]

/-- The first box equals the second one by the identity of the list in it, and that one equals the
third one by the content of the lists. -/
theorem equals_equivalence_boxes :
    Coherent (· ∈ boxes) ∧ (∀ v ∈ boxes, v.FloatFree) ∧ (box 0 0).equals (box 2 1) = true := by
  have agree : ∀ p ∈ partsAll boxes, ∀ q ∈ partsAll boxes, p.sharesIdentity q = true → p = q := by
    intro p hp q hq same
    simp only [boxes, box, int32, partsAll, parts, List.cons_append, List.nil_append, List.mem_cons,
      List.not_mem_nil, or_false] at hp hq
    rcases hp with rfl | rfl | rfl | rfl | rfl | rfl | rfl | rfl | rfl <;>
      rcases hq with rfl | rfl | rfl | rfl | rfl | rfl | rfl | rfl | rfl <;>
      first | rfl | cases same
  have coherent : Coherent (· ∈ boxes) := fun v w hv hw p hp q hq =>
    agree p (parts_subset_partsAll hv hp) q (parts_subset_partsAll hw hq)
  have noFloat : ∀ p ∈ partsAll boxes, p.isFloat = false := by decide
  have free : ∀ v ∈ boxes, v.FloatFree := fun v hv p hp =>
    noFloat p (parts_subset_partsAll hv hp)
  have first : box 0 0 ∈ boxes := List.mem_cons_self
  have second : box 1 0 ∈ boxes := List.mem_cons_of_mem _ List.mem_cons_self
  have third : box 2 1 ∈ boxes :=
    List.mem_cons_of_mem _ (List.mem_cons_of_mem _ List.mem_cons_self)
  have byIdentity : (box 0 0).equals (box 1 0) = true := by decide
  have byContent : (box 1 0).equals (box 2 1) = true := by decide
  refine ⟨coherent, free, ?_⟩
  exact (equals_equivalence coherent free).trans (x := ⟨_, first⟩) (y := ⟨_, second⟩)
    (z := ⟨_, third⟩) byIdentity byContent

end TypedExpr.Value
