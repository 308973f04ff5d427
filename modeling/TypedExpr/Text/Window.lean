/-!
# Windows that slide over a text

A window of a fixed number of characters moves along a text, and with it goes a fingerprint of the
characters inside, so that unequal texts are told apart without a look at each character.

* `fingerprint`, `slide` — the fingerprint, and how it follows the window.
* `Spans` — what a window between two positions holds, and what follows.
* **`slide_fingerprint`**, `Spans.next` — one step of the window.
-/

namespace TypedExpr.Text

/-! ## Fingerprints -/

/-- The weight of a character against the next one. -/
def radix : UInt64 := 0x100000001B3

/-- The fingerprint of a text that one character more follows. -/
@[inline] def addPrint (print : UInt64) (c : Char) : UInt64 := print * radix + c.val.toUInt64

/-- A number that equal texts share. -/
def fingerprint (cs : List Char) : UInt64 := cs.foldl addPrint 0

/-- The fingerprint of a window one character further: `first` leaves it, where `top` is the weight
of the first character, and `next` enters. -/
@[inline] def slide (top print : UInt64) (first next : Char) : UInt64 :=
  addPrint (print - first.val.toUInt64 * top) next

theorem fingerprint_foldl (cs : List Char) (start : UInt64) :
    cs.foldl addPrint start = start * radix ^ cs.length + fingerprint cs := by
  induction cs generalizing start with
  | nil => simp [fingerprint]
  | cons c cs ih =>
    have hcons : fingerprint (c :: cs) = addPrint 0 c * radix ^ cs.length + fingerprint cs := ih _
    rw [List.foldl_cons, ih, hcons, List.length_cons]
    simp only [addPrint]
    generalize radix = r
    grind

theorem fingerprint_cons (c : Char) (cs : List Char) :
    fingerprint (c :: cs) = c.val.toUInt64 * radix ^ cs.length + fingerprint cs := by
  rw [fingerprint, List.foldl_cons, fingerprint_foldl, addPrint]
  generalize radix = r
  grind

/-- The fingerprint follows the window. -/
theorem slide_fingerprint (first next : Char) (cs : List Char) :
    slide (radix ^ cs.length) (fingerprint (first :: cs)) first next =
      fingerprint (cs ++ [next]) := by
  have hcancel (x y : UInt64) : x + y - x = y := by grind
  rw [slide, fingerprint_cons, hcancel]
  simp [fingerprint]

/-! ## Windows -/

/-- Between the positions `near` and `far` lies `window`, and `after` follows. -/
def Spans {s : String} (near far : s.Pos) (window after : String) : Prop :=
  ∃ before, near.Splits before (window ++ after) ∧ far.Splits (before ++ window) after

/-- The window at the start of a text. -/
theorem spans_startPos (s : String) (width : Nat) :
    Spans s.startPos (s.startPos.nextn width) (String.ofList (s.toList.take width))
      (String.ofList (s.toList.drop width)) := by
  refine ⟨"", ?_, by simpa using String.splits_nextn_startPos s width⟩
  rw [← String.ofList_append, List.take_append_drop, String.ofList_toList]
  exact String.splits_startPos s

/-- The first character of a window, and the text behind it. -/
theorem Spans.get {s : String} {near far : s.Pos} {first : Char} {rest after : String}
    (h : Spans near far (String.singleton first ++ rest) after) :
    ∃ hnear, near.get hnear = first ∧ (s.sliceFrom (near.next hnear)).copy = rest ++ after := by
  obtain ⟨before, hnear, -⟩ := h
  rw [String.append_assoc] at hnear
  exact ⟨hnear.ne_endPos_of_singleton, hnear.next.get_eq_of_singleton,
    hnear.next.copy_sliceFrom_eq⟩

/-- The window one character further. -/
theorem Spans.next {s : String} {near far : s.Pos} {first next : Char} {rest after : String}
    (h : Spans near far (String.singleton first ++ rest) (String.singleton next ++ after)) :
    ∃ hnear hfar, near.get hnear = first ∧ far.get hfar = next ∧
      Spans (near.next hnear) (far.next hfar) (rest ++ String.singleton next) after := by
  obtain ⟨before, hnear, hfar⟩ := h
  rw [String.append_assoc] at hnear
  refine ⟨hnear.ne_endPos_of_singleton, hfar.ne_endPos_of_singleton,
    hnear.next.get_eq_of_singleton, hfar.next.get_eq_of_singleton,
    before ++ String.singleton first, ?_, ?_⟩
  · simpa only [String.append_assoc] using hnear.next
  · simpa only [String.append_assoc] using hfar.next

/-- A window that is not empty, taken apart at its first character. -/
theorem exists_eq_singleton_append_of_length {n : Nat} {window : String} (h : window.length = n)
    (hpos : 0 < n) :
    ∃ first rest, window = String.singleton first ++ rest ∧ rest.length + 1 = n := by
  subst h
  rw [← String.length_toList] at hpos ⊢
  obtain ⟨first, cs, hcs⟩ := List.exists_cons_of_length_pos hpos
  refine ⟨first, String.ofList cs, ?_, ?_⟩
  · rw [← String.toList_inj, hcs]
    simp
  · rw [hcs]
    simp

end TypedExpr.Text
