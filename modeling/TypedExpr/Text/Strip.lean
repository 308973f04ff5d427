/-!
# Stripping the ends of a text

Only the characters that are dropped, and the first that stays at either end, are looked at.

* `stripEnds` — the text without the leading and the trailing characters of a class.
* **`toList_stripEnds`** — the same on the list of characters.
-/

namespace TypedExpr.Text

open String

/-- What follows a position, without the leading characters of a class. -/
theorem toList_sliceFrom_skipWhile (drop : Char → Bool) {s : Slice} {pos : s.Pos}
    {before after : String} (h : pos.Splits before after) :
    (s.sliceFrom (pos.skipWhile drop)).copy.toList = after.toList.dropWhile drop := by
  induction pos using Slice.Pos.next_induction generalizing before after with
  | endPos =>
    obtain rfl := (Slice.splits_endPos_iff.1 h).2
    rw [Slice.Pos.skipWhile_bool_eq_self_iff_get.2 fun h => absurd rfl h, h.copy_sliceFrom_eq]
    rfl
  | next pos hne ih =>
    obtain ⟨after, rfl⟩ := h.exists_eq_singleton_append hne
    by_cases hdrop : drop (pos.get hne) = true
    · have hskip : pos.skip? drop = some (pos.next hne) :=
        Slice.Pos.skip?_bool_eq_some_iff.2 ⟨hne, rfl, hdrop⟩
      rw [Slice.Pos.skipWhile, hskip]
      simp [Slice.Pos.lt_next, ih h.next, hdrop]
    · rw [Slice.Pos.skipWhile_bool_eq_self_iff_get.2 fun _ => by simpa using hdrop,
        h.copy_sliceFrom_eq]
      simp [hdrop]

/-- What precedes a position, without the trailing characters of a class. -/
theorem toList_sliceTo_revSkipWhile (drop : Char → Bool) {s : Slice} {pos : s.Pos}
    {before after : String} (h : pos.Splits before after) :
    (s.sliceTo (pos.revSkipWhile drop)).copy.toList =
      (before.toList.reverse.dropWhile drop).reverse := by
  induction pos using Slice.Pos.prev_induction generalizing before after with
  | startPos =>
    obtain rfl := (Slice.splits_startPos_iff.1 h).1
    rw [Slice.Pos.revSkipWhile_bool_eq_self_iff_get.2 fun h => absurd rfl h, h.copy_sliceTo_eq]
    rfl
  | prev pos hne ih =>
    obtain ⟨before, rfl⟩ := h.exists_eq_append_singleton_of_ne_startPos hne
    by_cases hdrop : drop ((pos.prev hne).get (by simp)) = true
    · have hskip : pos.revSkip? drop = some (pos.prev hne) :=
        Slice.Pos.revSkip?_bool_eq_some_iff.2 ⟨hne, rfl, hdrop⟩
      rw [Slice.Pos.revSkipWhile, hskip]
      simp [ih h.prev, hdrop]
    · rw [Slice.Pos.revSkipWhile_bool_eq_self_iff_get.2 fun _ => by simpa using hdrop,
        h.copy_sliceTo_eq]
      simp [hdrop]

/-- Drops the leading and the trailing characters of a class. -/
def stripEnds (drop : Char → Bool) (s : String) : String :=
  ((s.dropWhile drop).dropEndWhile drop).copy

theorem toList_stripEnds (drop : Char → Bool) (s : String) :
    (stripEnds drop s).toList =
      ((s.toList.dropWhile drop).reverse.dropWhile drop).reverse := by
  have hstart : (s.dropWhile drop).copy.toList = s.toSlice.copy.toList.dropWhile drop :=
    toList_sliceFrom_skipWhile drop (Slice.splits_startPos s.toSlice)
  rw [copy_toSlice] at hstart
  rw [← hstart]
  exact toList_sliceTo_revSkipWhile drop (Slice.splits_endPos (s.dropWhile drop))

end TypedExpr.Text
