import TypedExpr.Text.CharRange
import TypedExpr.Text.Strip

/-!
# Blanks

The Unicode property White_Space, which separates tokens and is trimmed from texts that are read
as values.
-/

namespace TypedExpr.Text

/-- The property White_Space. -/
def blankRanges : CharRanges := [
  (0x9, 0xD), (0x20, 0x20), (0x85, 0x85), (0xA0, 0xA0), (0x1680, 0x1680), (0x2000, 0x200A),
  (0x2028, 0x2029), (0x202F, 0x202F), (0x205F, 0x205F), (0x3000, 0x3000)]

/-- A blank in the sense of the Unicode property White_Space. -/
def isBlank (c : Char) : Bool :=
  blankRanges.covers c

/-- Drops the blanks at both ends. -/
def trim (s : String) : String :=
  stripEnds isBlank s

/-- Every character that separates words in ASCII text is a blank. -/
theorem isBlank_of_isWhitespace {c : Char} (h : c.isWhitespace = true) : isBlank c = true := by
  simp only [Char.isWhitespace, Bool.or_eq_true, decide_eq_true_eq] at h
  rcases h with ((rfl | rfl) | rfl) | rfl <;> decide

end TypedExpr.Text
