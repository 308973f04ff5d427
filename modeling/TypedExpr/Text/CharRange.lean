import TypedExpr.Text.BlockTable

/-!
# Character classes given by code point ranges

A property of Unicode characters is stored as a list of inclusive code point ranges.

* `CharRanges.covers` — whether a character lies in a range of the list.
* `CharRanges.table` — the ranges by blocks of code points, for long lists.
* **`covers_table`** — both give the same answer.
-/

namespace TypedExpr.Text

/-- Inclusive ranges of code points, in ascending order. -/
abbrev CharRanges := List (Nat × Nat)

namespace CharRanges

/-- Whether some range holds the character. -/
def covers (ranges : CharRanges) (c : Char) : Bool :=
  ranges.any fun r => r.1 ≤ c.toNat && c.toNat ≤ r.2

/-- The ranges by blocks of code points. -/
def table (ranges : CharRanges) : BlockTable (Nat × Nat) := .of (·.1) (·.2) ranges

end CharRanges

/-- Whether some range of a table holds the character. -/
def BlockTable.covers (t : BlockTable (Nat × Nat)) (c : Char) : Bool :=
  CharRanges.covers (t.near c.toNat) c

/-- **A table covers what its ranges cover.** -/
theorem covers_table (ranges : CharRanges) (c : Char) :
    ranges.table.covers c = ranges.covers c := by
  simp only [BlockTable.covers, CharRanges.covers, CharRanges.table, ← List.isSome_find?]
  rw [BlockTable.find?_near fun r hr => by simpa using hr]

end TypedExpr.Text
