import TypedExpr.Text.Search

/-!
# Parts of a text

Positions count characters, and the text is walked only as far as the part reaches.

* `charAt?` — the character at a position.
* `part?` — the characters of a range of positions.
* **`charAt?_eq`**, **`part?_eq`** — both agree with the list of characters.
-/

namespace TypedExpr.Text

/-- The character at a position. -/
def charAt? (s : String) (i : Nat) : Option Char := (s.drop i).front?

/-- The `length` characters from position `start`, if they lie inside the text. -/
def part? (s : String) (start length : Nat) : Option String :=
  if start + length ≤ s.length then some ((s.drop start).take length).copy else none

theorem charAt?_eq (s : String) (i : Nat) : charAt? s i = s.toList[i]? := by
  rw [charAt?, String.Slice.front?_eq, String.toList_copy_drop, List.head?_drop]

theorem part?_eq (s : String) (start length : Nat) :
    (part? s start length).map String.toList = slice? s.toList start length := by
  rw [part?, slice?, String.length_toList]
  split
  · rw [Option.map_some, String.Slice.toList_copy_take, String.toList_copy_drop]
  · rfl

end TypedExpr.Text
