/-!
# Tables of code points by blocks

A table of entries for code points or intervals of them, kept in blocks of 256 code points, so that
a look-up reads the entries of one block and not the whole table.

* `BlockTable.of` — the table of a list of entries.
* `BlockTable.near` — the entries that meet the block of a code point.
* **`BlockTable.find?_near`** — among them is the entry that the whole list gives.
-/

namespace TypedExpr.Text

/-- Entries by the blocks that they meet, and all entries for the code points behind the last
block. -/
structure BlockTable (α : Type) where
  blocks : Array (List α)
  all : List α

namespace BlockTable

variable {α : Type}

/-- The table of a list of entries, where an entry is about code points from `first` to `last`. -/
def of (first last : α → Nat) (all : List α) : BlockTable α :=
  ⟨Array.ofFn fun b : Fin 512 => all.filter fun x => first x / 256 ≤ b.val && b.val ≤ last x / 256,
    all⟩

/-- The entries that meet the block of a code point. -/
def near (t : BlockTable α) (n : Nat) : List α := (t.blocks[n / 256]?).getD t.all

theorem near_of (first last : α → Nat) (all : List α) (n : Nat) :
    (of first last all).near n =
      if n / 256 < 512 then
        all.filter fun x => first x / 256 ≤ n / 256 && n / 256 ≤ last x / 256
      else all := by
  simp only [near, of, Array.getElem?_ofFn]
  split <;> rfl

/-- **The block of a code point holds the first entry that is about it.** -/
theorem find?_near {first last : α → Nat} {all : List α} {n : Nat} {holds : α → Bool}
    (h : ∀ x, holds x = true → first x ≤ n ∧ n ≤ last x) :
    ((of first last all).near n).find? holds = all.find? holds := by
  rw [near_of]
  split
  · rw [List.find?_filter]
    refine congrArg (List.find? · all) (funext fun x => ?_)
    cases hx : holds x with
    | false => simp
    | true =>
      obtain ⟨hfirst, hlast⟩ := h x hx
      simp [Nat.div_le_div_right hfirst, Nat.div_le_div_right hlast]
  · rfl

end BlockTable

end TypedExpr.Text
