/-!
# Searching in texts

Positions count characters.  All functions work on lists of characters, so that an occurrence is
a statement about `List` and no byte position appears.  They say what is found;
`TypedExpr.Text.Scan` and `TypedExpr.Text.Part` find the same without building the lists.

* `indexOf?` — the least position at which a pattern occurs.
* `replaceAll` — every occurrence replaced, scanning from the left without overlap.
* `slice?` — the characters of a range of positions, if the range lies inside the text.
-/

namespace TypedExpr.Text

/-- What follows `pattern` at the start of `cs`, if `cs` starts with it. -/
def dropPattern? : (pattern cs : List Char) → Option (List Char)
  | [], cs => some cs
  | _ :: _, [] => none
  | p :: ps, c :: cs => if p = c then dropPattern? ps cs else none

/-- Whether the text starts with the pattern. -/
def startsWith (cs pattern : List Char) : Bool :=
  (dropPattern? pattern cs).isSome

/-- The least position at which the pattern occurs. -/
def indexOf? (pattern : List Char) : List Char → Option Nat
  | [] => if startsWith [] pattern then some 0 else none
  | c :: cs => if startsWith (c :: cs) pattern then some 0 else (indexOf? pattern cs).map (· + 1)

/-- Whether the pattern occurs somewhere. -/
def contains (cs pattern : List Char) : Bool :=
  (indexOf? pattern cs).isSome

/-- Replacement of a nonempty pattern.  `skip` counts the characters of the occurrence that is
being dropped. -/
def replaceFrom (pattern replacement : List Char) : (skip : Nat) → List Char → List Char
  | _, [] => []
  | skip + 1, _ :: cs => replaceFrom pattern replacement skip cs
  | 0, c :: cs =>
    if startsWith (c :: cs) pattern then
      replacement ++ replaceFrom pattern replacement (pattern.length - 1) cs
    else c :: replaceFrom pattern replacement 0 cs

/-- Every occurrence of the pattern replaced, from the left and without overlap.  The empty
pattern occurs before every character and at the end. -/
def replaceAll (cs pattern replacement : List Char) : List Char :=
  if pattern.isEmpty then replacement ++ cs.flatMap fun c => c :: replacement
  else replaceFrom pattern replacement 0 cs

/-- The `length` characters from position `start`, if they lie inside the text. -/
def slice? (cs : List Char) (start length : Nat) : Option (List Char) :=
  if start + length ≤ cs.length then some ((cs.drop start).take length) else none

/-! ## Laws -/

/-- A text starts with a pattern exactly when it is the pattern followed by the rest. -/
theorem dropPattern?_eq_some_iff {pattern cs rest : List Char} :
    dropPattern? pattern cs = some rest ↔ cs = pattern ++ rest := by
  induction pattern generalizing cs with
  | nil => simp [dropPattern?, eq_comm]
  | cons p ps ih =>
    cases cs with
    | nil => simp [dropPattern?]
    | cons c cs =>
      by_cases h : p = c
      · subst h; simp [dropPattern?, ih]
      · simp [dropPattern?, h, Ne.symm h]

theorem startsWith_iff {cs pattern : List Char} :
    startsWith cs pattern = true ↔ ∃ rest, cs = pattern ++ rest := by
  simp only [startsWith, Option.isSome_iff_exists, dropPattern?_eq_some_iff]

theorem startsWith_iff_isPrefix {cs pattern : List Char} :
    startsWith cs pattern = true ↔ pattern <+: cs := by
  rw [startsWith_iff]
  exact exists_congr fun _ => eq_comm

theorem startsWith_eq_false_of_length_lt {cs pattern : List Char}
    (h : cs.length < pattern.length) : startsWith cs pattern = false := by
  rw [Bool.eq_false_iff]
  intro hs
  obtain ⟨rest, rfl⟩ := startsWith_iff.1 hs
  simp only [List.length_append] at h
  omega

theorem indexOf?_eq_none_of_length_lt {pattern cs : List Char} (h : cs.length < pattern.length) :
    indexOf? pattern cs = none := by
  have hstart : startsWith cs pattern = false := startsWith_eq_false_of_length_lt h
  induction cs with
  | nil => simp [indexOf?, hstart]
  | cons c cs ih =>
    have hlt : cs.length < pattern.length := by
      simp only [List.length_cons] at h
      omega
    simp [indexOf?, hstart, ih hlt (startsWith_eq_false_of_length_lt hlt)]

theorem replaceFrom_of_length_lt {pattern replacement cs : List Char} (skip : Nat)
    (h : cs.length < pattern.length) :
    replaceFrom pattern replacement skip cs = cs.drop skip := by
  induction cs generalizing skip with
  | nil => simp [replaceFrom]
  | cons c cs ih =>
    have hlt : cs.length < pattern.length := by
      simp only [List.length_cons] at h
      omega
    cases skip with
    | zero => simp [replaceFrom, startsWith_eq_false_of_length_lt h, ih 0 hlt]
    | succ skip => simp [replaceFrom, ih skip hlt]

theorem slice?_length {cs part : List Char} {start length : Nat}
    (h : slice? cs start length = some part) : part.length = length := by
  simp only [slice?] at h
  split at h
  · injection h with h; subst h; simp; omega
  · contradiction

end TypedExpr.Text
