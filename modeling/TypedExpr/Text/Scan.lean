import TypedExpr.Text.Search
import TypedExpr.Text.Window

/-!
# Searching long texts

A window of the pattern's length slides over the text.  The pattern is compared only where the
fingerprints agree, so that long texts with long patterns take a time that grows with their length
alone.  No list of characters is built.

* `scanIndex?`, `scanContains`, `scanReplace` — search and replacement.
* **`scanIndex?_eq`**, **`toList_scanReplace`** — they agree with `indexOf?` and `replaceAll`.
-/

namespace TypedExpr.Text

/-! ## Patterns -/

/-- A pattern, its fingerprint, and the weight of its first character. -/
structure Pattern where
  text : String
  print : UInt64
  top : UInt64

/-- The pattern with this text. -/
def Pattern.of (text : String) : Pattern :=
  ⟨text, text.foldl addPrint 0, radix ^ (text.length - 1)⟩

/-- Whether the pattern stands at a position, where `print` is the fingerprint of the window. -/
@[inline] def Pattern.standsAt (p : Pattern) (s : String) (print : UInt64) (near : s.Pos) : Bool :=
  print == p.print && (s.sliceFrom near).startsWith p.text

theorem Pattern.standsAt_eq {pattern s window after : String} {near far : s.Pos}
    (h : Spans near far window after) (hlen : window.length = pattern.length) :
    (Pattern.of pattern).standsAt s (fingerprint window.toList) near =
      startsWith (window.toList ++ after.toList) pattern.toList := by
  obtain ⟨before, hnear, -⟩ := h
  have hstarts : (s.sliceFrom near).startsWith pattern = true ↔
      pattern.toList <+: window.toList ++ after.toList := by
    rw [String.Slice.startsWith_string_iff, hnear.copy_sliceFrom_eq, String.toList_append]
  rw [Bool.eq_iff_iff, startsWith_iff_isPrefix, ← hstarts]
  refine (Bool.and_eq_true _ _ ▸ and_iff_right_iff_imp).2 fun h => ?_
  have hlength : pattern.toList.length = window.toList.length := by
    rw [String.length_toList, String.length_toList, hlen]
  have hwindow : pattern.toList = window.toList :=
    (List.prefix_of_prefix_length_le (hstarts.1 h) (List.prefix_append ..)
      (Nat.le_of_eq hlength)).eq_of_length hlength
  simp [of, fingerprint, hwindow]

/-- The fingerprint of the next window. -/
theorem Pattern.slide_top {pattern : String} {rest : String} (first next : Char)
    (h : rest.length + 1 = pattern.length) :
    slide (Pattern.of pattern).top (fingerprint (String.singleton first ++ rest).toList) first
        next =
      fingerprint (rest ++ String.singleton next).toList := by
  have hrest : rest.toList.length = pattern.length - 1 := by
    rw [String.length_toList]
    omega
  simpa [of, ← hrest] using slide_fingerprint first next rest.toList

/-! ## Search -/

/-- The position of the first occurrence behind `i` characters.  The window runs from `near` to
`far`. -/
def scanIndexFrom (p : Pattern) (s : String) (print : UInt64) (near far : s.Pos) (i : Nat) :
    Option Nat :=
  if p.standsAt s print near then some i
  else if hnear : near = s.endPos then none
  else if hfar : far = s.endPos then none
  else
    scanIndexFrom p s (slide p.top print (near.get hnear) (far.get hfar)) (near.next hnear)
      (far.next hfar) (i + 1)
termination_by far

/-- The least position at which the pattern occurs. -/
def scanIndex? (pattern s : String) : Option Nat :=
  let width := pattern.length
  if width = 0 then some 0
  else if width ≤ s.length then
    scanIndexFrom (.of pattern) s ((s.take width).foldl addPrint 0) s.startPos
      (s.startPos.nextn width) 0
  else none

/-- Whether the pattern occurs somewhere. -/
def scanContains (s pattern : String) : Bool :=
  (scanIndex? pattern s).isSome

theorem scanIndexFrom_eq {pattern s window after : String} {near far : s.Pos} (i : Nat)
    (h : Spans near far window after) (hlen : window.length = pattern.length)
    (hpos : 0 < pattern.length) :
    scanIndexFrom (.of pattern) s (fingerprint window.toList) near far i =
      (indexOf? pattern.toList (window.toList ++ after.toList)).map (i + ·) := by
  induction far using String.Pos.next_induction generalizing near window after i with
  | endPos =>
    obtain rfl : after = "" := (String.splits_endPos_iff.1 h.choose_spec.2).2
    obtain ⟨first, rest, rfl, hwidth⟩ := exists_eq_singleton_append_of_length hlen hpos
    have hshort : indexOf? pattern.toList rest.toList = none :=
      indexOf?_eq_none_of_length_lt (by rw [String.length_toList, String.length_toList]; omega)
    rw [scanIndexFrom, Pattern.standsAt_eq h hlen]
    simp only [String.toList_append, String.toList_singleton, String.toList_empty, List.append_nil,
      List.singleton_append, indexOf?, hshort]
    split <;> simp
  | next far hne ih =>
    obtain ⟨after, rfl⟩ := h.choose_spec.2.exists_eq_singleton_append hne
    obtain ⟨first, rest, rfl, hwidth⟩ := exists_eq_singleton_append_of_length hlen hpos
    obtain ⟨hnear, hfar, hfirst, hnext, hspans⟩ := h.next
    have hrec := ih (i + 1) hspans (by simpa using hwidth)
    rw [scanIndexFrom, Pattern.standsAt_eq h hlen, dif_neg hnear, dif_neg hfar, hfirst,
      Pattern.slide_top first _ hwidth, hrec]
    simp only [String.toList_append, String.toList_singleton, List.append_assoc, List.cons_append]
    rw [indexOf?]
    split
    · simp
    · simp only [Option.map_map]
      congr 1
      funext n
      simp only [Function.comp]
      omega

/-- **Search by windows finds what search finds.** -/
theorem scanIndex?_eq (pattern s : String) :
    scanIndex? pattern s = indexOf? pattern.toList s.toList := by
  rw [scanIndex?]
  split
  · rename_i h
    obtain rfl := String.length_eq_zero_iff.1 h
    cases s.toList <;> rfl
  · split
    · rename_i hpos hle
      have hlen : (String.ofList (s.toList.take pattern.length)).length = pattern.length := by
        simp [String.length_toList]
        omega
      simpa [fingerprint] using scanIndexFrom_eq 0 (spans_startPos s pattern.length) hlen
        (Nat.pos_of_ne_zero hpos)
    · rename_i hlt
      rw [indexOf?_eq_none_of_length_lt (by simpa [String.length_toList] using hlt)]

theorem scanContains_eq (s pattern : String) :
    scanContains s pattern = contains s.toList pattern.toList := by
  rw [scanContains, scanIndex?_eq, contains]

/-! ## Replacement -/

/-- Replacement of a pattern in the text behind `near`.  `skip` counts the characters of the
occurrence that is being dropped, and `done` is the result so far. -/
def scanReplaceFrom (p : Pattern) (replacement s : String) (skip : Nat) (done : String)
    (print : UInt64) (near far : s.Pos) : String :=
  if hnear : near = s.endPos then done
  else
    let rest (skip : Nat) (done : String) : String :=
      if hfar : far = s.endPos then done ++ ((s.sliceFrom (near.next hnear)).drop skip).copy
      else
        scanReplaceFrom p replacement s skip done
          (slide p.top print (near.get hnear) (far.get hfar)) (near.next hnear) (far.next hfar)
    match skip with
    | skip + 1 => rest skip done
    | 0 =>
      if p.standsAt s print near then rest (p.text.length - 1) (done ++ replacement)
      else rest 0 (done.push (near.get hnear))
termination_by far

/-- Every occurrence of the pattern replaced, from the left and without overlap.  The empty
pattern occurs before every character and at the end. -/
def scanReplace (s pattern replacement : String) : String :=
  let width := pattern.length
  if width = 0 then s.foldl (fun done c => done.push c ++ replacement) replacement
  else if width = 1 then
    let first := pattern.front
    s.foldl (fun done c => if c = first then done ++ replacement else done.push c) ""
  else if width ≤ s.length then
    scanReplaceFrom (.of pattern) replacement s 0 "" ((s.take width).foldl addPrint 0) s.startPos
      (s.startPos.nextn width)
  else s

/-- Replacement from a position, given what happens behind its character. -/
theorem toList_scanReplaceFrom_step {pattern replacement s done : String} {skip : Nat}
    {print : UInt64} {near far : s.Pos} {cs : List Char} (hnear : near ≠ s.endPos)
    (hstands : (Pattern.of pattern).standsAt s print near =
      startsWith (near.get hnear :: cs) pattern.toList)
    (hrest : ∀ (skip : Nat) (done : String),
      (if hfar : far = s.endPos then done ++ ((s.sliceFrom (near.next hnear)).drop skip).copy
        else
          scanReplaceFrom (.of pattern) replacement s skip done
            (slide (Pattern.of pattern).top print (near.get hnear) (far.get hfar))
            (near.next hnear) (far.next hfar)).toList =
        done.toList ++ replaceFrom pattern.toList replacement.toList skip cs) :
    (scanReplaceFrom (.of pattern) replacement s skip done print near far).toList =
      done.toList ++
        replaceFrom pattern.toList replacement.toList skip (near.get hnear :: cs) := by
  rw [scanReplaceFrom, dif_neg hnear]
  cases skip with
  | succ skip => exact hrest skip done
  | zero =>
    simp only [hstands, replaceFrom]
    split
    · rw [hrest, String.toList_append, List.append_assoc, String.length_toList]
      rfl
    · rw [hrest, String.toList_push, List.append_assoc]
      rfl

theorem toList_scanReplaceFrom {pattern replacement s window after : String} {near far : s.Pos}
    (skip : Nat) (done : String) (h : Spans near far window after)
    (hlen : window.length = pattern.length) (hpos : 0 < pattern.length) :
    (scanReplaceFrom (.of pattern) replacement s skip done (fingerprint window.toList) near
      far).toList =
      done.toList ++
        replaceFrom pattern.toList replacement.toList skip (window.toList ++ after.toList) := by
  induction far using String.Pos.next_induction generalizing near window after skip done with
  | endPos =>
    obtain rfl : after = "" := (String.splits_endPos_iff.1 h.choose_spec.2).2
    obtain ⟨first, rest, rfl, hwidth⟩ := exists_eq_singleton_append_of_length hlen hpos
    have hstands := Pattern.standsAt_eq h hlen
    obtain ⟨hnear, rfl, hcopy⟩ := h.get
    simp only [String.toList_append, String.toList_singleton, String.toList_empty, List.append_nil,
      List.singleton_append] at hstands ⊢
    refine toList_scanReplaceFrom_step hnear hstands fun skip done => ?_
    rw [dif_pos rfl, String.toList_append, String.Slice.toList_copy_drop, hcopy,
      replaceFrom_of_length_lt skip (by simp only [String.length_toList]; omega)]
    simp
  | next far hne ih =>
    obtain ⟨after, rfl⟩ := h.choose_spec.2.exists_eq_singleton_append hne
    obtain ⟨first, rest, rfl, hwidth⟩ := exists_eq_singleton_append_of_length hlen hpos
    have hstands := Pattern.standsAt_eq h hlen
    obtain ⟨hnear, hfar, rfl, -, hspans⟩ := h.next
    have hslide := Pattern.slide_top (near.get hnear) (far.get hne) hwidth
    have hrec (skip : Nat) (done : String) := ih skip done hspans (by simpa using hwidth)
    simp only [String.toList_append, String.toList_singleton, List.append_assoc,
      List.cons_append, List.nil_append] at hstands hslide hrec ⊢
    refine toList_scanReplaceFrom_step hnear hstands fun skip done => ?_
    rw [dif_neg hne, hslide, hrec]

theorem toList_foldl_push_append (cs : List Char) (replacement done : String) :
    (cs.foldl (fun done c => done.push c ++ replacement) done).toList =
      done.toList ++ cs.flatMap fun c => c :: replacement.toList := by
  induction cs generalizing done with
  | nil => simp
  | cons c cs ih => simp [ih]

theorem toList_foldl_replace (cs : List Char) (first : Char) (replacement done : String) :
    (cs.foldl (fun done c => if c = first then done ++ replacement else done.push c) done).toList =
      done.toList ++ replaceFrom [first] replacement.toList 0 cs := by
  induction cs generalizing done with
  | nil => simp [replaceFrom]
  | cons c cs ih =>
    by_cases h : c = first
    · simp [h, ih, replaceFrom, startsWith, dropPattern?]
    · simp [h, Ne.symm h, ih, replaceFrom, startsWith, dropPattern?]

/-- **Replacement by windows replaces what replacement replaces.** -/
theorem toList_scanReplace (s pattern replacement : String) :
    (scanReplace s pattern replacement).toList =
      replaceAll s.toList pattern.toList replacement.toList := by
  rw [scanReplace]
  split
  · rename_i h
    obtain rfl := String.length_eq_zero_iff.1 h
    simp [replaceAll, toList_foldl_push_append]
  · rename_i hpos
    have hne : pattern.toList.isEmpty = false := by
      rw [← Bool.not_eq_true, List.isEmpty_iff_length_eq_zero, String.length_toList]
      exact hpos
    rw [replaceAll, hne]
    split
    · rename_i hone
      obtain ⟨first, hfirst⟩ := List.length_eq_one_iff.1 (String.length_toList.trans hone)
      simp [String.front?_eq, hfirst, toList_foldl_replace]
    split
    · rename_i hle
      have hlen : (String.ofList (s.toList.take pattern.length)).length = pattern.length := by
        simp [String.length_toList]
        omega
      simpa [fingerprint] using toList_scanReplaceFrom 0 "" (spans_startPos s pattern.length) hlen
        (Nat.pos_of_ne_zero hpos)
    · rename_i hlt
      rw [replaceFrom_of_length_lt 0 (by simpa [String.length_toList] using hlt)]
      simp

end TypedExpr.Text
