import TypedExpr.Text.CaseTable

/-!
# Letter case

* `upper`, `lower` — the full case mappings of a text.  A capital sigma at the end of a word
  becomes the final sigma; every other character is mapped by itself.
* `asciiLower`, `eqIgnoreCase` — case folding of the ASCII letters only, which is how names and
  keywords are compared.
-/

namespace TypedExpr.Text

/-! ## Mappings of characters -/

/-- A case mapping: runs of characters that map to one character, and single characters that map to
several. -/
structure CaseMapping where
  runs : BlockTable CaseRun
  expansions : BlockTable (Nat × List Nat)

namespace CaseMapping

/-- The mapping that two lists give. -/
def of (runs : List CaseRun) (expansions : List (Nat × List Nat)) : CaseMapping :=
  ⟨.of (·.first) (·.last) runs, .of (·.1) (·.1) expansions⟩

theorem find?_expansions (runs : List CaseRun) (expansions : List (Nat × List Nat)) (n : Nat) :
    ((of runs expansions).expansions.near n).find? (·.1 == n) = expansions.find? (·.1 == n) := by
  refine BlockTable.find?_near fun e he => ?_
  simp only [beq_iff_eq] at he
  omega

theorem find?_runs (runs : List CaseRun) (expansions : List (Nat × List Nat)) (n : Nat) :
    ((of runs expansions).runs.near n).find? (·.holds n) = runs.find? (·.holds n) := by
  refine BlockTable.find?_near fun r hr => ?_
  simp only [CaseRun.holds, Bool.and_eq_true, decide_eq_true_eq] at hr
  exact hr.1

/-- The characters that `c` maps to; a character outside the tables stays as it is. -/
def map (m : CaseMapping) (c : Char) : List Char :=
  let n := c.toNat
  match (m.expansions.near n).find? (·.1 == n) with
  | some e => e.2.map Char.ofNat
  | none =>
    match (m.runs.near n).find? (·.holds n) with
    | some r => [Char.ofNat (r.image n)]
    | none => [c]

/-- The first entry of either list decides. -/
theorem map_of (runs : List CaseRun) (expansions : List (Nat × List Nat)) (c : Char) :
    (of runs expansions).map c =
      match expansions.find? (·.1 == c.toNat) with
      | some e => e.2.map Char.ofNat
      | none =>
        match runs.find? (·.holds c.toNat) with
        | some r => [Char.ofNat (r.image c.toNat)]
        | none => [c] := by
  rw [map, find?_expansions, find?_runs]

end CaseMapping

/-- The mapping to upper case above ASCII. -/
def upperMapping : CaseMapping := .of upperRuns upperExpansions

/-- The mapping to lower case above ASCII. -/
def lowerMapping : CaseMapping := .of lowerRuns lowerExpansions

/-- The upper case form of one character. -/
def upperChar (c : Char) : List Char :=
  if c.toNat < 128 then [c.toUpper] else upperMapping.map c

/-- The lower case form of one character, wherever it stands. -/
def lowerChar (c : Char) : List Char :=
  if c.toNat < 128 then [c.toLower] else lowerMapping.map c

/-! ## Final sigmas -/

/-- The cased letters above ASCII. -/
def casedTable : BlockTable (Nat × Nat) := casedRanges.table

/-- The case-ignorable characters. -/
def caseIgnorableTable : BlockTable (Nat × Nat) := caseIgnorableRanges.table

/-- A letter that has a case. -/
def isCased (c : Char) : Bool :=
  c.isAlpha || (128 ≤ c.toNat && casedTable.covers c)

/-- The first character that is not case-ignorable exists and is cased. -/
def startsCased (cs : List Char) : Bool :=
  match cs.dropWhile caseIgnorableTable.covers with
  | c :: _ => isCased c
  | [] => false

/-- The capital sigma, whose lower case form depends on its place in the word. -/
def capitalSigma : Char := Char.ofNat 0x3A3

/-- The lower case sigma in the middle of a word, and at its end. -/
def smallSigma (final : Bool) : Char :=
  if final then Char.ofNat 0x3C2 else Char.ofNat 0x3C3

/-- Lower case of the characters after `before`, which is given backwards, behind the result so
far. -/
def lowerAfter (done : String) (before : List Char) : List Char → String
  | [] => done
  | c :: rest =>
    let done :=
      if c = capitalSigma then done.push (smallSigma (startsCased before && !startsCased rest))
      else (lowerChar c).foldl String.push done
    lowerAfter done (c :: before) rest

/-! ## Texts -/

/-- The text with each character mapped by itself. -/
@[inline] def mapChars (f : Char → List Char) (s : String) : String :=
  s.foldl (fun done c => (f c).foldl String.push done) ""

theorem foldl_push (cs : List Char) (done : String) :
    cs.foldl String.push done = done ++ String.ofList cs := by
  induction cs generalizing done with
  | nil => simp
  | cons c cs ih => rw [List.foldl_cons, ih, ← String.toList_inj]; simp

theorem toList_mapChars (f : Char → List Char) (s : String) :
    (mapChars f s).toList = s.toList.flatMap f := by
  have hfoldl (cs : List Char) (done : String) :
      (cs.foldl (fun done c => (f c).foldl String.push done) done).toList =
        done.toList ++ cs.flatMap f := by
    induction cs generalizing done with
    | nil => simp
    | cons c cs ih => rw [List.foldl_cons, ih, foldl_push]; simp
  simp [mapChars, hfoldl]

/-- The text in upper case. -/
def upper (s : String) : String := mapChars upperChar s

/-- The text in lower case. -/
def lower (s : String) : String :=
  if s.contains capitalSigma then lowerAfter "" [] s.toList else mapChars lowerChar s

theorem lowerAfter_eq_of_not_mem (done : String) (before : List Char) {cs : List Char}
    (h : capitalSigma ∉ cs) :
    (lowerAfter done before cs).toList = done.toList ++ cs.flatMap lowerChar := by
  induction cs generalizing done before with
  | nil => simp [lowerAfter]
  | cons c cs ih =>
    simp only [List.mem_cons, not_or] at h
    rw [lowerAfter, if_neg (Ne.symm h.1), ih _ _ h.2, foldl_push]
    simp

/-- Without a sigma the place of a character does not matter. -/
theorem lower_eq (s : String) : lower s = lowerAfter "" [] s.toList := by
  rw [lower]
  split
  · rfl
  · rename_i h
    rw [← String.toList_inj, toList_mapChars,
      lowerAfter_eq_of_not_mem _ _ (by simpa using h)]
    simp

/-! ## ASCII folding -/

/-- The text with its ASCII capitals made small. -/
def asciiLower (s : String) : String :=
  String.ofList (s.toList.map Char.toLower)

/-- Equality of texts up to the case of ASCII letters. -/
def eqIgnoreCase (a b : String) : Bool :=
  asciiLower a == asciiLower b

theorem eqIgnoreCase_refl (a : String) : eqIgnoreCase a a = true := by
  simp [eqIgnoreCase]

theorem eqIgnoreCase_comm (a b : String) : eqIgnoreCase a b = eqIgnoreCase b a := by
  simp only [eqIgnoreCase, Bool.beq_comm]

theorem eqIgnoreCase_trans {a b c : String} (hab : eqIgnoreCase a b = true)
    (hbc : eqIgnoreCase b c = true) : eqIgnoreCase a c = true := by
  simp only [eqIgnoreCase, beq_iff_eq] at *
  rw [hab, hbc]

end TypedExpr.Text
