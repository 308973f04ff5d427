import TypedExpr.Guid

/-!
# The hyphenated format of identifiers

An identifier is written by 32 hexadecimal digits, with hyphens between groups of them.  Behind the
hyphens it is the same 32 digits that are read, and they denote the identifier.

* `Guid.readDigits?_hexDigits` — all digits of an identifier denote it.
* **`Guid.hyphenated_readsBack`** — the format reads back what it writes.
-/

namespace TypedExpr

namespace Guid

variable {c : Char}

theorem hexDigits_succ (count n : Nat) : hexDigits (count + 1) n =
    Nat.digitChar (n / Nat.pow 16 count % 16) :: hexDigits count n := by
  simp [hexDigits, List.range_succ]

@[simp] theorem length_hexDigits (count n : Nat) : (hexDigits count n).length = count := by
  simp [hexDigits]

theorem mem_hexDigits {count n : Nat} (h : c ∈ hexDigits count n) :
    ∃ d < 16, Nat.digitChar d = c := by
  obtain ⟨i, -, rfl⟩ := List.mem_map.1 h
  exact ⟨_, Nat.mod_lt _ (by decide), rfl⟩

theorem hexValue?_digitChar : ∀ d < 16, hexValue? (Nat.digitChar d) = some d := by decide

/-- The low digits of a number stand for its remainder, behind what was read before. -/
theorem foldlM_hexDigits (count n start : Nat) :
    (hexDigits count n).foldlM (fun n c => (hexValue? c).map (16 * n + ·)) start =
      some (start * Nat.pow 16 count + n % Nat.pow 16 count) := by
  induction count generalizing start with
  | zero => simp [hexDigits, Nat.mod_one]
  | succ count ih =>
    have digit := hexValue?_digitChar (n / Nat.pow 16 count % 16) (Nat.mod_lt _ (by decide))
    have split := Nat.mod_pow_succ (x := n) (b := 16) (k := count)
    rw [hexDigits_succ, List.foldlM_cons, digit]
    simp only [Option.map_some, Option.bind_eq_bind, Option.bind_some, ih, Option.some.injEq]
    simp only [Nat.pow_eq] at split ⊢
    rw [split, Nat.pow_succ, Nat.add_mul, Nat.mul_comm (16 ^ count) 16, Nat.mul_comm 16 start,
      Nat.mul_assoc, Nat.mul_comm (n / 16 ^ count % 16)]
    omega

/-- All digits of an identifier denote it. -/
theorem readDigits?_hexDigits (g : Guid) : readDigits? (hexDigits 32 g.bits.toNat) = some g := by
  have whole : g.bits.toNat % Nat.pow 16 32 = g.bits.toNat := Nat.mod_eq_of_lt g.bits.isLt
  rw [readDigits?, if_pos (length_hexDigits 32 _), hexNumber?, foldlM_hexDigits, whole]
  simp

/-- Between the hyphens, five groups of digits are read as one. -/
theorem readGroups?_groups {as bs cs ds es : List Char} (ha : as.length = 8) (hb : bs.length = 4)
    (hc : cs.length = 4) (hd : ds.length = 4) (he : es.length = 12) :
    readGroups? (as ++ '-' :: bs ++ '-' :: cs ++ '-' :: ds ++ '-' :: es) =
      readDigits? (as ++ bs ++ cs ++ ds ++ es) := by
  simp [readGroups?, List.drop_append, List.drop_of_length_le, ha, hb, hc, hd, he]

/-- The text of an identifier is its digits in groups of 8, 4, 4, 4 and 12. -/
theorem toList_groups (g : Guid) : ∃ as bs cs ds es : List Char,
    g.groups.toList = as ++ '-' :: bs ++ '-' :: cs ++ '-' :: ds ++ '-' :: es ∧
      as ++ bs ++ cs ++ ds ++ es = hexDigits 32 g.bits.toNat ∧
      as.length = 8 ∧ bs.length = 4 ∧ cs.length = 4 ∧ ds.length = 4 ∧ es.length = 12 := by
  refine ⟨_, _, _, _, _, String.toList_ofList, ?_, by simp⟩
  generalize hexDigits 32 g.bits.toNat = all
  have joined (m k : Nat) : (all.drop m).take k ++ all.drop (m + k) = all.drop m := by
    rw [← List.drop_drop, List.take_append_drop]
  simp only [List.append_assoc]
  rw [joined 16 4, joined 12 4, joined 8 4, List.take_append_drop]

/-- What is true of the hyphen and of all digits is true of the characters of an identifier. -/
theorem of_mem_groups {g : Guid} {P : Char → Prop} (hyphen : P '-')
    (digit : ∀ d < 16, P (Nat.digitChar d)) (h : c ∈ g.groups.toList) : P c := by
  obtain ⟨as, bs, cs, ds, es, text, digits, -⟩ := g.toList_groups
  have among : c = '-' ∨ c ∈ as ++ bs ++ cs ++ ds ++ es := by
    simp only [text, List.mem_append, List.mem_cons] at h ⊢
    rcases h with (((h | rfl | h) | rfl | h) | rfl | h) | rfl | h <;> simp [*]
  rcases among with rfl | among
  · exact hyphen
  · rw [digits] at among
    obtain ⟨d, small, rfl⟩ := mem_hexDigits among
    exact digit d small

/-- An identifier is not written with a scheme, since `u` is no digit. -/
theorem take_groups_ne (g : Guid) :
    (g.groups.toList.take "urn:uuid:".toList.length).map Char.toLower ≠ "urn:uuid:".toList := by
  intro same
  have front : 'u' ∈ "urn:uuid:".toList := by decide
  rw [← same] at front
  obtain ⟨c, among, lower⟩ := List.mem_map.1 front
  exact of_mem_groups (P := fun c => c.toLower ≠ 'u') (by decide) (by decide)
    (List.mem_of_mem_take among) lower

theorem readForms?_groups (g : Guid) : readForms? g.groups = some g := by
  obtain ⟨as, bs, cs, ds, es, text, digits, ha, hb, hc, hd, he⟩ := g.toList_groups
  have length : g.groups.toList.length = 36 := by simp [text, ha, hb, hc, hd, he]
  have groups : readGroups? g.groups.toList = some g := by
    rw [text, readGroups?_groups ha hb hc hd he, digits, readDigits?_hexDigits]
  have short : ¬ g.groups.length > 45 := by
    rw [← String.length_toList, length]
    decide
  simp only [readForms?, if_neg short, length, if_neg g.take_groups_ne, groups]
  exact if_neg (by decide)

/-- **An identifier is read back from its groups of digits.** -/
theorem hyphenated_readsBack : hyphenated.ReadsBack where
  digits _ _ among :=
    of_mem_groups (P := fun c => c = '-' ∨ (hexValue? c).isSome) (Or.inl rfl) (by decide) among
  read?_text := readForms?_groups

end Guid

end TypedExpr
