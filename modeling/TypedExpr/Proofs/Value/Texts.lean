import TypedExpr.Proofs.Lexing.Numerals
import TypedExpr.Proofs.Value.Casting
import TypedExpr.Proofs.Value.Hyphenated

/-!
# Values read back from their texts

The text of an integer is its digits behind a sign, that of an identifier is what its format makes
it, and that of a constant is the first name for its number, or the number itself.  Neither blanks
nor braces stand in what is written by digits, so that nothing is stripped from it before it is
read.  A name is looked up before it is read as a number, and a number that is written for want of a
name must not be found among the names: so each name must be declared once, and none may read as a
number.

* `readInt?_intText` — integers are read back from their decimal text.
* `Value.readGuid?_text` — identifiers are read back where their format does so.
* `EnumDef.Unambiguous` — the enumerations whose constants can be told from their texts.
* **`Value.cast_text`** — integers, identifiers and constants are what their text is cast to.
-/

namespace TypedExpr

/-- Nothing is stripped from a text without characters of the class. -/
theorem Text.stripEnds_eq_self {drop : Char → Bool} {s : String}
    (keep : ∀ c ∈ s.toList, drop c = false) : stripEnds drop s = s := by
  have front (cs : List Char) (keep : ∀ c ∈ cs, drop c = false) : cs.dropWhile drop = cs := by
    cases cs with
    | nil => rfl
    | cons c cs => simp [keep c]
  apply String.toList_injective
  rw [toList_stripEnds, front _ keep, front _ (by simpa using keep), List.reverse_reverse]

/-! ## Integers -/

section Integers

variable {t : IntType} {n : Int}

theorem toList_intText (n : Int) :
    (intText n).toList = (if n < 0 then ['-'] else []) ++ padded 10 0 n.natAbs := by
  simp only [intText, padded]
  split <;> simp

theorem isDigitRun_padded (zeros k : Nat) : isDigitRun (padded 10 zeros k) = true :=
  isDigitRun_iff.2 ⟨padded_ne_nil 10 zeros k, fun _ => Lexeme.isDigit_padded⟩

theorem readSign_intText (n : Int) :
    readSign (intText n).toList = (decide (n < 0), padded 10 0 n.natAbs) := by
  rw [toList_intText]
  by_cases negative : n < 0
  · simp [negative, readSign]
  · have plain := readSign_of_isDigitRun (isDigitRun_padded 0 n.natAbs) []
    simpa [negative] using plain

/-- **An integer is read back from its text**, if its magnitude fits into 64 bits. -/
theorem readInt?_intText (small : n.natAbs < 0x10000000000000000) :
    readInt? (intText n) = some n := by
  have digits : wordOfDigits? (padded 10 0 n.natAbs) = some n.natAbs :=
    numberBelow?_padded (by decide) (by decide) 0 small
  have sign : signed (decide (n < 0)) n.natAbs = n := by
    simp only [signed, decide_eq_true_eq]
    split <;> omega
  simp only [readInt?, readSign_intText, isDigitRun_padded, if_true, digits, Option.map_some, sign]

theorem trim_intText (n : Int) : Text.trim (intText n) = intText n := by
  refine Text.stripEnds_eq_self fun c among => ?_
  rw [toList_intText] at among
  rcases List.mem_append.1 among with sign | digit
  · split at sign
    next =>
      rw [List.mem_singleton.1 sign]
      decide
    next => cases sign
  · exact (Lexeme.scan_isDigit (Lexeme.isDigit_padded digit) []).1

/-- No integer of an integral type needs more than 64 bits. -/
theorem Word.natAbs_lt (a : Word t) : a.val.natAbs < 0x10000000000000000 := by
  have lo := a.min_le
  have hi := a.le_max
  cases t <;> simp only [IntType.min, IntType.max] at lo hi <;> omega

theorem Word.fit?_val (a : Word t) : fit? t a.val = some a := fit?_eq_some_iff.2 rfl

theorem Value.readNumeric?_intText (a : Word t) :
    readNumeric? (intText a.val) (.int t) = some (.int t a) := by
  simp only [readNumeric?, trim_intText, readInt?_intText a.natAbs_lt, Option.bind_some,
    a.fit?_val, Option.map_some]

theorem Value.readInt64?_intText (a : Word .int64) : readInt64? (intText a.val) = some a := by
  rw [readInt64?, trim_intText, readInt?_intText a.natAbs_lt, Option.bind_some, a.fit?_val]

end Integers

/-! ## Identifiers -/

/-- Neither digits nor hyphens are braces, so that the format reads what it wrote. -/
theorem Value.readGuid?_text {format : GuidFormat} (reads : format.ReadsBack) (g : Guid) :
    readGuid? g.text = some g := by
  have bare : Text.stripEnds (fun c => c == '\x7b' || c == '\x7d') g.text = g.text := by
    refine Text.stripEnds_eq_self fun c among => ?_
    have other : c ≠ '\x7b' ∧ c ≠ '\x7d' := by
      rcases reads.digits g c among with rfl | digit
      · decide
      · constructor <;> rintro rfl <;> exact absurd digit (by decide)
    simp [other]
  rw [readGuid?, bare]
  exact reads.read?_text g

/-! ## Constants of enumerations -/

/-- The names of the enumeration are pairwise distinct, and none of them reads as an integer of 64
bits. -/
structure EnumDef.Unambiguous (d : EnumDef) : Prop where
  distinct : (d.constants.map Prod.fst).Nodup
  worded : ∀ c ∈ d.constants, (readInt? c.1).bind (Word.fit? .int64) = none

namespace EnumDef.Unambiguous

variable {format : GuidFormat} {d : EnumDef} {n : Word .int64}

/-- Of several names for a number the first is taken, and this name is no other constant's. -/
theorem value?_nameOf? (h : d.Unambiguous) {name : String} (named : d.nameOf? n = some name) :
    d.value? name = some n := by
  obtain ⟨c, found, rfl⟩ := Option.map_eq_some_iff.1 named
  obtain rfl : c.2 = n := by simpa using List.find?_some found
  obtain ⟨before, after, split⟩ := List.append_of_mem (List.mem_of_find?_eq_some found)
  have distinct := h.distinct
  rw [split, List.map_append, List.nodup_append] at distinct
  refine List.lookup_eq_some_iff.2 ⟨before, after, split, fun p among => ?_⟩
  have other : p.1 ≠ c.1 := distinct.2.2 _ (List.mem_map_of_mem among) _ (by simp)
  simpa using other.symm

/-- No name is the decimal text of a number. -/
theorem value?_intText (h : d.Unambiguous) (n : Word .int64) :
    d.value? (intText n.val) = none := by
  refine List.lookup_eq_none_iff.2 fun c among => ?_
  have unread := h.worded c among
  simp only [bne_iff_ne, ne_eq]
  intro same
  rw [← same, readInt?_intText n.natAbs_lt, Option.bind_some, n.fit?_val] at unread
  cases unread

/-- **A constant is read back from its text**, whether it has a name or not. -/
theorem readConstant?_text [GuidFormat] (h : d.Unambiguous) (n : Word .int64) :
    Value.readConstant? d (Value.enum d n).text = some n := by
  rw [Value.readConstant?, Value.text]
  cases named : d.nameOf? n with
  | some name => rw [Option.getD_some, h.value?_nameOf? named, Option.some_or]
  | none => rw [Option.getD_none, h.value?_intText, Option.none_or, Value.readInt64?_intText]

end EnumDef.Unambiguous

/-! ## Values -/

namespace Value

/-- The integers, the identifiers, and the constants of enumerations without ambiguous names. -/
def IsTextual : Value → Prop
  | .int .. | .guid _ => True
  | .enum d _ => d.Unambiguous
  | _ => False

section

variable {format : GuidFormat} {v w : Value}

theorem IsTextual.castText_text (h : v.IsTextual) (reads : format.ReadsBack) :
    castText v.text v.ty = .ok v := by
  cases v with
  | int t n => simp only [castText, text, ty, readNumeric?_intText, readAs]
  | guid g => simp only [castText, text, ty, readGuid?_text reads, Option.map_some, readAs]
  | enum d n =>
    have read := EnumDef.Unambiguous.readConstant?_text h n
    simp only [castText, ty, read, Option.map_some, readAs]
  | _ => exact h.elim

/-- The types of such values are read from texts, and are no different without null. -/
theorem IsTextual.cast_string (h : v.IsTextual) (s : String) :
    (Value.string s).cast v.ty = castText s v.ty := by
  have plain : v.ty.nonNullable = v.ty ∧ v.ty ≠ .object ∧ v.ty ≠ .string := by
    cases v with
    | int | guid | enum => exact ⟨rfl, by simp [ty]⟩
    | _ => exact h.elim
  have other : (string s).isNull = false := rfl
  rw [cast, other, plain.1, castPlain_string plain.2.1, if_neg plain.2.2]
  rfl

/-- Values of one type are told apart by their texts. -/
theorem IsTextual.eq_of_text (hv : v.IsTextual) (hw : w.IsTextual) (reads : format.ReadsBack)
    (ty : v.ty = w.ty) (text : v.text = w.text) : v = w := by
  have read := hv.castText_text reads
  rw [ty, text, hw.castText_text reads] at read
  exact (Except.ok.inj read).symm

/-- **The text of an integer, an identifier or a constant is cast back to it**, if the format of the
identifiers reads back what it writes.  This holds at both ends of each integral type, and for the
constants of an enumeration with and without a name. -/
theorem cast_text (reads : format.ReadsBack) (h : v.IsTextual) :
    v.cast .string = .ok (.string v.text) ∧ (Value.string v.text).cast v.ty = .ok v := by
  refine ⟨?_, (h.cast_string v.text).trans (h.castText_text reads)⟩
  cases v with
  | int | guid | enum => rfl
  | _ => exact h.elim

end

/-- An enumeration with two names for one number, and with a number below zero. -/
def level : EnumDef :=
  ⟨0, "Level", .int .int32,
    [("Low", Word.wrap .int64 (-1)), ("High", Word.wrap .int64 1), ("Top", Word.wrap .int64 1)],
    true⟩

theorem level_unambiguous : level.Unambiguous where
  distinct := by decide
  worded := by decide +kernel

/-- The least constant has no name, and its number is read.  An identifier is read from its groups
of digits. -/
theorem cast_text_least :
    let least := Value.enum level (Word.wrap .int64 (-0x8000000000000000))
    let id := Value.guid ⟨0x0123456789abcdef0123456789abcdef⟩
    Guid.hyphenated.ReadsBack ∧ level.Unambiguous ∧
      (∀ c ∈ level.constants, c.2 ≠ Word.wrap .int64 (-0x8000000000000000)) ∧
      (least.cast .string = .ok (.string "-9223372036854775808") ∧
        (Value.string "-9223372036854775808").cast (.enum level) = .ok least) ∧
      id.cast .string = .ok (.string "01234567-89ab-cdef-0123-456789abcdef") ∧
        (Value.string "01234567-89ab-cdef-0123-456789abcdef").cast .guid = .ok id := by
  intro least id
  have number : least.text = "-9223372036854775808" := by
    rw [Value.text]
    decide +kernel
  have groups : id.text = "01234567-89ab-cdef-0123-456789abcdef" := by
    rw [Value.text]
    decide +kernel
  have constant := cast_text Guid.hyphenated_readsBack (v := least) level_unambiguous
  have identifier := cast_text Guid.hyphenated_readsBack (v := id) trivial
  rw [number] at constant
  rw [groups] at identifier
  exact ⟨Guid.hyphenated_readsBack, level_unambiguous, by decide, constant, identifier⟩

end Value

end TypedExpr
