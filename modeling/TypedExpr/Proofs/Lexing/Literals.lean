import TypedExpr.Grammar
import TypedExpr.Proofs.Lexing.Spans

/-!
# Numbers that are read have a value

The scanner of numbers takes what is read as a number later on: an integer literal has a value
unless its digits denote a number of more than 64 bits, and a real literal always has one.

* `Fraction`, `Exponent`, `IsReal` — how a real number is written.
* **`Lexeme.scan_isReal`**, `Lexer.next_isReal` — the scanner takes real numbers written so.
* **`Grammar.exists_realValue`** — and they have a value.
* `Grammar.integerNumber` — the number that an integer literal denotes.
* **`Grammar.integerValue?_eq_none`** — it has no value if this number is too large.
-/

namespace TypedExpr

/-! ## Real numbers -/

/-- A point with digits behind it, or nothing. -/
inductive Fraction : List Char → Prop
  | none : Fraction []
  | point {ds : List Char} (digits : ∀ d ∈ ds, d.isDigit = true) : Fraction ('.' :: ds)

/-- The letter of an exponent with a sign or without, and digits; or nothing. -/
inductive Exponent : List Char → Prop
  | none : Exponent []
  | letter {c : Char} {sign ds : List Char} (letter : c = 'e' ∨ c = 'E')
    (signed : sign = [] ∨ sign = ['+'] ∨ sign = ['-']) (digits : isDigitRun ds = true) :
    Exponent (c :: (sign ++ ds))

/-- Digits, perhaps a fraction, and perhaps an exponent. -/
def IsDecimal (cs : List Char) : Prop :=
  ∃ whole fraction exponent, cs = whole ++ (fraction ++ exponent) ∧ isDigitRun whole = true ∧
    Fraction fraction ∧ Exponent exponent

/-- A decimal number, and perhaps one of the letters `f` and `d`. -/
def IsReal (cs : List Char) : Prop :=
  ∃ number suffix, cs = number ++ suffix ∧ IsDecimal number ∧
    suffix.map Char.toLower ∈ [[], ['f'], ['d']]

theorem isDigitRun_iff {cs : List Char} :
    isDigitRun cs = true ↔ cs ≠ [] ∧ ∀ c ∈ cs, c.isDigit = true := by
  simp [isDigitRun]

namespace Lexeme

variable {cs : List Char} {n : Nat}

theorem takeWhile_digits (cs : List Char) : ∀ d ∈ cs.takeWhile Char.isDigit, d.isDigit = true :=
  fun _ among => List.mem_takeWhile_imp among

/-- The characters of a run are taken from the front. -/
theorem take_takeWhile (p : Char → Bool) (cs : List Char) :
    cs.take (cs.takeWhile p).length = cs.takeWhile p :=
  (List.prefix_iff_eq_take.1 (List.takeWhile_prefix p)).symm

theorem fraction_take (cs : List Char) : Fraction (cs.take (fractionLength cs)) := by
  fun_cases fractionLength cs
  case case1 => exact .none
  case case2 cs digits some =>
    rw [Nat.add_comm, List.take_succ_cons, take_takeWhile]
    exact .point (takeWhile_digits cs)
  case case3 => exact .none

theorem exists_sign (cs : List Char) : ∃ sign, cs = sign ++ (readSign cs).2 ∧
    (sign = [] ∨ sign = ['+'] ∨ sign = ['-']) := by
  fun_cases readSign cs
  case case1 cs => exact ⟨['-'], rfl, Or.inr (Or.inr rfl)⟩
  case case2 cs => exact ⟨['+'], rfl, Or.inr (Or.inl rfl)⟩
  case case3 => exact ⟨[], rfl, Or.inl rfl⟩

theorem exponent_take (cs : List Char) : Exponent (cs.take (exponentLength cs)) := by
  cases cs with
  | nil => exact .none
  | cons c cs =>
    -- The sign is what the scanner counts between the letter and the digits.
    obtain ⟨sign, whole, which⟩ := exists_sign cs
    simp only [exponentLength]
    generalize (readSign cs).2 = ds at whole ⊢
    subst whole
    split
    next letter =>
      split
      next => exact .none
      next some =>
        rw [List.length_append, Nat.add_sub_cancel, Nat.add_assoc, Nat.add_comm 1,
          List.take_succ_cons, List.take_length_add_append, take_takeWhile]
        exact .letter ((Bool.or_eq_true_iff.1 letter).imp of_decide_eq_true of_decide_eq_true)
          which (isDigitRun_iff.2 ⟨mt List.length_eq_zero_iff.2 some, takeWhile_digits ds⟩)
    next => exact .none

/-- The suffix of a real number is one of two letters, or none. -/
theorem numberKind?_real {real : Bool} {suffix : String}
    (h : numberKind? false real suffix = some .real) :
    suffix.toList ∈ [[], ['f'], ['d']] := by
  unfold numberKind? at h
  split at h
  next none =>
    subst none
    decide
  next =>
    split at h
    next => split at h <;> cases h
    next =>
      split at h
      next letter =>
        rcases List.mem_cons.1 letter with rfl | letter
        · decide
        · obtain rfl := List.mem_singleton.1 letter
          decide
      next => cases h

theorem numberKind?_hex (suffix : String) : numberKind? true false suffix ≠ some .real := by
  unfold numberKind?
  split
  · nofun
  · split
    · nofun
    · split <;> nofun

/-- If the scanner finds a real number, it is written as one. -/
def TakesReal (cs : List Char) (r : Lexeme × Nat) : Prop :=
  r.1 = .plain .real → IsReal (cs.take r.2)

theorem suffixed_real {real : Bool} {length : Nat}
    (h : (suffixed cs false real length).1 = .plain .real) :
    ∃ suffix, cs.take (suffixed cs false real length).2 = cs.take length ++ suffix ∧
      suffix.map Char.toLower ∈ [[], ['f'], ['d']] := by
  refine ⟨(cs.drop length).takeWhile Char.isAlpha, ?_, ?_⟩
  · rw [suffixed_snd, List.take_add, take_takeWhile]
  · simp only [suffixed] at h
    split at h
    next kind found =>
      obtain rfl : kind = .real := Lexeme.plain.inj h
      have letters := numberKind?_real found
      rwa [Text.asciiLower, String.toList_ofList, String.toList_ofList] at letters
    next => cases h

theorem decimal_takesReal {c : Char} (digit : c.isDigit = true) :
    TakesReal (c :: cs) (decimal (c :: cs)) := by
  have whole : (c :: cs).takeWhile Char.isDigit ≠ [] := by
    rw [List.takeWhile_cons, if_pos digit]
    exact List.cons_ne_nil _ _
  generalize c :: cs = ds at whole
  unfold decimal
  simp only
  intro h
  obtain ⟨suffix, taken, letters⟩ := suffixed_real h
  refine ⟨_, suffix, taken, ?_, letters⟩
  rw [Nat.add_assoc, List.take_add, take_takeWhile, List.take_add, List.drop_drop]
  exact ⟨_, _, _, rfl, isDigitRun_iff.2 ⟨whole, takeWhile_digits ds⟩, fraction_take _,
    exponent_take _⟩

theorem hexadecimal_takesReal {length : Nat} : TakesReal cs (suffixed cs true false length) := by
  intro h
  simp only [suffixed] at h
  split at h
  next kind found =>
    obtain rfl : kind = .real := Lexeme.plain.inj h
    exact absurd found (numberKind?_hex _)
  next => cases h

theorem number_takesReal {c : Char} (digit : c.isDigit = true) :
    TakesReal (c :: cs) (number (c :: cs)) := by
  unfold number
  split
  next x digits front =>
    simp only
    split
    · split
      · rintro ⟨⟩
      · exact hexadecimal_takesReal
    · exact decimal_takesReal digit
  next => exact decimal_takesReal digit

/-- **The scanner takes a real number.** -/
theorem scan_isReal : ∀ cs, TakesReal cs (scan cs)
  | [] => nofun
  | c :: cs => by
    apply scan_cases
    case sign =>
      intro s _
      rintro ⟨⟩
    case parameter =>
      intro _ h
      simp only [parameter] at h
      split at h
      · cases h
      · split at h <;> cases h
    case string =>
      intro _ h
      simp only [string] at h
      split at h <;> cases h
    case word =>
      intro _ h
      simp only [word] at h
      split at h <;> cases h
    case number => exact number_takesReal
    case unexpected => rintro ⟨⟩

end Lexeme

/-- The token of a real number is written as one. -/
theorem Lexer.next_isReal {l : Lexer} {t : Token} (read : l.next.1 = .ok t)
    (kind : t.kind = .real) : IsReal t.text.toList := by
  have real := Lexeme.scan_isReal l.skipBlanks.rest
  unfold Lexer.next at read
  simp only at read
  generalize Lexeme.scan l.skipBlanks.rest = r at read real
  obtain ⟨lexeme, n⟩ := r
  cases lexeme with
  | plain found =>
    obtain rfl := Except.ok.inj read
    rw [String.toList_ofList]
    exact real (congrArg Lexeme.plain kind)
  | literal content =>
    obtain rfl := Except.ok.inj read
    cases kind
  | fault cause => cases read

/-! ## The values of real numbers -/

theorem toLower_of_isDigit {c : Char} (digit : c.isDigit = true) : c.toLower = c := by
  unfold Char.isDigit at digit
  unfold Char.toLower
  rw [dif_neg]
  intro upper
  simp only [ge_iff_le, Bool.and_eq_true, decide_eq_true_eq] at digit
  have order : 'A'.val ≤ c.val ∧ c.val ≤ 'Z'.val := upper
  have range : '0'.val ≤ c.val ∧ c.val ≤ '9'.val := digit
  have crossed : 'A'.val ≤ '9'.val := UInt32.le_trans order.1 range.2
  exact absurd crossed (by decide)

theorem map_toLower_digits {ds : List Char} (digits : ∀ d ∈ ds, d.isDigit = true) :
    ds.map Char.toLower = ds := by
  conv_rhs => rw [← List.map_id ds]
  exact List.map_congr_left fun d among => toLower_of_isDigit (digits d among)

/-- The characters at the front are those of a run, if none of its kind follows. -/
theorem span_run {p : Char → Bool} {ds rest : List Char} (run : ∀ d ∈ ds, p d = true)
    (ends : ∀ c, rest.head? = some c → p c = false) :
    (ds ++ rest).takeWhile p = ds ∧ (ds ++ rest).dropWhile p = rest := by
  rw [List.takeWhile_append_of_pos run, List.dropWhile_append_of_pos run]
  cases rest with
  | nil => exact ⟨List.append_nil ds, rfl⟩
  | cons c rest =>
    have stop := ends c rfl
    rw [List.takeWhile_cons, stop, List.dropWhile_cons, stop]
    exact ⟨List.append_nil ds, rfl⟩

theorem Fraction.toLower {cs : List Char} (h : Fraction cs) : Fraction (cs.map Char.toLower) := by
  cases h with
  | none => exact .none
  | point digits =>
    rw [List.map_cons, map_toLower_digits digits]
    exact .point digits

/-- A digit is no sign. -/
theorem readSign_of_isDigit {c : Char} (digit : c.isDigit = true) (cs : List Char) :
    readSign (c :: cs) = (false, c :: cs) := by
  unfold readSign
  split
  next front =>
    obtain ⟨rfl, -⟩ := List.cons.inj front
    cases digit
  next front =>
    obtain ⟨rfl, -⟩ := List.cons.inj front
    cases digit
  next => rfl

theorem readSign_of_isDigitRun {ds : List Char} (digits : isDigitRun ds = true)
    (cs : List Char) : readSign (ds ++ cs) = (false, ds ++ cs) := by
  cases ds with
  | nil => cases digits
  | cons d ds => exact readSign_of_isDigit ((isDigitRun_iff.1 digits).2 d List.mem_cons_self) _

namespace Exponent

variable {cs : List Char}

theorem toLower (h : Exponent cs) : Exponent (cs.map Char.toLower) := by
  cases h with
  | none => exact .none
  | letter letter signed digits =>
    rw [List.map_cons, List.map_append, map_toLower_digits (isDigitRun_iff.1 digits).2]
    refine .letter (Or.inl ?_) ?_ digits
    · rcases letter with rfl | rfl
      · decide
      · decide
    · rcases signed with rfl | rfl | rfl
      · exact Or.inl rfl
      · exact Or.inr (Or.inl rfl)
      · exact Or.inr (Or.inr rfl)

/-- An exponent does not start with a digit. -/
theorem head (h : Exponent cs) : ∀ c, cs.head? = some c → c.isDigit = false := by
  cases h with
  | none => nofun
  | letter letter =>
    intro c first
    obtain rfl := Option.some.inj first
    rcases letter with rfl | rfl
    · decide
    · decide

theorem exists_value (h : Exponent cs) : ∃ n, readExponent? cs = some n := by
  cases h with
  | none => exact ⟨0, rfl⟩
  | @letter c sign ds letter signed digits =>
    have unsigned : (readSign (sign ++ ds)).2 = ds := by
      rcases signed with rfl | rfl | rfl
      · have plain := readSign_of_isDigitRun digits []
        rw [List.append_nil] at plain
        exact congrArg Prod.snd plain
      · rfl
      · rfl
    have known : (c = 'e' || c = 'E') = true :=
      Bool.or_eq_true_iff.2 (letter.imp decide_eq_true decide_eq_true)
    refine ⟨TypedExpr.signed (readSign (sign ++ ds)).1 (exponentOfDigits ds), ?_⟩
    simp only [readExponent?, known, unsigned, digits, if_true]

end Exponent

namespace IsDecimal

variable {cs : List Char}

theorem toLower (h : IsDecimal cs) : IsDecimal (cs.map Char.toLower) := by
  obtain ⟨whole, fraction, exponent, rfl, digits, point, letter⟩ := h
  refine ⟨whole, _, _, ?_, digits, point.toLower, letter.toLower⟩
  rw [List.map_append, List.map_append, map_toLower_digits (isDigitRun_iff.1 digits).2]

/-- The only letter in a decimal number is that of the exponent. -/
theorem mem {c : Char} (h : IsDecimal cs) (among : c ∈ cs) :
    c.isDigit = true ∨ c ∈ ['.', 'e', 'E', '+', '-'] := by
  obtain ⟨whole, fraction, exponent, rfl, digits, point, letter⟩ := h
  rcases List.mem_append.1 among with among | among
  · exact Or.inl ((isDigitRun_iff.1 digits).2 c among)
  rcases List.mem_append.1 among with among | among
  · cases point with
    | none => cases among
    | point digits =>
      rcases List.mem_cons.1 among with rfl | among
      · exact Or.inr (by decide)
      · exact Or.inl (digits c among)
  · cases letter with
    | none => cases among
    | letter letter signed digits =>
      rcases List.mem_cons.1 among with rfl | among
      · rcases letter with rfl | rfl
        · exact Or.inr (by decide)
        · exact Or.inr (by decide)
      rcases List.mem_append.1 among with among | among
      · rcases signed with rfl | rfl | rfl
        · cases among
        · obtain rfl := List.mem_singleton.1 among
          exact Or.inr (by decide)
        · obtain rfl := List.mem_singleton.1 among
          exact Or.inr (by decide)
      · exact Or.inl ((isDigitRun_iff.1 digits).2 c among)

/-- The mantissa is read up to the exponent. -/
theorem exists_mantissa {whole fraction exponent : List Char} (digits : isDigitRun whole = true)
    (point : Fraction fraction) (letter : Exponent exponent) :
    ∃ d, readMantissa? (whole ++ (fraction ++ exponent)) = some (d, exponent) := by
  obtain ⟨filled, run⟩ := isDigitRun_iff.1 digits
  have nonempty : whole.isEmpty = false := List.isEmpty_eq_false_iff.2 filled
  cases point with
  | none =>
    obtain ⟨front, behind⟩ := span_run run letter.head
    simp only [readMantissa?, List.nil_append, front, behind, nonempty]
    cases letter with
    | none => exact ⟨_, rfl⟩
    | letter letter =>
      rcases letter with rfl | rfl
      · exact ⟨_, rfl⟩
      · exact ⟨_, rfl⟩
  | @point ds places =>
    have ends : ∀ c, ('.' :: (ds ++ exponent)).head? = some c → c.isDigit = false := by
      intro c first
      obtain rfl : '.' = c := Option.some.inj first
      rfl
    obtain ⟨front, behind⟩ := span_run run ends
    obtain ⟨front', behind'⟩ := span_run places letter.head
    refine ⟨decimalOfDigits (whole ++ ds) ds.length, ?_⟩
    simp only [readMantissa?, List.cons_append, front, behind, nonempty, front', behind',
      Bool.false_and, Bool.false_eq_true, if_false]

/-- **A decimal number has a value.** -/
theorem exists_double (h : IsDecimal cs) : ∃ x, readDouble? (String.ofList cs) = some x := by
  obtain ⟨whole, fraction, exponent, rfl, digits, point, letter⟩ := h
  obtain ⟨d, mantissa⟩ := exists_mantissa digits point letter
  obtain ⟨n, power⟩ := letter.exists_value
  have unsigned := readSign_of_isDigitRun digits (fraction ++ exponent)
  simp only [readDouble?, String.toList_ofList, unsigned, mantissa, power, Option.bind_eq_bind,
    Option.bind_some]
  -- The words for infinity and for no number do not matter: they have values, too.
  split
  · exact ⟨_, rfl⟩
  · split
    · exact ⟨_, rfl⟩
    · exact ⟨_, rfl⟩

end IsDecimal

namespace Grammar

/-- **A real number has a value.** -/
theorem exists_realValue {text : String} (h : IsReal text.toList) :
    ∃ v, realValue? text = some v := by
  obtain ⟨number, suffix, whole, decimal, letter⟩ := h
  have lower : (Text.asciiLower text).toList =
      number.map Char.toLower ++ suffix.map Char.toLower := by
    rw [Text.asciiLower, String.toList_ofList, whole, List.map_append]
  have plain := decimal.toLower
  unfold realValue?
  simp only [lower]
  generalize suffix.map Char.toLower = tail at letter
  generalize number.map Char.toLower = cs at plain
  obtain ⟨x, reads⟩ := plain.exists_double
  -- The last character is none of the two letters, unless that is the suffix.
  have noLetter {c : Char} (last : cs.getLast? = some c) :
      c.isDigit = true ∨ c ∈ ['.', 'e', 'E', '+', '-'] :=
    plain.mem (List.mem_of_getLast? last)
  simp only [List.mem_cons, List.not_mem_nil, or_false] at letter
  rcases letter with rfl | rfl | rfl
  · rw [List.append_nil]
    split
    next last => exact absurd (noLetter last) (by decide)
    next last => exact absurd (noLetter last) (by decide)
    next => exact ⟨.double x, by rw [reads]; rfl⟩
  · rw [List.getLast?_concat, List.dropLast_concat]
    exact ⟨.single (Binary.toSingle x), by simp only [reads]; rfl⟩
  · rw [List.getLast?_concat, List.dropLast_concat]
    exact ⟨.double x, by simp only [reads]; rfl⟩

/-! ## The values of integers -/

/-- The number that the digits of an integer literal denote. -/
def integerNumber (text : String) : Nat :=
  match (Text.asciiLower text).toList with
  | '0' :: 'x' :: rest =>
    numberIn 16 (fun c => (Guid.hexValue? c).getD 0) (rest.takeWhile fun c => c != 'u' && c != 'l')
  | cs => natOfDigits (cs.takeWhile fun c => c != 'u' && c != 'l')

theorem integerNumber_hex {text : String} {rest : List Char}
    (front : (Text.asciiLower text).toList = '0' :: 'x' :: rest) : integerNumber text =
      numberIn 16 (fun c => (Guid.hexValue? c).getD 0)
        (rest.takeWhile fun c => c != 'u' && c != 'l') := by
  rw [integerNumber, front]
  rfl

theorem integerNumber_decimal {text : String}
    (front : ∀ rest, (Text.asciiLower text).toList = '0' :: 'x' :: rest → False) :
    integerNumber text =
      natOfDigits ((Text.asciiLower text).toList.takeWhile fun c => c != 'u' && c != 'l') := by
  unfold integerNumber
  split
  next rest hex => exact (front rest hex).elim
  next => rfl

theorem numberBelow?_eq_none {base bound : Nat} (value : Char → Nat) (cs : List Char)
    (hbase : 0 < base) (h : 0 < bound) :
    numberBelow? base value bound cs = none ↔ bound ≤ numberIn base value cs := by
  rw [numberBelow?_eq value cs hbase h]
  split
  next below => exact iff_of_false nofun (Nat.not_le.2 below)
  next reaches => exact iff_of_true rfl (Nat.not_lt.1 reaches)

/-- **An integer literal has no value if its number has more than 64 bits.** -/
theorem integerValue?_eq_none {text : String} :
    integerValue? text = none ↔ 0x10000000000000000 ≤ integerNumber text := by
  unfold integerValue?
  simp only [Option.map_eq_none_iff, Option.pure_def, Option.bind_eq_bind, Option.bind_eq_none_iff,
    reduceCtorEq, imp_false, ← Option.eq_none_iff_forall_ne_some]
  split
  next rest front =>
    rw [integerNumber_hex front]
    exact numberBelow?_eq_none _ _ (by decide) (by decide)
  next front =>
    rw [integerNumber_decimal front]
    exact numberBelow?_eq_none _ _ (by decide) (by decide)

example : integerNumber "0x1FuL" = 31 := by decide

end Grammar

end TypedExpr
