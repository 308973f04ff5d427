import TypedExpr.Proofs.Lexing.Literals

/-!
# Written integers

How an integer is written, and that the scanner and the literals of the grammar take back what was
written: the digits denote the number, and the letters behind them choose its type.

* `IntegerSuffix` — the letters, with the types that they admit.
* `IsNumeral` — the ways to write a number with a suffix.
* `numberIn_padded` — digits denote the number that they were written for.
* **`Lexer.tokens_numeral`** — what writes a number is one token.
* **`Grammar.integerValue?_numeral`** — its value is the number, in the first type that holds it.
-/

namespace TypedExpr

/-! ## Ways to write a number -/

/-- The letters behind the digits of an integer. -/
inductive IntegerSuffix
  | none | unsigned | long | unsignedLong | longUnsigned
deriving DecidableEq

namespace IntegerSuffix

/-- The letters of a suffix, in small letters. -/
def letters : IntegerSuffix → List Char
  | none => []
  | unsigned => ['u']
  | long => ['l']
  | unsignedLong => ['u', 'l']
  | longUnsigned => ['l', 'u']

/-- The types that a literal with the suffix may have; the first that holds the number is taken. -/
def types : IntegerSuffix → List IntType
  | none => [.int32, .uint32, .int64, .uint64]
  | unsigned => [.uint32, .uint64]
  | long => [.int64, .uint64]
  | unsignedLong | longUnsigned => [.uint64]

end IntegerSuffix

/-- The digits of a number in a base, with zeros in front. -/
def padded (base zeros n : Nat) : List Char := List.replicate zeros '0' ++ Nat.toDigits base n

/-- The characters write the number and the suffix: in decimal, or in hexadecimal behind `0x`, in
any letter case. -/
inductive IsNumeral (n : Nat) (s : IntegerSuffix) : List Char → Prop
  | decimal (zeros : Nat) {letters : List Char} (suffix : letters.map Char.toLower = s.letters) :
    IsNumeral n s (padded 10 zeros n ++ letters)
  | hexadecimal (zeros : Nat) {x : Char} {digits letters : List Char} (mark : x = 'x' ∨ x = 'X')
    (written : digits.map Char.toLower = padded 16 zeros n)
    (suffix : letters.map Char.toLower = s.letters) :
    IsNumeral n s ('0' :: x :: (digits ++ letters))

variable {n base zeros : Nat} {s : IntegerSuffix} {c : Char} {cs letters : List Char}

/-! ## Digits -/

theorem padded_ne_nil (base zeros n : Nat) : padded base zeros n ≠ [] :=
  List.append_ne_nil_of_right_ne_nil _ Nat.toDigits_ne_nil

theorem mem_toDigits (hbase : 1 < base) (n : Nat) (h : c ∈ Nat.toDigits base n) :
    ∃ d < base, Nat.digitChar d = c := by
  induction n using Nat.strongRecOn with
  | ind n ih =>
    by_cases small : n < base
    · rw [Nat.toDigits_of_lt_base small, List.mem_singleton] at h
      exact ⟨n, small, h.symm⟩
    · rw [Nat.toDigits_of_base_le hbase (Nat.not_lt.1 small), List.mem_append,
        List.mem_singleton] at h
      rcases h with h | rfl
      · exact ih (n / base) (Nat.div_lt_self (by omega) hbase) h
      · exact ⟨n % base, Nat.mod_lt n (by omega), rfl⟩

theorem mem_padded (hbase : 1 < base) (h : c ∈ padded base zeros n) :
    ∃ d < base, Nat.digitChar d = c := by
  rcases List.mem_append.1 h with h | h
  · exact ⟨0, by omega, (List.eq_of_mem_replicate h).symm⟩
  · exact mem_toDigits hbase n h

/-- The digits that a number is written with denote it. -/
theorem numberIn_toDigits {value : Char → Nat} (hbase : 1 < base)
    (digit : ∀ d < base, value (Nat.digitChar d) = d) (n : Nat) :
    numberIn base value (Nat.toDigits base n) = n := by
  induction n using Nat.strongRecOn with
  | ind n ih =>
    by_cases small : n < base
    · rw [Nat.toDigits_of_lt_base small]
      simp [numberIn, digit n small]
    · have last : value (Nat.digitChar (n % base)) = n % base :=
        digit _ (Nat.mod_lt n (by omega))
      have front := ih (n / base) (Nat.div_lt_self (by omega) hbase)
      rw [numberIn] at front ⊢
      rw [Nat.toDigits_of_base_le hbase (Nat.not_lt.1 small), List.foldl_append, front]
      simp [last, Nat.div_add_mod]

/-- Zeros in front do not change the number. -/
theorem numberIn_padded {value : Char → Nat} (hbase : 1 < base)
    (digit : ∀ d < base, value (Nat.digitChar d) = d) (zeros n : Nat) :
    numberIn base value (padded base zeros n) = n := by
  have zero : value '0' = 0 := digit 0 (by omega)
  have front : (List.replicate zeros '0').foldl (fun n c => base * n + value c) 0 = 0 := by
    induction zeros with
    | zero => rfl
    | succ zeros ih => simpa [List.replicate_succ, zero] using ih
  rw [numberIn, padded, List.foldl_append, front]
  exact numberIn_toDigits hbase digit n

theorem numberBelow?_padded {value : Char → Nat} {bound : Nat} (hbase : 1 < base)
    (digit : ∀ d < base, value (Nat.digitChar d) = d) (zeros : Nat) (below : n < bound) :
    numberBelow? base value bound (padded base zeros n) = some n := by
  rw [numberBelow?_eq value _ (by omega) (by omega), numberIn_padded hbase digit, if_pos below]

/-! ## Letters -/

/-- What is checked for each code is true of all ASCII characters. -/
theorem of_ascii {P : Char → Prop} (checked : ∀ code < 128, P (Char.ofNat code))
    (ascii : c.toNat < 128) : P c := by
  have known := checked c.toNat ascii
  rwa [Char.ofNat_toNat] at known

theorem toLower_cases (c : Char) : c.toLower = c ∨ c.toNat < 128 := by
  unfold Char.toLower
  split
  next upper =>
    have range : 65 ≤ c.toNat ∧ c.toNat ≤ 90 := upper
    omega
  next => exact Or.inl rfl

theorem ascii_of_isDigit (digit : c.isDigit = true) : c.toNat < 128 := by
  simp only [Char.isDigit, ge_iff_le, Bool.and_eq_true, decide_eq_true_eq] at digit
  have range : 48 ≤ c.toNat ∧ c.toNat ≤ 57 := digit
  omega

/-- What is a hexadecimal digit in small letters, is one. -/
theorem isHexDigit_of_toLower (h : Lexeme.isHexDigit c.toLower = true) :
    Lexeme.isHexDigit c = true := by
  rcases toLower_cases c with same | ascii
  · rwa [same] at h
  · exact of_ascii (P := fun c => Lexeme.isHexDigit c.toLower = true → Lexeme.isHexDigit c = true)
      (by decide) ascii h

/-- The letters that a suffix is written with. -/
def suffixLetters : List Char := ['u', 'l', 'U', 'L']

theorem mem_of_suffix (suffix : letters.map Char.toLower = s.letters) (h : c ∈ letters) :
    c ∈ suffixLetters := by
  have small : s.letters.all (fun d => d = 'u' || d = 'l') = true := by cases s <;> rfl
  have lower : c.toLower = 'u' ∨ c.toLower = 'l' := by
    simpa using List.all_eq_true.1 small _ (suffix ▸ List.mem_map_of_mem h)
  rcases toLower_cases c with same | ascii
  · rw [same] at lower
    rcases lower with rfl | rfl <;> simp [suffixLetters]
  · exact of_ascii (P := fun c => c.toLower = 'u' ∨ c.toLower = 'l' → c ∈ suffixLetters)
      (by decide) ascii lower

/-- The letters of a suffix do not go on with the digits. -/
theorem head_suffix {p : Char → Bool} (suffix : letters.map Char.toLower = s.letters)
    (other : suffixLetters.all (fun c => !p c) = true) :
    ∀ c, letters.head? = some c → p c = false := by
  intro c first
  simpa using List.all_eq_true.1 other c (mem_of_suffix suffix (List.mem_of_head? first))

/-! ## Scanning -/

namespace Lexeme

/-- The letters behind the digits make an integer. -/
theorem suffixed_numeral (digits : List Char) (hex : Bool)
    (suffix : letters.map Char.toLower = s.letters) :
    suffixed (digits ++ letters) hex false digits.length =
      (.plain .integer, (digits ++ letters).length) := by
  have alphabetic : ∀ c ∈ letters, c.isAlpha = true := by
    have all : suffixLetters.all Char.isAlpha = true := by decide
    exact fun c among => List.all_eq_true.1 all c (mem_of_suffix suffix among)
  have taken : letters.takeWhile Char.isAlpha = letters := List.takeWhile_eq_self_iff.2 alphabetic
  have lower : Text.asciiLower (String.ofList letters) = String.ofList s.letters := by
    rw [Text.asciiLower, String.toList_ofList, suffix]
  have kind : numberKind? hex false (String.ofList s.letters) = some .integer := by
    cases s <;> rfl
  simp only [suffixed, List.drop_left, taken, lower, kind, List.length_append]

theorem isDigit_padded (h : c ∈ padded 10 zeros n) : c.isDigit = true := by
  obtain ⟨d, small, rfl⟩ := mem_padded (by decide) h
  simpa using small

theorem decimal_numeral (zeros n : Nat) (suffix : letters.map Char.toLower = s.letters) :
    decimal (padded 10 zeros n ++ letters) =
      (.plain .integer, (padded 10 zeros n ++ letters).length) := by
  have run : (padded 10 zeros n ++ letters).takeWhile Char.isDigit = padded 10 zeros n :=
    (span_run (fun _ => isDigit_padded) (head_suffix suffix (by decide))).1
  have fraction : fractionLength letters = 0 := by
    unfold fractionLength
    split
    next => exact absurd (mem_of_suffix suffix List.mem_cons_self) (by decide)
    next => rfl
  have exponent : exponentLength letters = 0 := by
    unfold exponentLength
    split
    next c cs =>
      have other : (c = 'e' || c = 'E') = false := by
        exact head_suffix (p := fun c => c = 'e' || c = 'E') suffix (by decide) c rfl
      rw [if_neg (by simp [other])]
    next => rfl
  have scanned := suffixed_numeral (padded 10 zeros n) false suffix
  simpa only [decimal, run, List.drop_left, fraction, Nat.add_zero, exponent,
    bne_self_eq_false] using scanned

/-- No decimal number starts like a hexadecimal one. -/
theorem not_mark (suffix : letters.map Char.toLower = s.letters) {x : Char} {digits : List Char}
    (front : padded 10 zeros n ++ letters = '0' :: x :: digits) : ¬ (x = 'x' ∨ x = 'X') := by
  have among : x ∈ padded 10 zeros n ++ letters := by simp [front]
  rcases List.mem_append.1 among with among | among
  · have digit := isDigit_padded among
    rintro (rfl | rfl) <;> exact absurd digit (by decide)
  · have letter := mem_of_suffix suffix among
    rintro (rfl | rfl) <;> exact absurd letter (by decide)

theorem isHexDigit_of_padded {digits : List Char}
    (written : digits.map Char.toLower = padded 16 zeros n) :
    ∀ c ∈ digits, isHexDigit c = true := by
  intro c among
  have lower : c.toLower ∈ padded 16 zeros n := written ▸ List.mem_map_of_mem among
  obtain ⟨d, small, same⟩ := mem_padded (by decide) lower
  have digit : ∀ d < 16, isHexDigit (Nat.digitChar d) = true := by decide
  exact isHexDigit_of_toLower (same ▸ digit d small)

/-- **A written number is scanned as an integer.** -/
theorem number_numeral (h : IsNumeral n s cs) : number cs = (.plain .integer, cs.length) := by
  cases h with
  | decimal zeros suffix =>
    rw [number_eq_decimal fun x digits front => not_mark suffix front]
    exact decimal_numeral zeros n suffix
  | @hexadecimal zeros x digits letters mark written suffix =>
    have marked : (x = 'x' || x = 'X') = true := by simpa using mark
    have run : (digits ++ letters).takeWhile isHexDigit = digits :=
      (span_run (isHexDigit_of_padded written) (head_suffix suffix (by decide))).1
    have filled : digits.length ≠ 0 := by
      have some := padded_ne_nil 16 zeros n
      rw [← written] at some
      simpa using some
    have scanned := suffixed_numeral ('0' :: x :: digits) true suffix
    have length : ('0' :: x :: digits).length = 2 + digits.length := by
      simp only [List.length_cons]
      omega
    rw [length] at scanned
    simp only [number, marked, if_true, run, if_neg filled]
    exact scanned

/-- A digit starts nothing but a number. -/
theorem scan_isDigit (digit : c.isDigit = true) (cs : List Char) :
    Text.isBlank c = false ∧ scan (c :: cs) = number (c :: cs) := by
  obtain ⟨blank, sign, parameter, quote, word⟩ :=
    of_ascii (P := fun c => c.isDigit = true → Text.isBlank c = false ∧ symbolAt? [c] = none ∧
      c ≠ '@' ∧ (c = '\x22' || c = '\x27') = false ∧ startsWord c = false)
      (by decide) (ascii_of_isDigit digit) digit
  refine ⟨blank, ?_⟩
  simp only [scan, symbolAt?_eq_none sign cs, if_neg parameter, quote, word, digit, if_true,
    Bool.false_eq_true, if_false]

end Lexeme

/-- A written number starts with a digit. -/
theorem IsNumeral.head (h : IsNumeral n s cs) : ∃ c rest, cs = c :: rest ∧ c.isDigit = true := by
  cases h with
  | decimal zeros =>
    obtain ⟨c, rest, front⟩ := List.exists_cons_of_ne_nil (padded_ne_nil 10 zeros n)
    have among : c ∈ padded 10 zeros n := front ▸ List.mem_cons_self
    exact ⟨c, rest ++ _, by rw [front, List.cons_append], Lexeme.isDigit_padded among⟩
  | hexadecimal => exact ⟨'0', _, rfl, rfl⟩

namespace Lexer

/-- **A written number is one token**, wherever it stands in front of the end of a text. -/
theorem run_numeral (h : IsNumeral n s cs) (position fuel : Nat) :
    run (fuel + 2) ⟨position, cs⟩ =
      ([⟨.integer, String.ofList cs, position⟩, ⟨.finish, "", position + cs.length⟩], none) := by
  have number := Lexeme.number_numeral h
  obtain ⟨c, rest, rfl, digit⟩ := h.head
  obtain ⟨starts, scan⟩ := Lexeme.scan_isDigit digit rest
  rw [number, List.length_cons] at scan
  have read : (Lexeme.plain .integer).shape? (String.ofList (c :: rest.take rest.length)) =
      some ⟨.integer, String.ofList (c :: rest)⟩ := by
    rw [List.take_length]
    rfl
  have next := next_token starts scan read position
  rw [List.drop_length] at next
  rw [run_succ (fuel + 1) next nofun, run_end, List.length_cons]

theorem tokens_numeral (h : IsNumeral n s cs) : tokens (String.ofList cs) =
    ([⟨.integer, String.ofList cs, 0⟩, ⟨.finish, "", cs.length⟩], none) := by
  obtain ⟨c, rest, front, -⟩ := h.head
  have fuel : (String.ofList cs).length + 1 = rest.length + 2 := by
    rw [String.length_ofList, front, List.length_cons]
  rw [tokens, ofText, String.toList_ofList, fuel, run_numeral h 0, Nat.zero_add]

/-- The tokens of a written number behind a minus. -/
theorem tokens_negative (h : IsNumeral n s cs) : tokens (String.ofList ('-' :: cs)) =
    ([⟨.symbol .minus, "-", 0⟩, ⟨.integer, String.ofList cs, 1⟩, ⟨.finish, "", 1 + cs.length⟩],
      none) := by
  obtain ⟨c, rest, front, -⟩ := h.head
  have fuel : (String.ofList ('-' :: cs)).length + 1 = rest.length + 2 + 1 := by
    rw [String.length_ofList, front, List.length_cons, List.length_cons]
  have scan : Lexeme.scan ('-' :: cs) = (.plain (.symbol .minus), 0 + 1) := rfl
  have read : (Lexeme.plain (.symbol .minus)).shape? (String.ofList ('-' :: cs.take 0)) =
      some (Shape.sign .minus) := rfl
  have next : next ⟨0, '-' :: cs⟩ = (.ok ⟨.symbol .minus, "-", 0⟩, ⟨1, cs⟩) :=
    next_token rfl scan read 0
  rw [tokens, ofText, String.toList_ofList, fuel, run_succ _ next nofun, run_numeral h 1]

end Lexer

/-! ## Values -/

namespace Grammar

/-- The types are tried from the smallest on. -/
theorem exists_type (s : IntegerSuffix) (small : n < 0x10000000000000000) :
    let fits (t : IntType) (suffixes : List String) : Bool :=
      (n : Int) ≤ t.max && suffixes.contains (String.ofList s.letters)
    let word (t : IntType) : Value := .int t (Word.wrap t n)
    ∃ t, s.types.find? (fun t => (n : Int) ≤ t.max) = some t ∧
      (if fits .int32 [""] then word .int32
        else if fits .uint32 ["", "u"] then word .uint32
        else if fits .int64 ["", "l"] then word .int64
        else word .uint64) = word t := by
  have last : (n : Int) ≤ IntType.max .uint64 := by
    simp only [IntType.max]
    omega
  intro fits word
  -- What is tried is the same for each suffix and each way in which the bounds hold or fail.
  by_cases h₁ : (n : Int) ≤ IntType.max .int32 <;> by_cases h₂ : (n : Int) ≤ IntType.max .uint32 <;>
    by_cases h₃ : (n : Int) ≤ IntType.max .int64 <;> cases s <;>
    simp [fits, IntegerSuffix.letters, IntegerSuffix.types, h₁, h₂, h₃, last]

/-- The digits end where the suffix starts. -/
theorem span_suffix (base : Nat) (hbase : 1 < base) (le : base ≤ 16) (zeros n : Nat)
    (s : IntegerSuffix) :
    (padded base zeros n ++ s.letters).takeWhile (fun c => c != 'u' && c != 'l') =
        padded base zeros n ∧
      (padded base zeros n ++ s.letters).dropWhile (fun c => c != 'u' && c != 'l') =
        s.letters := by
  refine span_run ?_ ?_
  · intro c among
    obtain ⟨d, small, rfl⟩ := mem_padded hbase among
    have digit : ∀ d < 16, (Nat.digitChar d != 'u' && Nat.digitChar d != 'l') = true := by decide
    exact digit d (Nat.lt_of_lt_of_le small le)
  · cases s <;> simp [IntegerSuffix.letters]

theorem toLower_decimal (suffix : letters.map Char.toLower = s.letters) (zeros n : Nat) :
    (Text.asciiLower (String.ofList (padded 10 zeros n ++ letters))).toList =
      padded 10 zeros n ++ s.letters := by
  rw [Text.asciiLower, String.toList_ofList, String.toList_ofList, List.map_append, suffix,
    map_toLower_digits fun _ => Lexeme.isDigit_padded]

theorem toLower_hexadecimal {x : Char} {digits : List Char} (mark : x = 'x' ∨ x = 'X')
    (written : digits.map Char.toLower = padded 16 zeros n)
    (suffix : letters.map Char.toLower = s.letters) :
    (Text.asciiLower (String.ofList ('0' :: x :: (digits ++ letters)))).toList =
      '0' :: 'x' :: (padded 16 zeros n ++ s.letters) := by
  have lower : x.toLower = 'x' := by rcases mark with rfl | rfl <;> rfl
  have zero : '0'.toLower = '0' := rfl
  rw [Text.asciiLower, String.toList_ofList, String.toList_ofList, List.map_cons, List.map_cons,
    List.map_append, written, suffix, lower, zero]

/-- In small letters, too, no decimal number starts like a hexadecimal one. -/
theorem not_mark_letters (s : IntegerSuffix) (zeros n : Nat) (rest : List Char)
    (front : padded 10 zeros n ++ s.letters = '0' :: 'x' :: rest) : False := by
  have suffix : s.letters.map Char.toLower = s.letters := by cases s <;> rfl
  exact Lexeme.not_mark suffix front (Or.inl rfl)

/-- A written number denotes the number. -/
theorem integerNumber_numeral (h : IsNumeral n s cs) : integerNumber (String.ofList cs) = n := by
  cases h with
  | decimal zeros suffix =>
    have front := toLower_decimal suffix zeros n
    rw [integerNumber_decimal (front ▸ not_mark_letters s zeros n), front,
      (span_suffix 10 (by decide) (by decide) zeros n s).1]
    exact numberIn_padded (by decide) (by decide) zeros n
  | hexadecimal zeros mark written suffix =>
    rw [integerNumber_hex (toLower_hexadecimal mark written suffix),
      (span_suffix 16 (by decide) (by decide) zeros n s).1]
    exact numberIn_padded (by decide) (by decide) zeros n

/-- **The value of a written number** is the number, in the first type that holds it. -/
theorem integerValue?_numeral (h : IsNumeral n s cs) (small : n < 0x10000000000000000) :
    ∃ t, s.types.find? (fun t => (n : Int) ≤ t.max) = some t ∧
      integerValue? (String.ofList cs) = some (.int t (Word.wrap t n)) := by
  obtain ⟨t, first, typed⟩ := exists_type s small
  refine ⟨t, first, ?_⟩
  refine Eq.trans ?_ (congrArg some typed)
  unfold integerValue?
  cases h with
  | decimal zeros suffix =>
    obtain ⟨digits, behind⟩ := span_suffix 10 (by decide) (by decide) zeros n s
    simp only [toLower_decimal suffix zeros n]
    split
    next rest front => exact (not_mark_letters s zeros n rest front).elim
    next =>
      simp only [digits, behind, wordOfDigits?]
      rw [numberBelow?_padded (by decide) (by decide) zeros small]
      rfl
  | hexadecimal zeros mark written suffix =>
    obtain ⟨digits, behind⟩ := span_suffix 16 (by decide) (by decide) zeros n s
    simp only [toLower_hexadecimal mark written suffix, digits, behind, wordOfHexDigits?]
    rw [numberBelow?_padded (by decide) (by decide) zeros small]
    rfl

end Grammar

end TypedExpr
