import TypedExpr.Expr.Evaluate
import TypedExpr.Proofs.Value.Arithmetic

/-!
# Positions in texts

The members of strings that take or give positions are computed apart: a search slides a window over
the text, a part is cut out of it, and an index walks to a single character.  They agree, since each
of them is the same function of the list of characters, which knows nothing of bytes.

* `Text.indexOf?_isLeast` — what a search finds, told by the parts of a list.
* `substring_inside`, `substring_outside` — when there is a part, and the error where there is none.
* `onString`, `ofString` — the methods and properties by their names.
* **`string_positions`** — how the members agree.
-/

namespace TypedExpr

/-! ## Lists of characters -/

section

variable {format : GuidFormat}

namespace Text

variable {cs pattern part : List Char} {i j n : Nat}

theorem slice?_eq_some_iff : slice? cs i n = some part ↔
    i + n ≤ cs.length ∧ (cs.drop i).take n = part := by
  unfold slice?
  split <;> simp_all

/-- A part of the rest of a text is a part of the text, one position further. -/
theorem slice?_succ (c : Char) (cs : List Char) (i n : Nat) :
    slice? (c :: cs) (i + 1) n = slice? cs i n := by
  unfold slice?
  simp only [List.length_cons, List.drop_succ_cons]
  congr 1
  exact propext ⟨fun h => by omega, fun h => by omega⟩

/-- The pattern is the part of its length at a position. -/
def Occurs (pattern cs : List Char) (j : Nat) : Prop :=
  slice? cs j pattern.length = some pattern

/-- A text starts with a pattern that occurs at its first position. -/
theorem startsWith_iff_occurs : startsWith cs pattern = true ↔ Occurs pattern cs 0 := by
  rw [Occurs, startsWith_iff_isPrefix, slice?_eq_some_iff, List.drop_zero, Nat.zero_add]
  constructor
  · intro front
    exact ⟨front.length_le, (List.prefix_iff_eq_take.1 front).symm⟩
  · rintro ⟨-, same⟩
    exact List.prefix_iff_eq_take.2 same.symm

theorem Occurs.length_le (h : Occurs pattern cs j) : j + pattern.length ≤ cs.length :=
  (slice?_eq_some_iff.1 h).1

theorem occurs_succ {c : Char} : Occurs pattern (c :: cs) (j + 1) ↔ Occurs pattern cs j := by
  rw [Occurs, Occurs, slice?_succ]

/-- The least position of a pattern, and none if there is none. -/
structure IsLeast (pattern cs : List Char) (found : Option Nat) : Prop where
  occurs {k : Nat} : found = some k → Occurs pattern cs k
  before {k j : Nat} : found = some k → j < k → ¬ Occurs pattern cs j
  nowhere {j : Nat} : found = none → ¬ Occurs pattern cs j

theorem isLeast_zero (first : Occurs pattern cs 0) : IsLeast pattern cs (some 0) := by
  constructor
  · intro k found
    cases found
    exact first
  · intro k j found earlier
    cases found
    exact absurd earlier (Nat.not_lt_zero j)
  · intro j found
    cases found

/-- In an empty text there is no other position than the first. -/
theorem isLeast_nil (first : ¬ Occurs pattern [] 0) : IsLeast pattern [] none := by
  constructor
  · intro k found
    cases found
  · intro k j found
    cases found
  · intro j _ occurs
    obtain rfl : j = 0 := Nat.eq_zero_of_le_zero (Nat.le_of_add_right_le occurs.length_le)
    exact first occurs

/-- Where a pattern is not at the start, its positions are one further than in the rest. -/
theorem IsLeast.cons {c : Char} {found : Option Nat} (h : IsLeast pattern cs found)
    (first : ¬ Occurs pattern (c :: cs) 0) : IsLeast pattern (c :: cs) (found.map (· + 1)) := by
  constructor
  · intro k later
    obtain ⟨k, known, rfl⟩ := Option.map_eq_some_iff.1 later
    exact occurs_succ.2 (h.occurs known)
  · intro k j later earlier
    obtain ⟨k, known, rfl⟩ := Option.map_eq_some_iff.1 later
    cases j with
    | zero => exact first
    | succ j => exact mt occurs_succ.1 (h.before known (Nat.lt_of_succ_lt_succ earlier))
  · intro j missing
    cases j with
    | zero => exact first
    | succ j => exact mt occurs_succ.1 (h.nowhere (Option.map_eq_none_iff.1 missing))

/-- **A search finds the least position**, and none if there is none. -/
theorem indexOf?_isLeast (pattern cs : List Char) :
    IsLeast pattern cs (indexOf? pattern cs) := by
  induction cs with
  | nil =>
    rw [indexOf?]
    split
    next starts => exact isLeast_zero (startsWith_iff_occurs.1 starts)
    next other => exact isLeast_nil (mt startsWith_iff_occurs.2 other)
  | cons c cs ih =>
    rw [indexOf?]
    split
    next starts => exact isLeast_zero (startsWith_iff_occurs.1 starts)
    next other => exact ih.cons (mt startsWith_iff_occurs.2 other)

end Text

/-! ## Parts -/

section Substring

variable {s part : String} {i n : Int}

/-- A part that lies inside of the text. -/
theorem substring_inside (start : 0 ≤ i) (count : 0 ≤ n) (inside : i + n ≤ s.length) :
    ∃ part, substring s i (some n) = .ok (.string part) ∧
      Text.slice? s.toList i.toNat n.toNat = some part.toList := by
  have range : ¬ (i < 0 ∨ i > s.length) := by omega
  obtain ⟨part, found⟩ : ∃ part, Text.part? s i.toNat n.toNat = some part := by
    have fits : i.toNat + n.toNat ≤ s.length := by omega
    exact ⟨_, if_pos fits⟩
  refine ⟨part, ?_, ?_⟩
  · have count : ¬ n < 0 := by omega
    simp [substring, range, count, found]
  · rw [← Text.part?_eq, found]
    rfl

/-- A part that does not lie inside of the text.  The error names the start if that lies outside,
and otherwise the end that is asked for, which is computed without overflow. -/
theorem substring_outside (outside : ¬ (0 ≤ i ∧ 0 ≤ n ∧ i + n ≤ s.length))
    (fits : IntType.int64.Contains (i + n)) :
    substring s i (some n) = .error (.indexOutOfRange
      (if i < 0 ∨ s.length < i then i else i + n) s.length) := by
  have exact : (Word.wrap .int64 (i + n)).val = i + n := Word.val_wrap_of_contains fits
  by_cases range : i < 0 ∨ s.length < i
  · simp [substring, range]
  · have noPart : 0 ≤ n → Text.part? s i.toNat n.toNat = none := by
      intro count
      have beyond : ¬ i.toNat + n.toNat ≤ s.length := by omega
      exact if_neg beyond
    by_cases count : n < 0
    · simp [substring, range, count, exact]
    · simp [substring, range, count, exact, noPart (Int.not_lt.1 count)]

end Substring

/-! ## Members of strings -/

/-- The method of strings with this name and that number of parameters, applied to a text. -/
def onString [GuidFormat] (name : String) (s : String) (args : List Value) : Option (Eval Value) :=
  (((MemberTable.of .empty .string).findMethods name).find? (·.params.length == args.length)).map
    fun m => m.run (.string s) args

/-- The property of strings with this name, read from a text. -/
def ofString [GuidFormat] (name : String) (s : String) : Option (Except EvalError Value) :=
  match (MemberTable.of .empty .string).findMember? name with
  | some ⟨_, _, .property p⟩ => some (p.read (.string s))
  | _ => none

end

section Members

section

variable {format : GuidFormat} {s t : String} {i j n : Word .int32}

theorem ofString_length (s : String) :
    ofString "Length" s = some (.ok (.int .int32 (.wrap .int32 s.length))) := rfl

theorem int64?_eq (i : Word .int32) :
    ∃ m : Word .int64, (Value.int .int32 i).int64? = some m ∧ m.val = i.val := by
  obtain ⟨m, found⟩ := Value.int64?_int32 i
  exact ⟨m, found, Word.fit?_eq_some_iff.1 found⟩

theorem indexArgument_int32 {args : List Value} {k : Nat}
    (given : args[k]? = some (.int .int32 i)) : indexArgument args k = .ok i.val := by
  obtain ⟨m, found, same⟩ := int64?_eq i
  simp only [indexArgument, given, Option.bind_some, found, same]

theorem onString_substring : onString "Substring" s [.int .int32 i, .int .int32 n] =
    some (liftM (substring s i.val (some n.val))) := by
  show some (liftM (do
    substring s (← indexArgument [.int .int32 i, .int .int32 n] 0)
      (some (← indexArgument [.int .int32 i, .int .int32 n] 1)))) = _
  rw [indexArgument_int32 (i := i) rfl, indexArgument_int32 (i := n) rfl]
  rfl

theorem onString_substring_rest : onString "Substring" s [.int .int32 i] =
    some (liftM (substring s i.val none)) := by
  show some (liftM (do substring s (← indexArgument [.int .int32 i] 0) none)) = _
  rw [indexArgument_int32 (i := i) rfl]
  rfl

theorem onString_indexOf : onString "IndexOf" s [.string t] =
    some (pure (Value.int32 ((Text.indexOf? t.toList s.toList).elim (-1) Int.ofNat))) := by
  rw [← Text.scanIndex?_eq]
  show some (pure _ : Eval Value) = _
  cases Text.scanIndex? t s <;> rfl

theorem onString_contains : onString "Contains" s [.string t] =
    some (pure (.boolean (Text.indexOf? t.toList s.toList).isSome)) := by
  rw [← Text.scanIndex?_eq]
  rfl

theorem onString_startsWith : onString "StartsWith" s [.string t] =
    some (pure (.boolean (Text.startsWith s.toList t.toList))) := by
  have same : s.startsWith t = Text.startsWith s.toList t.toList := by
    rw [Bool.eq_iff_iff, String.startsWith_string_iff, Text.startsWith_iff_isPrefix]
  rw [← same]
  rfl

/-- The character at a position, as a text of its own. -/
theorem itemAt_string (start : 0 ≤ j.val) {c : Char} (found : s.toList[j.val.toNat]? = some c) :
    (Value.string s).itemAt (.int .int32 j) = .ok (.string (String.singleton c)) := by
  obtain ⟨m, known, same⟩ := int64?_eq j
  have range : ¬ j.val < 0 := by omega
  simp [Value.itemAt, known, same, range, Text.charAt?_eq, found]

/-! ## How they agree -/

/-- The positions of a text that is not too long are numbers of 32 bits. -/
theorem val_wrap_position {m : Int} (short : s.length < 2147483648) (start : 0 ≤ m)
    (inside : m ≤ s.length) : (Word.wrap .int32 m).val = m := by
  refine Word.val_wrap_of_contains ⟨?_, ?_⟩ <;> simp only [IntType.min, IntType.max] <;> omega

theorem val_wrap_length (short : s.length < 2147483648) :
    (Word.wrap .int32 s.length).val = s.length :=
  val_wrap_position short (Int.natCast_nonneg _) (Int.le_refl _)

/-- The end of a part that is asked for is a number of 64 bits. -/
theorem contains_end (i n : Word .int32) : IntType.int64.Contains (i.val + n.val) := by
  have lo := i.min_le
  have hi := i.le_max
  have lo' := n.min_le
  have hi' := n.le_max
  simp only [IntType.min, IntType.max] at lo hi lo' hi'
  constructor <;> simp only [IntType.min, IntType.max] <;> omega

/-- A computation that only may fail gives a value exactly if it does not fail. -/
theorem lift_eq_pure_iff {x : Except EvalError Value} {v : Value} :
    (liftM x : Eval Value) = pure v ↔ x = .ok v := by
  constructor
  · intro same
    exact congrArg Prod.fst (congrFun same Store.empty)
  · rintro rfl
    rfl

/-- A text is the part of its length at the positions where it occurs, and at no other. -/
theorem substring_eq_iff (short : t.length < 2147483648) :
    onString "Substring" s [.int .int32 i, .int .int32 (.wrap .int32 t.length)] =
        some (pure (.string t)) ↔
      0 ≤ i.val ∧ Text.Occurs t.toList s.toList i.val.toNat := by
  have size := val_wrap_length short
  have fits := contains_end i (.wrap .int32 t.length)
  rw [size] at fits
  rw [onString_substring, Option.some.injEq, lift_eq_pure_iff, size]
  by_cases inside : 0 ≤ i.val ∧ 0 ≤ (t.length : Int) ∧ i.val + t.length ≤ s.length
  · obtain ⟨part, found, cut⟩ := substring_inside inside.1 inside.2.1 inside.2.2
    rw [Int.toNat_natCast] at cut
    rw [found, Text.Occurs, String.length_toList, cut]
    simp [inside.1, String.toList_inj]
  · rw [substring_outside inside fits]
    refine iff_of_false (by intro same; cases same) ?_
    rintro ⟨start, occurs⟩
    have room := occurs.length_le
    rw [String.length_toList, String.length_toList] at room
    omega

/-- **What a search gives is a position of the searched text**, or -1. -/
theorem exists_position (short : s.length < 2147483648) :
    ∃ k : Word .int32, onString "IndexOf" s [.string t] = some (pure (.int .int32 k)) ∧
      k.val = (Text.indexOf? t.toList s.toList).elim (-1) Int.ofNat := by
  refine ⟨_, onString_indexOf, ?_⟩
  cases found : Text.indexOf? t.toList s.toList with
  | none => rfl
  | some k =>
    have occurs := (Text.indexOf?_isLeast _ _).occurs found
    have room := occurs.length_le
    rw [String.length_toList, String.length_toList] at room
    exact val_wrap_position (m := k) short (Int.natCast_nonneg k) (by omega)

/-- A search gives the least position at which the searched text is the part of its length, and -1
if there is none; the two tests agree with it. -/
theorem search_agrees (short : s.length < 2147483648) (short' : t.length < 2147483648) :
    ∃ k : Word .int32, onString "IndexOf" s [.string t] = some (pure (.int .int32 k)) ∧
      -1 ≤ k.val ∧
      (0 ≤ k.val → onString "Substring" s
        [.int .int32 k, .int .int32 (.wrap .int32 t.length)] = some (pure (.string t))) ∧
      (∀ j : Word .int32, k.val < 0 ∨ j.val < k.val → onString "Substring" s
        [.int .int32 j, .int .int32 (.wrap .int32 t.length)] ≠ some (pure (.string t))) ∧
      onString "Contains" s [.string t] = some (pure (.boolean (decide (k.val ≠ -1)))) ∧
      onString "StartsWith" s [.string t] = some (pure (.boolean (decide (k.val = 0)))) := by
  obtain ⟨k, searched, position⟩ := exists_position (t := t) short
  have least := Text.indexOf?_isLeast t.toList s.toList
  refine ⟨k, searched, ?_⟩
  rw [onString_contains, onString_startsWith]
  cases found : Text.indexOf? t.toList s.toList with
  | none =>
    rw [found, Option.elim_none] at position
    have start : Text.startsWith s.toList t.toList = false := by
      rw [← Bool.not_eq_true, Text.startsWith_iff_occurs]
      exact least.nowhere found
    refine ⟨by omega, by omega, ?_, ?_, ?_⟩
    · intro j _
      rw [ne_eq, substring_eq_iff short']
      exact fun h => least.nowhere found h.2
    · rw [position]
      rfl
    · rw [start, position]
      rfl
  | some p =>
    have occurs := least.occurs found
    rw [found, Option.elim_some, Int.ofNat_eq_natCast] at position
    have start : Text.startsWith s.toList t.toList = decide (k.val = 0) := by
      rw [Bool.eq_iff_iff, Text.startsWith_iff_occurs, decide_eq_true_iff, position]
      constructor
      · intro front
        by_contra later
        exact least.before found (by omega) front
      · intro zero
        obtain rfl : p = 0 := by omega
        exact occurs
    refine ⟨by omega, ?_, ?_, ?_, ?_⟩
    · intro _
      rw [substring_eq_iff short', position]
      exact ⟨Int.natCast_nonneg p, occurs⟩
    · intro j earlier
      rw [ne_eq, substring_eq_iff short']
      rintro ⟨nonneg, occurs⟩
      exact least.before found (by omega) occurs
    · have proper : k.val ≠ -1 := by omega
      rw [decide_eq_true proper]
      rfl
    · rw [start]

/-- A part has the length that was asked for, and its characters are those of the text. -/
theorem substring_agrees (short : s.length < 2147483648) (start : 0 ≤ i.val) (count : 0 ≤ n.val)
    (inside : i.val + n.val ≤ s.length) :
    ∃ part : String,
      onString "Substring" s [.int .int32 i, .int .int32 n] = some (pure (.string part)) ∧
      ofString "Length" part = some (.ok (.int .int32 n)) ∧
      ∀ j : Word .int32, 0 ≤ j.val → j.val < n.val → ∃ c,
        (Value.string part).itemAt (.int .int32 j) = .ok c ∧
        (Value.string s).itemAt (.int .int32 (i.add j)) = .ok c := by
  obtain ⟨part, cut, slice⟩ := substring_inside start count inside
  have length : part.toList.length = n.val.toNat := Text.slice?_length slice
  obtain ⟨-, characters⟩ := Text.slice?_eq_some_iff.1 slice
  refine ⟨part, ?_, ?_, ?_⟩
  · rw [onString_substring, cut]
    rfl
  · rw [String.length_toList] at length
    rw [ofString_length, length, Int.toNat_of_nonneg count, Word.wrap_val]
  · intro j first last
    have sum : (i.add j).val = i.val + j.val := val_wrap_position short (by omega) (by omega)
    have position : (i.add j).val.toNat = i.val.toNat + j.val.toNat := by omega
    have within : j.val.toNat < part.toList.length := by omega
    refine ⟨.string (String.singleton part.toList[j.val.toNat]), itemAt_string first ?_,
      itemAt_string (by omega) ?_⟩
    · exact List.getElem?_eq_getElem within
    · have before : j.val.toNat < n.val.toNat := by omega
      rw [position, ← List.getElem?_drop, ← List.getElem?_take_of_lt before, characters]
      exact List.getElem?_eq_getElem within

/-- Without a length, the part is the one to the end, whose length is the difference. -/
theorem substring_rest_agrees (short : s.length < 2147483648) (start : 0 ≤ i.val)
    (inside : i.val ≤ s.length) :
    ∃ (rest : Word .int32) (part : String),
      Value.combine (.arithmetic .sub) (.int .int32 (.wrap .int32 s.length)) (.int .int32 i) =
        .ok (.int .int32 rest) ∧
      onString "Substring" s [.int .int32 i, .int .int32 rest] = some (pure (.string part)) ∧
      onString "Substring" s [.int .int32 i] = some (pure (.string part)) := by
  have rest : (Word.wrap .int32 ((Word.wrap .int32 s.length).val - i.val)).val =
      s.length - i.val := by
    rw [val_wrap_length short]
    exact val_wrap_position short (by omega) (by omega)
  obtain ⟨part, cut, -⟩ := substring_inside (s := s) (n := s.length - i.val) start (by omega)
    (by omega)
  have proper : ArithmeticOp.sub.divides = true → i.val ≠ 0 := by
    intro divides
    cases divides
  refine ⟨_, part, Value.combine_arithmetic proper, ?_, ?_⟩
  · rw [onString_substring]
    show some (liftM (substring s i.val
      (some (Word.wrap .int32 ((Word.wrap .int32 s.length).val - i.val)).val))) = _
    rw [rest, cut]
    rfl
  · rw [onString_substring_rest]
    show some (liftM (substring s i.val (some (s.length - i.val)))) = _
    rw [cut]
    rfl

/-- **The positions that the members of strings take and give agree**, whatever the characters are.
A search gives the least position at which the searched text is the part of its length, and -1 if
there is none, just as the two tests say.  There is a part from a position and of a length exactly
if neither is negative and the end lies inside of the text; it has this length, its characters are
those that the indexer gives, and otherwise the error names the start or the end, as an exact
number.  Without a length, the part goes to the end. -/
theorem string_positions (short : s.length < 2147483648) (short' : t.length < 2147483648) :
    (∃ k n : Word .int32, onString "IndexOf" s [.string t] = some (pure (.int .int32 k)) ∧
      ofString "Length" t = some (.ok (.int .int32 n)) ∧ n.val = t.length ∧ -1 ≤ k.val ∧
      (0 ≤ k.val → onString "Substring" s [.int .int32 k, .int .int32 n] =
        some (pure (.string t))) ∧
      (∀ j : Word .int32, k.val < 0 ∨ j.val < k.val →
        onString "Substring" s [.int .int32 j, .int .int32 n] ≠ some (pure (.string t))) ∧
      onString "Contains" s [.string t] = some (pure (.boolean (decide (k.val ≠ -1)))) ∧
      onString "StartsWith" s [.string t] = some (pure (.boolean (decide (k.val = 0))))) ∧
    (∀ i n : Word .int32, 0 ≤ i.val ∧ 0 ≤ n.val ∧ i.val + n.val ≤ s.length →
      ∃ part : String,
        onString "Substring" s [.int .int32 i, .int .int32 n] = some (pure (.string part)) ∧
        ofString "Length" part = some (.ok (.int .int32 n)) ∧
        ∀ j : Word .int32, 0 ≤ j.val → j.val < n.val → ∃ c,
          (Value.string part).itemAt (.int .int32 j) = .ok c ∧
          (Value.string s).itemAt (.int .int32 (i.add j)) = .ok c) ∧
    (∀ i n : Word .int32, ¬ (0 ≤ i.val ∧ 0 ≤ n.val ∧ i.val + n.val ≤ s.length) →
      onString "Substring" s [.int .int32 i, .int .int32 n] = some (throw (.indexOutOfRange
        (if i.val < 0 ∨ s.length < i.val then i.val else i.val + n.val) s.length))) ∧
    ∀ i : Word .int32, 0 ≤ i.val → i.val ≤ s.length → ∃ (size rest : Word .int32) (part : String),
      ofString "Length" s = some (.ok (.int .int32 size)) ∧
      Value.combine (.arithmetic .sub) (.int .int32 size) (.int .int32 i) =
        .ok (.int .int32 rest) ∧
      onString "Substring" s [.int .int32 i, .int .int32 rest] = some (pure (.string part)) ∧
      onString "Substring" s [.int .int32 i] = some (pure (.string part)) := by
  refine ⟨?_, ?_, ?_, ?_⟩
  · obtain ⟨k, searched, agrees⟩ := search_agrees short short'
    exact ⟨k, _, searched, ofString_length t, val_wrap_length short', agrees⟩
  · rintro i n ⟨start, count, inside⟩
    exact substring_agrees short start count inside
  · intro i n outside
    rw [onString_substring, substring_outside outside (contains_end i n)]
    rfl
  · intro i start inside
    obtain ⟨rest, part, agrees⟩ := substring_rest_agrees short start inside
    exact ⟨_, rest, part, ofString_length s, agrees⟩

end

/-- A letter behind two others that take four bytes. -/
theorem string_positions_letters :
    "\u00fc\u00dfe".length < 2147483648 ∧ "e".length < 2147483648 ∧ ∃ k n : Word .int32,
      onString "IndexOf" "\u00fc\u00dfe" [.string "e"] = some (pure (.int .int32 k)) ∧
      k.val = 2 ∧ ofString "Length" "e" = some (.ok (.int .int32 n)) ∧
      onString "Substring" "\u00fc\u00dfe" [.int .int32 k, .int .int32 n] =
        some (pure (.string "e")) := by
  have short : "\u00fc\u00dfe".length < 2147483648 := by decide
  have short' : "e".length < 2147483648 := by decide
  obtain ⟨k, n, searched, size, -, -, part, -⟩ := (string_positions short short').1
  have second : onString "IndexOf" "\u00fc\u00dfe" [.string "e"] =
      some (pure (Value.int32 2)) := by
    rw [onString_indexOf]
    rfl
  have same : Value.int .int32 (.wrap .int32 2) = .int .int32 k :=
    Except.ok.inj (lift_eq_pure_iff.1 (Option.some.inj (second.symm.trans searched)))
  obtain rfl : Word.wrap .int32 2 = k := eq_of_heq (Value.int.inj same).2
  exact ⟨short, short', _, n, searched, rfl, size, part (by decide)⟩

end Members

end TypedExpr
