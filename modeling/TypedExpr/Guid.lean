/-!
# Globally unique identifiers

A 128 bit number.  How it is written and which texts are read as one is left to a format, and the
rest of the library works with any format.

* `GuidFormat` — how identifiers are written, and which texts are read as identifiers.
* `GuidFormat.ReadsBack` — what is relied on of a format.
* `Guid.text`, `Guid.read?` — writing and reading in the format that is used.
* `Guid.hyphenated` — a format: 32 hexadecimal digits in groups of 8, 4, 4, 4 and 12.
-/

namespace TypedExpr

/-- A globally unique identifier. -/
structure Guid where
  bits : BitVec 128
deriving DecidableEq

namespace Guid

/-- The identifier with no bit set. -/
def nil : Guid := ⟨0⟩

/-- The value of a hexadecimal digit. -/
def hexValue? (c : Char) : Option Nat :=
  if c.isDigit then some (c.toNat - '0'.toNat)
  else if 'a' ≤ c && c ≤ 'f' then some (c.toNat - 'a'.toNat + 10)
  else if 'A' ≤ c && c ≤ 'F' then some (c.toNat - 'A'.toNat + 10)
  else none

end Guid

/-! ## Formats -/

/-- How identifiers are written as texts, and which texts are read as identifiers. -/
class GuidFormat where
  /-- The text of an identifier. -/
  text (g : Guid) : String
  /-- The identifier that a text denotes. -/
  read? (s : String) : Option Guid

/-- The text of an identifier is made of hexadecimal digits and hyphens, and is read as the same
identifier. -/
structure GuidFormat.ReadsBack (F : GuidFormat) : Prop where
  digits : ∀ g, ∀ c ∈ (F.text g).toList, c = '-' ∨ (Guid.hexValue? c).isSome
  read?_text : ∀ g, F.read? (F.text g) = some g

namespace Guid

/-- The text of the identifier. -/
def text [GuidFormat] (g : Guid) : String := GuidFormat.text g

/-- The identifier that a text denotes. -/
def read? [GuidFormat] (s : String) : Option Guid := GuidFormat.read? s

/-! ## The hyphenated format -/

/-- The number written by a list of hexadecimal digits. -/
def hexNumber? (cs : List Char) : Option Nat :=
  cs.foldlM (fun n c => (hexValue? c).map (16 * n + ·)) 0

/-- The `count` low hexadecimal digits of a number, the most significant first. -/
def hexDigits (count n : Nat) : List Char :=
  (List.range count).reverse.map fun i => Nat.digitChar (n / Nat.pow 16 i % 16)

/-- The identifier as hyphenated groups. -/
def groups (g : Guid) : String :=
  let d := hexDigits 32 g.bits.toNat
  String.ofList (d.take 8 ++ '-' :: (d.drop 8).take 4 ++ '-' :: (d.drop 12).take 4 ++
    '-' :: (d.drop 16).take 4 ++ '-' :: d.drop 20)

/-- The identifier written by 32 digits. -/
def readDigits? (cs : List Char) : Option Guid :=
  if cs.length = 32 then (hexNumber? cs).map fun n => ⟨BitVec.ofNat 128 n⟩ else none

/-- The identifier written in hyphenated groups. -/
def readGroups? (cs : List Char) : Option Guid :=
  let hyphen (i : Nat) : Bool := cs[i]? == some '-'
  if cs.length = 36 && hyphen 8 && hyphen 13 && hyphen 18 && hyphen 23 then
    readDigits? (cs.take 8 ++ (cs.drop 9).take 4 ++ (cs.drop 14).take 4 ++
      (cs.drop 19).take 4 ++ cs.drop 24)
  else none

/-- The identifier written by digits, in groups, or in groups behind `urn:uuid:`; scheme and digits
are in either letter case.  The longest form has 45 characters. -/
def readForms? (s : String) : Option Guid :=
  if s.length > 45 then none
  else
    let cs := s.toList
    let scheme := "urn:uuid:".toList
    if cs.length = 32 then readDigits? cs
    else if (cs.take scheme.length).map Char.toLower = scheme then
      readGroups? (cs.drop scheme.length)
    else readGroups? cs

/-- Groups are written in lower case, and more forms are read. -/
instance hyphenated : GuidFormat where
  text := groups
  read? := readForms?

end Guid

end TypedExpr
