import Phrasebook.Text.Category

/-!
# Classes of characters

The questions that the library asks about one character: whether it belongs to a word, whether it
is blank, whether an identifier may hold it. Every class is one of the Unicode standard; below
code point 128 the answers are computed, beyond it they come from the tables of
`Phrasebook.Text.Category`.
-/

namespace Phrasebook.Text

/-- Whether one of the sorted, disjoint ranges holds the code point. -/
def inRanges : List (Nat × Nat) → Nat → Bool
  | [], _ => false
  | (first, last) :: rest, code =>
    if code < first then false else code ≤ last || inRanges rest code

/-- The property `Alphabetic`: letters, letter numbers and the marks that belong to words. -/
def isAlphabetic (c : Char) : Bool :=
  if c.toNat < 128 then c.isAlpha
  else
    inRanges Category.letter c.toNat || inRanges Category.letterNumber c.toNat ||
      inRanges Category.otherAlphabetic c.toNat

/-- The categories of numbers: decimal digits, letter numbers and all others. -/
def isNumeric (c : Char) : Bool :=
  if c.toNat < 128 then c.isDigit
  else
    inRanges Category.decimalNumber c.toNat || inRanges Category.letterNumber c.toNat ||
      inRanges Category.otherNumber c.toNat

def isAlphanumeric (c : Char) : Bool :=
  isAlphabetic c || isNumeric c

/-- The property `White_Space`. -/
def isBlank (c : Char) : Bool :=
  let code := c.toNat
  (9 ≤ code && code ≤ 13) || code == 32 || code == 133 || code == 160 || code == 5760 ||
    (8192 ≤ code && code ≤ 8202) || code == 8232 || code == 8233 || code == 8239 ||
    code == 8287 || code == 12288

/-- The characters of a word in the sense of a word boundary: alphabetic characters, marks,
decimal digits, connecting punctuation and the two joiners. -/
def isWordCharacter (c : Char) : Bool :=
  if c.toNat < 128 then c.isAlphanum || c == '_'
  else
    isAlphabetic c || inRanges Category.mark c.toNat ||
      inRanges Category.decimalNumber c.toNat || isConnector c.toNat ||
      c.toNat == 0x200C || c.toNat == 0x200D
where
  /-- Connecting punctuation beyond the low line. -/
  isConnector (code : Nat) : Bool :=
    code == 0x203F || code == 0x2040 || code == 0x2054 || code == 0xFE33 || code == 0xFE34 ||
      (0xFE4D ≤ code && code ≤ 0xFE4F) || code == 0xFF3F

def startsIdentifier (c : Char) : Bool :=
  if c.toNat < 128 then c.isAlpha
  else
    (inRanges Category.letter c.toNat && c.toNat != 0x2E2F) ||
      inRanges Category.letterNumber c.toNat || c.toNat == 0x1885 || c.toNat == 0x1886 ||
      c.toNat == 0x2118 || c.toNat == 0x212E || c.toNat == 0x309B || c.toNat == 0x309C

def continuesIdentifier (c : Char) : Bool :=
  if c.toNat < 128 then c.isAlphanum || c == '_'
  else
    startsIdentifier c || (inRanges Category.mark c.toNat && !isEnclosing c.toNat) ||
      inRanges Category.decimalNumber c.toNat || isWordCharacter.isConnector c.toNat ||
      c.toNat == 0xB7 || c.toNat == 0x387 || (0x1369 ≤ c.toNat && c.toNat ≤ 0x1371) ||
      c.toNat == 0x19DA
where
  /-- Marks that enclose their base, which no identifier holds. -/
  isEnclosing (code : Nat) : Bool :=
    code == 1160 || code == 1161 || code == 6846 || (8413 ≤ code && code ≤ 8416) ||
      (8418 ≤ code && code ≤ 8420) || (42608 ≤ code && code ≤ 42610)

def digitValue? (radix : Nat) (c : Char) : Option Nat :=
  let code := c.toNat
  let value :=
    if c.isDigit then some (code - 48)
    else if 97 ≤ code && code ≤ 102 then some (code - 87)
    else if 65 ≤ code && code ≤ 70 then some (code - 55)
    else none
  value.filter (· < radix)

/-- The number that a list of digits denotes, the most significant first. -/
def ofDigits (radix : Nat) (digits : List Char) : Nat :=
  digits.foldl (fun value c ↦ value * radix + (digitValue? radix c).getD 0) 0

end Phrasebook.Text
