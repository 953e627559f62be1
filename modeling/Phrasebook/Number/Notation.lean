import Phrasebook.Number.Shortest

/-!
# Written numbers

How a number is written: which numbers are written out in full, whether a whole number gets a
point, and how a power of ten is marked. `Notation.plain` is the form in which a number is put
into a text, `Notation.marked` the form in which a data format shows that a number is no integer.
-/

namespace Phrasebook.Number

/-- The decisions of a written form of numbers. -/
structure Notation where
  /-- Whether numbers whose leading digit stands at this power of ten are written out in full. -/
  writesOut : Int → Bool
  /-- Whether a whole number that is written out ends in a point and a zero. -/
  marksWhole : Bool
  tie : Tie

namespace Notation

/-- Numbers within a text are written out in full, whatever their size. -/
def plain : Notation where
  writesOut _ := true
  marksWhole := false
  tie := .upward

/-- Numbers of a data format get a point, or a signed power of ten when they are very large or
very small. -/
def marked : Notation where
  writesOut leading := -5 ≤ leading && leading ≤ 15
  marksWhole := true
  tie := .toEven

/-- The digits of a decimal with the point where it belongs. -/
def writeOut (style : Notation) (digits : List Char) (exponent : Int) : List Char :=
  if 0 ≤ exponent then
    digits ++ List.replicate exponent.toNat '0' ++ if style.marksWhole then ['.', '0'] else []
  else
    let places := (-exponent).toNat
    if digits.length ≤ places then
      '0' :: '.' :: List.replicate (places - digits.length) '0' ++ digits
    else digits.take (digits.length - places) ++ '.' :: digits.drop (digits.length - places)

/-- The digits of a decimal with a point behind the first one and a power of ten. -/
def writePower (digits : List Char) (leading : Int) : List Char :=
  let sign := if leading < 0 then ['e', '-'] else ['e', '+']
  let power := sign ++ Nat.toDigits 10 leading.natAbs
  match digits with
  | [] => power
  | [digit] => digit :: power
  | digit :: others => digit :: '.' :: others ++ power

def writeDigits (style : Notation) (digits : Digits) : List Char :=
  let written := Nat.toDigits 10 digits.value
  let leading : Int := digits.exponent + written.length - 1
  if style.writesOut leading then style.writeOut written digits.exponent
  else writePower written leading

end Notation

/-- The magnitude of a finite number in a written form. -/
def writeMagnitude (style : Notation) (mantissa : Nat) (exponent : Int) : List Char :=
  style.writeDigits (if mantissa = 0 then ⟨0, 0⟩ else Digits.shortest style.tie mantissa exponent)

def write (style : Notation) : Number → String
  | undefined => "NaN"
  | infinite negative => if negative then "-inf" else "inf"
  | finite negative mantissa exponent =>
    let sign := if negative then ['-'] else []
    String.ofList (sign ++ writeMagnitude style mantissa exponent)

def render (number : Number) : String :=
  number.write .plain

end Phrasebook.Number
