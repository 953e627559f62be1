import Phrasebook.Number.Basic
import Phrasebook.Text.Letter

/-!
# Numbers in a text

A text is read as a number when it is an optional sign followed by digits with an optional point
and an optional power of ten, or by one of the words for a value that has no digits. Nothing may
stand around the number.
-/

namespace Phrasebook.Number

/-- The sign that a text begins with, and the text after it. -/
def readSign : List Char → Bool × List Char
  | '-' :: rest => (true, rest)
  | '+' :: rest => (false, rest)
  | text => (false, text)

/-- The power of ten at the end of a number; nothing when there is something else. -/
def readPower? : List Char → Option Int
  | [] => some 0
  | c :: rest =>
    if c == 'e' || c == 'E' then
      let (negative, digits) := readSign rest
      if digits.isEmpty || !digits.all Char.isDigit then none
      else
        let value : Int := Text.ofDigits 10 digits
        some (if negative then -value else value)
    else none

/-- The digits behind the point that a text begins with, if there is one, and the text after
them. -/
def readFraction : List Char → List Char × List Char
  | '.' :: rest => (rest.takeWhile Char.isDigit, rest.dropWhile Char.isDigit)
  | text => ([], text)

def readDigits? (negative : Bool) (text : List Char) : Option Number :=
  let whole := text.takeWhile Char.isDigit
  let (fraction, rest) := readFraction (text.dropWhile Char.isDigit)
  if whole.isEmpty && fraction.isEmpty then none
  else
    (readPower? rest).map fun power ↦
      ofDecimal negative (Text.ofDigits 10 (whole ++ fraction)) (power - fraction.length)

/-- The number that a text denotes, if it is a number as a whole. -/
def read? (text : String) : Option Number :=
  let (negative, magnitude) := readSign text.toList
  let word := String.ofList (magnitude.map Char.toLower)
  if word == "inf" || word == "infinity" then some (infinite negative)
  else if word == "nan" then some undefined
  else readDigits? negative magnitude

end Phrasebook.Number
