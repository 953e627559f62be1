import Phrasebook.Json.Value
import Phrasebook.Text.Offset
import Phrasebook.Text.Quoted

/-!
# Faults of a JSON text

Why a text is refused: because it is no value of the format, or because the value is not of the
kind that is asked for. A fault knows the byte offset at which it was noticed and is shown with
the line and the column of that offset.
-/

namespace Phrasebook.Json

/-- What was found where something else was asked for. -/
inductive Found where
  | null
  | bool (value : Bool)
  | whole (value : Int)
  | real (value : Number)
  | text (value : String)
  | list
  | object
deriving DecidableEq, Repr

def Found.describe : Found → String
  | null => "null"
  | bool value => "boolean \x60" ++ (if value then "true" else "false") ++ "\x60"
  | whole value => "integer \x60" ++ toString value ++ "\x60"
  | real value => "floating point \x60" ++ value.write .marked ++ "\x60"
  | text value => "string " ++ Text.quoted value
  | list => "sequence"
  | object => "map"

/-- Why a text is refused. -/
inductive Reason where
  | endInList
  | endInObject
  | endInText
  | endInValue
  | colonExpected
  | listEndExpected
  | objectEndExpected
  | wordExpected
  | valueExpected
  | badEscape
  | badNumber
  | numberOutOfRange
  | controlCharacter
  | nameExpected
  | loneSurrogate
  | trailingComma
  | trailingCharacters
  | escapeCutShort
  | tooDeep
  | wrongKind (found : Found) (expected : String)
  | wrongValue (found : Found) (expected : String)
  | repeatedField (name : String)
  | unknownChoice (choice : String) (first second : String)
  | wrongLength (length : Nat) (expected : String)
deriving DecidableEq, Repr

def Reason.describe : Reason → String
  | endInList => "EOF while parsing a list"
  | endInObject => "EOF while parsing an object"
  | endInText => "EOF while parsing a string"
  | endInValue => "EOF while parsing a value"
  | colonExpected => "expected \x60:\x60"
  | listEndExpected => "expected \x60,\x60 or \x60]\x60"
  | objectEndExpected => "expected \x60,\x60 or \x60\x7d\x60"
  | wordExpected => "expected ident"
  | valueExpected => "expected value"
  | badEscape => "invalid escape"
  | badNumber => "invalid number"
  | numberOutOfRange => "number out of range"
  | controlCharacter => "control character (\\u0000-\\u001F) found while parsing a string"
  | nameExpected => "key must be a string"
  | loneSurrogate => "lone leading surrogate in hex escape"
  | trailingComma => "trailing comma"
  | trailingCharacters => "trailing characters"
  | escapeCutShort => "unexpected end of hex escape"
  | tooDeep => "recursion limit exceeded"
  | wrongKind found expected => "invalid type: " ++ found.describe ++ ", expected " ++ expected
  | wrongValue found expected => "invalid value: " ++ found.describe ++ ", expected " ++ expected
  | repeatedField name => "duplicate field \x60" ++ name ++ "\x60"
  | unknownChoice choice first second =>
    "unknown variant \x60" ++ choice ++ "\x60, expected \x60" ++ first ++ "\x60 or \x60" ++
      second ++ "\x60"
  | wrongLength length expected =>
    "invalid length " ++ toString length ++ ", expected " ++ expected

/-- A reason with the place where it was noticed. A fault of the kind of a value is noticed
without a place and gets one when the value has been read. -/
structure Fault where
  reason : Reason
  offset? : Option Nat
deriving DecidableEq, Repr

/-- The number of bytes between the start of its line and an offset. -/
def columnOf (text : List Char) (offset : Nat) : Nat :=
  go text offset 0
where
  /-- The column of an offset behind the characters that are left, given the column of the first
  of them. -/
  go : List Char → Nat → Nat → Nat
    | [], rest, column => column + rest
    | c :: others, rest, column =>
      if rest < c.utf8Size then column + rest
      else go others (rest - c.utf8Size) (if c = '\n' then 0 else column + c.utf8Size)

def Fault.describe (fault : Fault) (text : String) : String :=
  let offset := fault.offset?.getD 0
  fault.reason.describe ++ " at line " ++ toString (Text.lineOfOffset text offset) ++
    " column " ++ toString (columnOf text.toList offset)

end Phrasebook.Json
