import Phrasebook.Json.Fault

/-!
# Reading JSON texts

The pieces from which texts of the format are read: blanks, words, texts between quotes, numbers,
and the punctuation of lists and objects. A reader keeps the rest of the text and its offset, also
when it fails, because a fault of the kind of a value is noticed only behind the value.

A number is read digit by digit as far as the digits fit into 64 bits. What is no integer within
64 bits becomes a binary number by one multiplication or division with a power of ten.
-/

namespace Phrasebook.Json

/-- The rest of a text and its offset in bytes. -/
structure Input where
  offset : Nat
  rest : List Char
deriving DecidableEq, Repr

/-- What reads a piece of a text. -/
abbrev Reader (α : Type) :=
  ExceptT Fault (StateM Input) α

namespace Reader

def peek? : Reader (Option Char) := do
  return (← get).rest.head?

def next? : Reader (Option Char) := do
  let input ← get
  match input.rest with
  | [] => return none
  | c :: rest =>
    set (Input.mk (input.offset + c.utf8Size) rest)
    return some c

def skip : Reader Unit := do
  let _ ← next?

/-- Takes the characters ahead for which a property holds. -/
def takeWhile (p : Char → Bool) : Reader (List Char) := do
  let input ← get
  let taken := input.rest.takeWhile p
  set (Input.mk (input.offset + Text.size taken) (input.rest.dropWhile p))
  return taken

/-- Fails behind the last character that was taken. -/
def failHere {α : Type} (reason : Reason) : Reader α := do
  throw ⟨reason, some (← get).offset⟩

/-- Fails behind the first byte of the character ahead. -/
def failAhead {α : Type} (reason : Reason) : Reader α := do
  let input ← get
  throw ⟨reason, some (if input.rest.isEmpty then input.offset else input.offset + 1)⟩

/-- Fails behind the first byte of a character that was taken. -/
def failWithin {α : Type} (c : Char) (reason : Reason) : Reader α := do
  throw ⟨reason, some ((← get).offset - c.utf8Size + 1)⟩

def failKind {α : Type} (reason : Reason) : Reader α :=
  throw ⟨reason, none⟩

def isBlank (c : Char) : Bool :=
  c == ' ' || c == '\n' || c == '\t' || c == '\r'

/-- Takes the blanks ahead and looks at the character behind them. -/
def afterBlanks? : Reader (Option Char) := do
  let _ ← takeWhile isBlank
  peek?

/-- The character behind the blanks ahead, at which a value starts. -/
def startOfValue : Reader Char := do
  match ← afterBlanks? with
  | some c => return c
  | none => failAhead .endInValue

def word : List Char → Reader Unit
  | [] => return
  | c :: rest => do
    match ← next? with
    | none => failHere .endInValue
    | some d => if d == c then word rest else failWithin d .wordExpected

def hexDigits : Reader Nat := do
  let input ← get
  let four := input.rest.take 4
  if Text.size input.rest < 4 then
    set (Input.mk (input.offset + Text.size input.rest) [])
    failHere .endInText
  else if four.all fun c ↦ (Text.digitValue? 16 c).isSome then
    set (Input.mk (input.offset + 4) (input.rest.drop 4))
    return Text.ofDigits 16 four
  else throw ⟨.badEscape, some (input.offset + 4)⟩

/-- Takes a character that the second half of a pair of escapes needs. -/
def escapeMark (mark : Char) : Reader Unit := do
  match ← next? with
  | none => failHere .endInText
  | some c => if c == mark then return else failWithin c .escapeCutShort

/-- The character that two surrogates stand for. -/
def joinSurrogates (high low : Nat) : Char :=
  Char.ofNat ((high - 0xD800) * 1024 + (low - 0xDC00) + 0x10000)

/-- The character of an escaped code, which may take two escapes. -/
def escapedCode : Reader Char := do
  let high ← hexDigits
  if 0xDC00 ≤ high && high ≤ 0xDFFF then failHere .loneSurrogate
  else if high < 0xD800 || 0xDBFF < high then return Char.ofNat high
  else
    escapeMark '\\'
    escapeMark 'u'
    let low ← hexDigits
    if low < 0xDC00 || 0xDFFF < low then failHere .loneSurrogate
    else return joinSurrogates high low

/-- The character that a letter behind a backslash stands for. -/
def plainEscape? (c : Char) : Option Char :=
  match c with
  | '"' => some '"'
  | '\\' => some '\\'
  | '/' => some '/'
  | 'b' => some (Char.ofNat 8)
  | 'f' => some (Char.ofNat 12)
  | 'n' => some '\n'
  | 'r' => some '\r'
  | 't' => some '\t'
  | _ => none

def escaped : Reader Char := do
  match ← next? with
  | none => failHere .endInText
  | some 'u' => escapedCode
  | some c =>
    match plainEscape? c with
    | some meant => return meant
    | none => failWithin c .badEscape

/-- The characters up to a closing quote; `room` bounds their number. -/
def textChars : Nat → Reader (List Char)
  | 0 => failHere .endInText
  | room + 1 => do
    match ← next? with
    | none => failHere .endInText
    | some '"' => return []
    | some '\\' => do
      let c ← escaped
      return c :: (← textChars room)
    | some c =>
      if c.toNat < 32 then failHere .controlCharacter
      else return c :: (← textChars room)

def textBody : Reader String := do
  let input ← get
  return String.ofList (← textChars (input.rest.length + 1))

/-! ## Numbers -/

def greatestWhole : Nat :=
  Nat.pow 2 64 - 1

/-- Digits put behind a number as far as they fit into 64 bits, with the digits left over. -/
def putDigits : Nat → List Char → Nat × List Char
  | value, [] => (value, [])
  | value, c :: rest =>
    let longer := value * 10 + (c.toNat - 48)
    if greatestWhole < longer then (value, c :: rest) else putDigits longer rest

def greatestPower : Nat :=
  308

/-- A number times a power of ten; nothing when it is too large. Powers that are no numbers are
divided out in steps, after `room` of which nothing is left. -/
def timesPower? : Nat → Number → Int → Option Number
  | room, value, exponent =>
    if exponent.natAbs ≤ greatestPower then
      let power := Number.ofDecimal false 1 exponent.natAbs
      if 0 ≤ exponent then
        let product := value.multiply power
        if product.isInfinite then none else some product
      else some (value.divide power)
    else if value.isZero then some value
    else if 0 ≤ exponent then none
    else
      match room with
      | 0 => some .zero
      | room + 1 =>
        timesPower? room (value.divide (Number.ofDecimal false 1 greatestPower))
          (exponent + greatestPower)

/-- The number of a sign, digits and a power of ten. -/
def numberOfParts (negative : Bool) (digits : Nat) (exponent : Int) : Reader Value := do
  match timesPower? 3 (Number.ofInt digits) exponent with
  | some value => return .real (if negative then value.negate else value)
  | none => failHere .numberOutOfRange

def greatestExponent : Nat :=
  Nat.pow 2 31 - 1

/-- The digits of an exponent put behind a number; nothing when it becomes too large. `room`
bounds their number. -/
def exponentDigits : Nat → Nat → Reader (Option Nat)
  | 0, value => return some value
  | room + 1, value => do
    match ← peek? with
    | some c =>
      if c.isDigit then
        skip
        let longer := value * 10 + (c.toNat - 48)
        if greatestExponent < longer then return none else exponentDigits room longer
      else return some value
    | none => return some value

def exponentSign : Reader Bool := do
  match ← peek? with
  | some '+' => skip; return false
  | some '-' => skip; return true
  | _ => return false

def exponent (negative : Bool) (digits : Nat) (start : Int) : Reader Value := do
  skip
  let falls ← exponentSign
  match ← next? with
  | none => failHere .endInValue
  | some c =>
    if !c.isDigit then failWithin c .badNumber
    else
      match ← exponentDigits (← get).rest.length (c.toNat - 48) with
      | some value =>
        let power : Int := value
        numberOfParts negative digits (if falls then start - power else start + power)
      | none =>
        if digits != 0 && !falls then failHere .numberOutOfRange
        else
          let _ ← takeWhile Char.isDigit
          return .real (if negative then Number.zero.negate else .zero)

def marksExponent (c : Option Char) : Bool :=
  c == some 'e' || c == some 'E'

def fraction (negative : Bool) (digits : Nat) (start : Int) : Reader Value := do
  skip
  let written ← takeWhile Char.isDigit
  let (value, left) := putDigits digits written
  if written.isEmpty then
    if (← peek?).isSome then failAhead .badNumber else failAhead .endInValue
  else
    let power := start - ((written.length - left.length : Nat) : Int)
    if marksExponent (← peek?) then exponent negative value power
    else numberOfParts negative value power

/-- The value of an integer. Zero with a minus and what is below 64 bits is no integer. -/
def wholeValue (negative : Bool) (digits : Nat) : Value :=
  if !negative then .whole digits
  else if digits == 0 || Nat.pow 2 63 < digits then .real (Number.ofInt digits).negate
  else .whole (-digits)

/-- A number whose digits before the point were taken, of which some did not fit. -/
def numberRest (negative : Bool) (digits dropped : Nat) : Reader Value := do
  let ahead ← peek?
  if ahead == some '.' then fraction negative digits dropped
  else if marksExponent ahead then exponent negative digits dropped
  else if dropped == 0 then return wholeValue negative digits
  else numberOfParts negative digits dropped

def numberBody (negative : Bool) : Reader Value := do
  match ← next? with
  | none => failHere .endInValue
  | some c =>
    if c == '0' then
      if ((← peek?).map Char.isDigit).getD false then failAhead .badNumber
      else numberRest negative 0 0
    else if c.isDigit then
      let (value, left) := putDigits 0 (c :: (← takeWhile Char.isDigit))
      numberRest negative value left.length
    else failWithin c .badNumber

def number (start : Char) : Reader Value := do
  if start == '-' then
    skip
    numberBody true
  else numberBody false

def startsNumber (c : Char) : Bool :=
  c == '-' || c.isDigit

def moreItems (first : Bool) : Reader Bool := do
  match ← afterBlanks? with
  | none => failAhead .endInList
  | some ']' => return false
  | some c =>
    if first then return true
    else if c == ',' then
      skip
      match ← afterBlanks? with
      | some ']' => failAhead .trailingComma
      | some _ => return true
      | none => failAhead .endInValue
    else failAhead .listEndExpected

def endList : Reader Unit := do
  match ← afterBlanks? with
  | some ']' => skip
  | some ',' =>
    skip
    if (← afterBlanks?) == some ']' then failAhead .trailingComma
    else failAhead .trailingCharacters
  | some _ => failAhead .trailingCharacters
  | none => failAhead .endInList

/-- Whether another member of an object follows; its opening quote is ahead. -/
def moreMembers (first : Bool) : Reader Bool := do
  match ← afterBlanks? with
  | none => failAhead .endInObject
  | some '}' => return false
  | some c =>
    if first then if c == '"' then return true else failAhead .nameExpected
    else if c == ',' then
      skip
      match ← afterBlanks? with
      | some '"' => return true
      | some '}' => failAhead .trailingComma
      | some _ => failAhead .nameExpected
      | none => failAhead .endInValue
    else failAhead .objectEndExpected

/-- Takes the name of a member whose opening quote is ahead. -/
def memberName : Reader String := do
  skip
  textBody

def colon : Reader Unit := do
  match ← afterBlanks? with
  | some ':' => skip
  | some _ => failAhead .colonExpected
  | none => failAhead .endInObject

def endObject : Reader Unit := do
  match ← afterBlanks? with
  | some '}' => skip
  | some ',' => failAhead .trailingComma
  | some _ => failAhead .trailingCharacters
  | none => failAhead .endInObject

/-- Reads a body and then its end, also when the body failed. The fault of the body counts before
the fault of the end. -/
def closing {α : Type} (body : Reader α) (finish : Reader Unit) : Reader α :=
  ExceptT.mk do
    let outcome ← body.run
    let closed ← finish.run
    return outcome.bind fun value ↦ closed.map fun _ ↦ value

/-- Gives a fault without a place the place that was reached. -/
def placed {α : Type} (reader : Reader α) : Reader α :=
  ExceptT.mk do
    let outcome ← reader.run
    let reached := (← get).offset
    return outcome.mapError fun fault ↦ { fault with offset? := fault.offset?.or (some reached) }

def finish : Reader Unit := do
  if (← afterBlanks?).isSome then failAhead .trailingCharacters

def readAll {α : Type} (reader : Reader α) (text : String) : Except Fault α :=
  let whole : Reader α := do
    let value ← reader
    finish
    return value
  (whole.run.run ⟨0, text.toList⟩).1

end Reader

end Phrasebook.Json
