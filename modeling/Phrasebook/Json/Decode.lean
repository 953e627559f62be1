import Phrasebook.Json.Parse

/-!
# Decoding records

Reading a text as a record with known fields. A record is an object whose members are the fields,
or a list of the values of the fields in order. Members that are no fields are skipped over. A
value of the wrong kind is a fault that says what was found and what is expected.
-/

namespace Phrasebook.Json.Reader

/-- Takes the exponent of a number that is skipped over. -/
def skipExponent : Reader Unit := do
  skip
  let _ ← exponentSign
  match ← next? with
  | some c =>
    if c.isDigit then
      let _ ← takeWhile Char.isDigit
    else failWithin c .badNumber
  | none => failHere .badNumber

/-- Takes the fraction of a number that is skipped over. -/
def skipFraction : Reader Unit := do
  skip
  let digits ← takeWhile Char.isDigit
  if digits.isEmpty then failAhead .badNumber
  else if marksExponent (← peek?) then skipExponent

def skipNumber : Reader Unit := do
  match ← next? with
  | none => failHere .badNumber
  | some c =>
    if c == '0' then
      if ((← peek?).map Char.isDigit).getD false then failAhead .badNumber
    else if c.isDigit then
      let _ ← takeWhile Char.isDigit
    else failWithin c .badNumber
    let ahead ← peek?
    if ahead == some '.' then skipFraction
    else if marksExponent ahead then skipExponent

/-- Takes the character behind a backslash. The halves of a pair of escapes may stand alone. -/
def skipEscaped : Reader Unit := do
  match ← next? with
  | none => failHere .endInText
  | some 'u' =>
    let _ ← hexDigits
  | some c => if (plainEscape? c).isNone then failWithin c .badEscape

/-- Takes the characters up to a closing quote; `room` bounds their number. -/
def skipChars : Nat → Reader Unit
  | 0 => failHere .endInText
  | room + 1 => do
    match ← peek? with
    | none => failHere .endInText
    | some '"' => skip
    | some '\\' =>
      skip
      skipEscaped
      skipChars room
    | some c =>
      if c.toNat < 32 then failHere .controlCharacter
      else
        skip
        skipChars room

/-- Takes a text whose opening quote was taken. -/
def skipText : Reader Unit := do
  skipChars (← room)

/-- A bracket that is open while values are skipped over. -/
inductive Bracket where
  | list
  | object
deriving DecidableEq, Repr

/-- Takes a name and a colon in an object, or nothing in a list. -/
def skipName : Bracket → Reader Unit
  | .list => return
  | .object => do
    match ← afterBlanks? with
    | some '"' => skip
    | some _ => failAhead .nameExpected
    | none => failAhead .endInObject
    skipText
    match ← afterBlanks? with
    | some ':' => skip
    | some _ => failAhead .colonExpected
    | none => failAhead .endInObject

/-- Takes the brackets that are closed ahead, up to where the next value starts, and returns those
that are open there. `comma` says whether a value was just taken. -/
def skipClosed (comma : Bool) : List Bracket → Reader (List Bracket)
  | [] => return []
  | bracket :: outer => do
    match ← afterBlanks?, bracket with
    | some ']', .list => skip; skipClosed true outer
    | some '}', .object => skip; skipClosed true outer
    | some c, _ =>
      if comma && c == ',' then
        skip
        skipName bracket
        return bracket :: outer
      else if comma then
        match bracket with
        | .list => failAhead .listEndExpected
        | .object => failAhead .objectEndExpected
      else
        skipName bracket
        return bracket :: outer
    | none, .list => failAhead .endInList
    | none, .object => failAhead .endInObject

/-- Takes a value inside the given brackets and everything up to the last of them; `room` bounds
the number of values. -/
def skipValues : Nat → List Bracket → Reader Unit
  | 0, _ => return
  | room + 1, open_ => do
    let c ← startOfValue
    let (taken, inside) ← start c open_
    let rest ← skipClosed taken inside
    if rest.isEmpty then return else skipValues room rest
where
  /-- Takes a value without parts, or the opening bracket of any other value. -/
  start (c : Char) (open_ : List Bracket) : Reader (Bool × List Bracket) := do
    match c with
    | 'n' => skip; word ['u', 'l', 'l']; return (true, open_)
    | 't' => skip; word ['r', 'u', 'e']; return (true, open_)
    | 'f' => skip; word ['a', 'l', 's', 'e']; return (true, open_)
    | '"' => skip; skipText; return (true, open_)
    | '[' => skip; return (false, .list :: open_)
    | '{' => skip; return (false, .object :: open_)
    | '-' => skip; skipNumber; return (true, open_)
    | _ =>
      if c.isDigit then
        skipNumber
        return (true, open_)
      else failAhead .valueExpected

def skipValue : Reader Unit := do
  skipValues (← room) []

/-- What a number is found to be. -/
def foundNumber : Value → Found
  | .whole value => .whole value
  | .real value => .real value
  | _ => .null

/-- Fails because the value ahead, which starts with the given character, is of another kind than
expected. -/
def wrongKind {α : Type} (expected : String) (c : Char) : Reader α := do
  match c with
  | 'n' => skip; word ['u', 'l', 'l']; failKind (.wrongKind .null expected)
  | 't' => skip; word ['r', 'u', 'e']; failKind (.wrongKind (.bool true) expected)
  | 'f' => skip; word ['a', 'l', 's', 'e']; failKind (.wrongKind (.bool false) expected)
  | '"' => skip; failKind (.wrongKind (.text (← textBody)) expected)
  | '[' => failKind (.wrongKind .list expected)
  | '{' => failKind (.wrongKind .object expected)
  | _ =>
    if startsNumber c then failKind (.wrongKind (foundNumber (← number c)) expected)
    else failAhead .valueExpected

def text : Reader String :=
  placed do
    let c ← startOfValue
    if c == '"' then
      skip
      textBody
    else wrongKind "a string" c

/-- An integer from zero on, within 64 bits. -/
def natural (expected : String) : Reader Nat :=
  placed do
    let c ← startOfValue
    if startsNumber c then
      match ← number c with
      | .whole value =>
        if 0 ≤ value then return value.toNat else failKind (.wrongValue (.whole value) expected)
      | other => failKind (.wrongKind (foundNumber other) expected)
    else wrongKind expected c

def texts : Reader (List String) :=
  placed do
    let c ← startOfValue
    if c == '[' then
      skip
      closing (do items text (← room) true) endList
    else wrongKind "a sequence" c

/-- The members of an object of texts; `room` bounds their number. -/
def textMembers : Nat → Bool → Reader (List (String × String))
  | 0, _ => return []
  | room + 1, first => do
    if ← moreMembers first then
      let name ← memberName
      colon
      let value ← text
      return (name, value) :: (← textMembers room false)
    else return []

def textObject : Reader (List (String × String)) :=
  placed do
    let c ← startOfValue
    if c == '{' then
      skip
      closing (do textMembers (← room) true) endObject
    else wrongKind "a map" c

/-- A value, or nothing where the text has `null`. -/
def optional {α : Type} (reader : Reader α) : Reader (Option α) := do
  if (← afterBlanks?) == some 'n' then
    skip
    word ['u', 'l', 'l']
    return none
  else return some (← reader)

def nothing : Reader Unit :=
  placed do
    let c ← startOfValue
    if c == 'n' then
      skip
      word ['u', 'l', 'l']
    else wrongKind "unit" c

/-- One of two words, as a text or as the only name in an object. -/
def choice {α : Type} (first second : String × α) : Reader α := do
  match ← afterBlanks? with
  | some '"' => pick "variant identifier"
  | some '{' =>
    skip
    let value ← pick "variant identifier"
    colon
    nothing
    match ← afterBlanks? with
    | some '}' =>
      skip
      return value
    | some _ => failHere .valueExpected
    | none => failHere .endInObject
  | some _ => failAhead .valueExpected
  | none => failAhead .endInValue
where
  /-- The value of the word ahead. -/
  pick (expected : String) : Reader α :=
    placed do
      let c ← startOfValue
      if c == '"' then
        skip
        let word ← textBody
        if word == first.1 then return first.2
        else if word == second.1 then return second.2
        else failKind (.unknownChoice word first.1 second.1)
      else wrongKind expected c

/-- A field of a record: its name and how its value is read and stored. -/
structure Field (ρ : Type) where
  name : String
  read : Reader (ρ → ρ)

/-- A kind of record: how messages call it, its fields, and the record before any field is
stored. -/
structure RecordKind (ρ : Type) where
  title : String
  fields : List (Field ρ)
  initial : ρ
  /-- Whether a list may end before the last field. -/
  allowsShortLists : Bool

/-- A record from the members of an object; `seen` are the fields that were read, and `room`
bounds the number of members. -/
def recordMembers {ρ : Type} (kind : RecordKind ρ) :
    Nat → Bool → List String → ρ → Reader ρ
  | 0, _, _, record => return record
  | room + 1, first, seen, record => do
    if ← moreMembers first then
      let name ← memberName
      match kind.fields.find? fun field ↦ field.name == name with
      | some field =>
        if seen.contains name then failKind (.repeatedField name)
        colon
        let store ← field.read
        recordMembers kind room false (name :: seen) (store record)
      | none =>
        colon
        skipValue
        recordMembers kind room false seen record
    else return record

/-- A record from the items of a list, for the fields that are left. -/
def recordItems {ρ : Type} (kind : RecordKind ρ) :
    List (Field ρ) → Nat → ρ → Reader ρ
  | [], _, record => return record
  | field :: rest, count, record => do
    if ← moreItems (count == 0) then
      let store ← field.read
      recordItems kind rest (count + 1) (store record)
    else if kind.allowsShortLists then return record
    else
      failKind (.wrongLength count
        (kind.title ++ " with " ++ toString kind.fields.length ++ " elements"))

def record {ρ : Type} (kind : RecordKind ρ) : Reader ρ :=
  placed do
    let c ← startOfValue
    if c == '[' then
      skip
      closing (recordItems kind kind.fields 0 kind.initial) endList
    else if c == '{' then
      skip
      closing (do recordMembers kind (← room) true [] kind.initial) endObject
    else wrongKind kind.title c

end Phrasebook.Json.Reader
