import Phrasebook.Json.Reader

/-!
# Parsing JSON values

Reading a text as a value of any kind. Lists and objects may be nested 127 deep.
-/

namespace Phrasebook.Json

namespace Reader

/-- The number of brackets that may be open at once is below this. -/
def depthLimit : Nat :=
  128

/-- The items of a list; `room` bounds their number. -/
def items {α : Type} (item : Reader α) : Nat → Bool → Reader (List α)
  | 0, _ => return []
  | room + 1, first => do
    if ← moreItems first then
      let value ← item
      return value :: (← items item room false)
    else return []

/-- The members of an object, put behind those that were read; `room` bounds their number. -/
def members (value : Reader Value) :
    Nat → Bool → List (String × Value) → Reader (List (String × Value))
  | 0, _, known => return known
  | room + 1, first, known => do
    if ← moreMembers first then
      let name ← memberName
      colon
      let content ← value
      members value room false (setMember name content known)
    else return known

/-- A bound for the number of values in the text ahead. -/
def room : Reader Nat := do
  return (← get).rest.length + 1

/-- A list whose opening bracket is ahead, given how its items are read. -/
def list : Option (Reader Value) → Reader Value
  | none => failAhead .tooDeep
  | some inner => do
    skip
    closing (do return .list (← items inner (← room) true)) endList

/-- An object whose opening brace is ahead, given how the values of its members are read. -/
def object : Option (Reader Value) → Reader Value
  | none => failAhead .tooDeep
  | some inner => do
    skip
    closing (do return .object (← members inner (← room) true [])) endObject

/-- A value, given how values inside it are read. Without that it may have no inside. -/
def valueAround (inner : Option (Reader Value)) : Reader Value := do
  let c ← startOfValue
  match c with
  | 'n' => skip; word ['u', 'l', 'l']; return .null
  | 't' => skip; word ['r', 'u', 'e']; return .bool true
  | 'f' => skip; word ['a', 'l', 's', 'e']; return .bool false
  | '"' => skip; return .text (← textBody)
  | '[' => list inner
  | '{' => object inner
  | _ => if startsNumber c then number c else failAhead .valueExpected

/-- A value in which brackets nest at most `depth` deep. -/
def value : Nat → Reader Value
  | 0 => valueAround none
  | depth + 1 => valueAround (some (value depth))

end Reader

def parse (text : String) : Except Fault Value :=
  Reader.readAll (Reader.value (Reader.depthLimit - 1)) text

end Phrasebook.Json
