import Phrasebook.Catalog.Basic
import Phrasebook.Json.Parse
import Phrasebook.Text.Line

/-!
# The text of a catalog

A catalog is stored as one flat object of a JSON text, one member a line. A text that was written
by hand may nest objects: their keys are joined by dots. A value that is no text has no place in a
catalog and is passed over, except that `null` counts as an empty text.
-/

namespace Phrasebook.Catalog

/-- A value that was passed over. -/
structure PassedOver where
  key : String
  value : Json.Value

/-- Why a text is no catalog. -/
inductive TextFault where
  | json (fault : Json.Fault)
  | notAnObject
deriving DecidableEq, Repr

def TextFault.describe (text : String) : TextFault → String
  | json fault => fault.describe text
  | notAnObject => "Root of a catalog must be a JSON object"

def keyBelow (outer key : String) : String :=
  if outer.isEmpty then key else outer ++ "." ++ key

/-- What a value below some keys adds to a catalog, in order: entries and values passed over. -/
inductive Leaf where
  | entry (key template : String)
  | passedOver (value : PassedOver)

mutual

/-- The leaves of a value that stands under a key. -/
def leavesOfValue (key : String) : Json.Value → List Leaf
  | .text value => [.entry key value]
  | .null => [.entry key ""]
  | .object members => leavesOfMembers key members
  | value => [.passedOver ⟨key, value⟩]

/-- The leaves of the members of an object that stands under a key. -/
def leavesOfMembers (outer : String) : List (String × Json.Value) → List Leaf
  | [] => []
  | (name, value) :: rest =>
    leavesOfValue (keyBelow outer name) value ++ leavesOfMembers outer rest

end

def Leaf.entry? : Leaf → Option (String × String)
  | entry key template => some (key, template)
  | passedOver _ => none

def Leaf.passedOver? : Leaf → Option PassedOver
  | entry _ _ => none
  | passedOver value => some value

/-- The catalog that a text denotes, with the values passed over. A blank text is an empty
catalog. -/
def read (text : String) : Except TextFault (Catalog × List PassedOver) :=
  if Text.isBlankText text then .ok (.empty, [])
  else
    match Json.parse text with
    | .error fault => .error (.json fault)
    | .ok (.object members) =>
      let leaves := leavesOfMembers "" members
      .ok (ofList (leaves.filterMap Leaf.entry?), leaves.filterMap Leaf.passedOver?)
    | .ok _ => .error .notAnObject

def writeEntry (entry : String × String) : String :=
  "  " ++ Json.quote entry.1 ++ ": " ++ Json.quote entry.2

/-- The text of a catalog, with one entry a line and a line feed at the end. -/
def write (catalog : Catalog) : String :=
  if catalog.isEmpty then "\x7b\x7d\n"
  else "\x7b\n" ++ ",\n".intercalate (catalog.entries.map writeEntry) ++ "\n\x7d\n"

end Phrasebook.Catalog
