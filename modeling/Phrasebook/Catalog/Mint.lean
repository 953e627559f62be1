import Phrasebook.Catalog.Keyed
import Phrasebook.Path
import Phrasebook.Rule

/-!
# New keys

A key such as `components.home_screen.text_3` is made of a scope, which is derived from the path
of the file, the kind of the text, and an ordinal. The ordinals of a file are counted for each
kind, and one whose key is taken is passed over.
-/

namespace Phrasebook

namespace Scope

/-- Whether a character is an ASCII letter or digit. -/
def isPlain (c : Char) : Bool :=
  c.isAlphanum

/-- Whether a word ends behind the first of two characters: a small letter or a digit before a
capital. -/
def isBoundary (first second : Char) : Bool :=
  (first.isLower || first.isDigit) && second.isUpper

/-- A segment in small letters, its words divided by low lines. Whatever is no ASCII letter or
digit becomes a low line. -/
def snake : List Char → List Char
  | [] => []
  | [c] => [if isPlain c then c.toLower else '_']
  | c :: next :: rest =>
    let written := if isPlain c then c.toLower else '_'
    if isBoundary c next then written :: '_' :: snake (next :: rest)
    else written :: snake (next :: rest)

/-- Whether a text is the extension of a source file, such as `ts`, `jsx` or `mjs`. -/
def isSourceExtension (text : List Char) : Bool :=
  let core :=
    match text with
    | 'c' :: rest => rest
    | 'm' :: rest => rest
    | _ => text
  core == ['j', 's'] || core == ['t', 's'] || core == ['j', 's', 'x'] || core == ['t', 's', 'x']

def withoutExtension (name : List Char) : List Char :=
  let after := (name.reverse.takeWhile (· != '.')).reverse
  if after.length < name.length && isSourceExtension after then
    name.take (name.length - after.length - 1)
  else name

/-- The segments of the scope of the names of a path; the last one names the file. -/
def segmentsOf : List String → List String
  | [] => []
  | [name] => [String.ofList (snake (withoutExtension name.toList))]
  | name :: next :: rest => String.ofList (snake name.toList) :: segmentsOf (next :: rest)

/-- The scope of the keys of a file, given its path below the source root. -/
def ofPath (path : Path) : String :=
  let names := path.components.filterMap fun part ↦
    match part with
    | .name text => some text
    | _ => none
  match (segmentsOf names).filter fun segment ↦ !segment.isEmpty with
  | [] => "unknown"
  | segments => ".".intercalate segments

end Scope

/-- What gives out the keys of one file: their scope and the next ordinal of each kind. -/
structure Minter where
  scope : String
  nextText : Nat
  nextPlural : Nat
deriving DecidableEq, Repr

namespace Minter

def start (scope : String) : Minter :=
  ⟨scope, 1, 1⟩

def keyAt (scope : String) (kind : KeyKind) (ordinal : Nat) : String :=
  scope ++ "." ++ kind.word ++ "_" ++ toString ordinal

def next (minter : Minter) : KeyKind → Nat
  | .text => minter.nextText
  | .plural => minter.nextPlural

def goOn (minter : Minter) (kind : KeyKind) (ordinal : Nat) : Minter :=
  match kind with
  | .text => { minter with nextText := ordinal + 1 }
  | .plural => { minter with nextPlural := ordinal + 1 }

/-- The least ordinal from a start on whose key is not taken. Among one more ordinals than the
catalog has keys there is one. -/
def freeOrdinal (catalog : KeyedCatalog) (scope : String) (kind : KeyKind) (start : Nat) : Nat :=
  let candidates := List.range' start (catalog.size + 1)
  (candidates.find? fun ordinal ↦ !catalog.contains (keyAt scope kind ordinal)).getD start

/-- A key that is not in the catalog, and the minter that goes on behind it. -/
def mint (minter : Minter) (kind : KeyKind) (catalog : KeyedCatalog) : String × Minter :=
  let ordinal := freeOrdinal catalog minter.scope kind (minter.next kind)
  (keyAt minter.scope kind ordinal, minter.goOn kind ordinal)

end Minter

end Phrasebook
