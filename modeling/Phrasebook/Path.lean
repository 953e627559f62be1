import Phrasebook.Text.Field

/-!
# Paths

A path is kept as it was written, because messages show it so, and is understood by its
components: slashes divide them, and neither a repeated slash nor a single dot inside a path
counts. Paths are compared and ordered by their components.
-/

namespace Phrasebook

/-- A path as it was written. -/
structure Path where
  text : String
deriving DecidableEq, Repr, Inhabited

namespace Path

/-- A component of a path. -/
inductive Component where
  | root
  /-- The dot at the start of a relative path. -/
  | here
  | up
  | name (text : String)
deriving DecidableEq, Repr

/-- A text between slashes with the component that it stands for. Empty texts and dots stand for
none, except at the start. -/
structure Piece where
  component? : Option Component
  raw : List Char
deriving DecidableEq, Repr

def Piece.inner (raw : List Char) : Piece where
  component? :=
    if raw.isEmpty || raw == ['.'] then none
    else if raw == ['.', '.'] then some .up
    else some (.name (String.ofList raw))
  raw := raw

def pieces (path : Path) : List Piece :=
  match Text.fields '/' path.text.toList with
  | [] :: next :: others => ⟨some .root, []⟩ :: (next :: others).map Piece.inner
  | ['.'] :: others => ⟨some .here, ['.']⟩ :: others.map Piece.inner
  | raw => raw.map Piece.inner

def components (path : Path) : List Component :=
  path.pieces.filterMap (·.component?)

def isAbsolute (path : Path) : Bool :=
  path.text.toList.head? == some '/'

def ofPieces : List Piece → Path
  | [⟨some .root, _⟩] => ⟨"/"⟩
  | pieces => ⟨"/".intercalate (pieces.map fun piece ↦ String.ofList piece.raw)⟩

/-- A path below another one. An absolute path stays as it is. -/
def join (base path : Path) : Path :=
  if path.isAbsolute || base.text.isEmpty then path
  else if base.text.toList.getLast? == some '/' then ⟨base.text ++ path.text⟩
  else ⟨base.text ++ "/" ++ path.text⟩

/-- Pieces without those at the end that stand for nothing. -/
def trimPieces (pieces : List Piece) : List Piece :=
  (pieces.reverse.dropWhile fun piece ↦ piece.component?.isNone).reverse

/-- A path without its last component; nothing when it has none or is the root. -/
def parent? (path : Path) : Option Path :=
  match (trimPieces path.pieces).reverse with
  | [] => none
  | ⟨some .root, _⟩ :: _ => none
  | _ :: others => some (ofPieces (trimPieces others.reverse))

def dropComponents? : List Component → List Piece → Option (List Piece)
  | [], pieces => some pieces
  | _ :: _, [] => none
  | first :: others, piece :: pieces =>
    match piece.component? with
    | none => dropComponents? (first :: others) pieces
    | some component => if first = component then dropComponents? others pieces else none

/-- A path as seen from a directory that it begins with. -/
def relativeTo? (path base : Path) : Option Path :=
  (dropComponents? base.components path.pieces).map fun rest ↦
    let trimmed := trimPieces rest
    ofPieces <|
      if base.components.isEmpty then trimmed
      else trimmed.dropWhile fun piece ↦ piece.component?.isNone

/-- A path as seen from a directory, or the path itself when it does not begin with it. -/
def relativeTo (path base : Path) : Path :=
  (path.relativeTo? base).getD path

def fileName? (path : Path) : Option String :=
  match path.components.getLast? with
  | some (.name text) => some text
  | _ => none

/-- A name before and behind its last dot. A dot at the start of a name divides nothing. -/
def splitName (name : List Char) : List Char × Option (List Char) :=
  let after := (name.reverse.takeWhile (· != '.')).reverse
  let before := name.take (name.length - after.length - 1)
  if after.length = name.length || before.isEmpty then (name, none) else (before, some after)

def stem? (path : Path) : Option String :=
  path.fileName?.map fun name ↦ String.ofList (splitName name.toList).1

def extension? (path : Path) : Option String :=
  path.fileName?.bind fun name ↦ (splitName name.toList).2.map String.ofList

/-- Whether a source file may hold markup: in a file with the extension `ts` angle brackets write
types, in any other file they write tags. -/
def hasMarkup (path : Path) : Bool :=
  path.extension? != some "ts"

def Component.rank : Component → Nat
  | root => 0
  | here => 1
  | up => 2
  | name _ => 3

/-- Whether a component comes before another: by its kind, and names by their characters. -/
def Component.precedes (first second : Component) : Bool :=
  match first, second with
  | name first, name second => first < second
  | _, _ => first.rank < second.rank

/-- Whether a list of components comes before another. -/
def componentsPrecede : List Component → List Component → Bool
  | [], second => !second.isEmpty
  | _ :: _, [] => false
  | first :: firsts, second :: seconds =>
    first.precedes second || (first == second && componentsPrecede firsts seconds)

def precedes (first second : Path) : Bool :=
  componentsPrecede first.components second.components

def sameAs (first second : Path) : Bool :=
  first.components == second.components

/-- The names and the steps upward of a path, joined by slashes. -/
def slashed (path : Path) : String :=
  "/".intercalate (path.components.filterMap fun part ↦
    match part with
    | .name text => some text
    | .up => some ".."
    | _ => none)

/-- The names of a path after every step upward has taken away the name before it. -/
def resolvedNames (path : Path) : List String :=
  path.components.foldl
    (fun names part ↦
      match part with
      | .name text => names ++ [text]
      | .up => names.dropLast
      | _ => names)
    []

/-- The number of names that two lists have in common at their start. -/
def commonLength : List String → List String → Nat
  | first :: firsts, second :: seconds =>
    if first = second then commonLength firsts seconds + 1 else 0
  | _, _ => 0

/-- The specifier under which a module in one directory imports from another one, both seen from
the same root. -/
def specifier (origin target : Path) : String :=
  let source := origin.resolvedNames
  let goal := target.resolvedNames
  let common := commonLength source goal
  let joined :=
    "/".intercalate (List.replicate (source.length - common) ".." ++ goal.drop common)
  if joined.startsWith ".." then joined
  else if joined.isEmpty then "."
  else "./" ++ joined

end Path

end Phrasebook
