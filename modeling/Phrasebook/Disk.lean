import Phrasebook.Path
import Phrasebook.Text.Quoted

/-!
# Files and directories

A disk as a value: for every place, given by the names on the way from the root, whether a file or
a directory is there. Paths are followed name by name, so that a step through something that is no
directory fails where it happens, and a path that ends in a slash denotes a directory. Reading and
asking leave the disk alone; the changes are creating a directory and putting contents into a
file, and `Phrasebook.Session` decides whether a change is carried out.
-/

namespace Phrasebook

namespace Disk

/-- The names on the way from the root to a place. -/
abbrev Place :=
  List String

/-- What is at a place. -/
inductive Node where
  | file (contents : ByteArray)
  | directory
deriving Inhabited

instance : DecidableEq Node
  | .directory, .directory => isTrue rfl
  | .file _, .directory => isFalse Node.noConfusion
  | .directory, .file _ => isFalse Node.noConfusion
  | .file first, .file second =>
    match ByteArray.instDecidableEq first second with
    | isTrue same => isTrue (congrArg Node.file same)
    | isFalse different => isFalse fun same ↦ different (Node.file.inj same)

/-- Why something cannot be done with a file or a directory. -/
inductive Fault where
  | missing
  | notADirectory
  | isADirectory
  | alreadyExists
  | tooLarge
  | nameTooLong
  | zeroCharacter
  | notText
  | denied
  | broken
deriving DecidableEq, Repr

def Fault.describe : Fault → String
  | missing => "No such file or directory (os error 2)"
  | notADirectory => "Not a directory (os error 20)"
  | isADirectory => "Is a directory (os error 21)"
  | alreadyExists => "File exists (os error 17)"
  | tooLarge => "File too large (os error 27)"
  | nameTooLong => "File name too long (os error 36)"
  | zeroCharacter => "file name contained an unexpected NUL byte"
  | notText => "stream did not contain valid UTF-8"
  | denied => "Permission denied (os error 13)"
  | broken => "Input/output error (os error 5)"

end Disk

/-- The files and directories, and the directory that relative paths start from. -/
structure Disk where
  nodes : List (Disk.Place × Disk.Node)
  workingDirectory : Disk.Place
deriving DecidableEq, Inhabited

namespace Disk

/-- What is at a place. The root is a directory. -/
def nodeAt? (disk : Disk) (place : Place) : Option Node :=
  if place.isEmpty then some .directory else disk.nodes.lookup place

def nameLimit : Nat :=
  255

/-- The place that a piece of a path leads to from a directory. -/
def step (disk : Disk) (place : Place) (piece : Path.Piece) : Except Fault Place :=
  match disk.nodeAt? place with
  | none => .error .missing
  | some (.file _) => .error .notADirectory
  | some .directory =>
    match piece.component? with
    | some .up => .ok place.dropLast
    | some (.name text) =>
      if nameLimit < text.utf8ByteSize then .error .nameTooLong else .ok (place ++ [text])
    | _ => .ok place

/-- The place that pieces of a path lead to. -/
def follow (disk : Disk) (place : Place) : List Path.Piece → Except Fault Place
  | [] => .ok place
  | piece :: rest => (disk.step place piece).bind fun next ↦ follow disk next rest

/-- The place that pieces of a path lead to from where the path starts. -/
def placeOf (disk : Disk) (path : Path) (pieces : List Path.Piece) : Except Fault Place :=
  if path.text.toList.contains (Char.ofNat 0) then .error .zeroCharacter
  else if path.text.isEmpty then .error .missing
  else disk.follow (if path.isAbsolute then [] else disk.workingDirectory) pieces

/-- The place that a path denotes, whether or not anything is there. -/
def locate (disk : Disk) (path : Path) : Except Fault Place :=
  disk.placeOf path path.pieces

/-- What is at a path. -/
def find (disk : Disk) (path : Path) : Except Fault Node :=
  (disk.locate path).bind fun place ↦
    match disk.nodeAt? place with
    | some node => .ok node
    | none => .error .missing

def contains (disk : Disk) (path : Path) : Bool :=
  match disk.find path with
  | .ok _ => true
  | .error _ => false

def isFile (disk : Disk) (path : Path) : Bool :=
  match disk.find path with
  | .ok (.file _) => true
  | _ => false

def isDirectory (disk : Disk) (path : Path) : Bool :=
  match disk.find path with
  | .ok .directory => true
  | _ => false

def readText (disk : Disk) (path : Path) : Except Fault String :=
  match disk.find path with
  | .error fault => .error fault
  | .ok .directory => .error .isADirectory
  | .ok (.file contents) =>
    match String.fromUTF8? contents with
    | some text => .ok text
    | none => .error .notText

def childName? (directory place : Place) : Option String :=
  match directory, place with
  | [], [name] => some name
  | first :: rest, second :: others => if first = second then childName? rest others else none
  | _, _ => none

/-- The names in the directory at a path, in order. -/
def list (disk : Disk) (path : Path) : Except Fault (List String) :=
  (disk.locate path).bind fun place ↦
    match disk.nodeAt? place with
    | none => .error .missing
    | some (.file _) => .error .notADirectory
    | some .directory =>
      .ok ((disk.nodes.filterMap fun (other, _) ↦ childName? place other).mergeSort
        fun first second ↦ first ≤ second)

def namesBelow? : Place → Place → Option (List String)
  | [], place => some place
  | _ :: _, [] => none
  | first :: rest, second :: others => if first = second then namesBelow? rest others else none

def putNode (place : Place) (node : Node) : List (Place × Node) → List (Place × Node)
  | [] => [(place, node)]
  | entry :: rest =>
    if entry.1 = place then (place, node) :: rest else entry :: putNode place node rest

def put (disk : Disk) (place : Place) (node : Node) : Disk :=
  { disk with nodes := putNode place node disk.nodes }

def erase (disk : Disk) (place : Place) : Disk :=
  { disk with nodes := disk.nodes.filter fun entry ↦ entry.1 != place }

/-- The place of a file that can be written at a path: its directory is there, and it is no
directory itself. -/
def writable (disk : Disk) (path : Path) : Except Fault Place :=
  (disk.locate path).bind fun place ↦
    match disk.nodeAt? place, disk.nodeAt? place.dropLast with
    | some .directory, _ => .error .isADirectory
    | some (.file _), _ => .ok place
    | none, some .directory => .ok place
    | none, some (.file _) => .error .notADirectory
    | none, none => .error .missing

/-- The place of a directory that can be created at a path. -/
def creatable (disk : Disk) (path : Path) : Except Fault Place :=
  (disk.placeOf path (Path.trimPieces path.pieces)).bind fun place ↦
    match disk.nodeAt? place, disk.nodeAt? place.dropLast with
    | some _, _ => .error .alreadyExists
    | none, some .directory => .ok place
    | none, some (.file _) => .error .notADirectory
    | none, none => .error .missing

end Disk

def Path.quoted (path : Path) : String :=
  String.ofList ('"' :: path.text.toList.flatMap shownChar ++ ['"'])
where
  /-- A character as it stands between quotes; an apostrophe gets a backslash too. -/
  shownChar (c : Char) : List Char :=
    if c.toNat = 39 then ['\\', c] else Text.quotedChar c

end Phrasebook
