import Phrasebook.Disk
import Phrasebook.Provider
import Phrasebook.Warning

/-!
# Sessions

What a command works with. The host, which the command cannot change, gives the environment, says
which changes of the disk are refused, and carries messages to a service. The session is what the
command leaves behind: the disk, the warnings, and the requests that were sent. A command that
fails leaves its session behind as well.
-/

namespace Phrasebook

/-- A change of the disk. -/
inductive Change where
  | write (place : Disk.Place) (contents : ByteArray)
  | create (place : Disk.Place)

/-- The refusal of a change. A file that could not be written as a whole has some bytes of its new
contents only; one that could not be opened for writing is as it was. -/
structure Refusal where
  kept? : Option Nat
  fault : Disk.Fault
deriving DecidableEq, Repr

/-- What a command finds and cannot change. -/
structure Host where
  /-- The variables of the environment. -/
  environment : List (String × String)
  /-- Whether a change is refused, given those that were tried before it. -/
  refusal? : List Change → Change → Option Refusal
  transport : Provider.Transport

/-- What a command changes. -/
structure Session where
  disk : Disk
  warnings : List Warning
  requests : List ProviderRequest
  /-- The changes of the disk that were tried, in order. -/
  changes : List Change

def Session.start (disk : Disk) : Session :=
  ⟨disk, [], [], []⟩

/-- A piece of a command, which may fail with a fault. -/
abbrev Run (ε α : Type) :=
  ExceptT ε (ReaderT Host (StateM Session)) α

namespace Run

variable {ε δ α : Type}

/-- Runs a piece of a command. -/
def start (run : Run ε α) (host : Host) (session : Session) : Except ε α × Session :=
  (ReaderT.run (ExceptT.run run) host).run session

def disk : Run ε Disk := do
  return (← get).disk

def warn (warning : Warning) : Run ε Unit :=
  modify fun session ↦ { session with warnings := session.warnings ++ [warning] }

def warnAll (warnings : List Warning) : Run ε Unit :=
  modify fun session ↦ { session with warnings := session.warnings ++ warnings }

def ofExcept (value : Except ε α) : Run ε α :=
  match value with
  | .ok result => return result
  | .error fault => throw fault

/-- A piece with its faults turned into others. -/
def adapt (f : ε → δ) (run : Run ε α) : Run δ α :=
  ExceptT.adapt f run

/-- A piece that hands its fault over instead of failing. -/
def outcome (run : Run ε α) : Run δ (Except ε α) :=
  ExceptT.lift (ExceptT.run run)

/-- The refusal of a change, which counts as tried. -/
def tryChange (change : Change) : Run ε (Option Refusal) := do
  let host ← readThe Host
  let session ← get
  set { session with changes := session.changes ++ [change] }
  return host.refusal? session.changes change

def putNode (place : Disk.Place) (node : Disk.Node) : Run ε Unit :=
  modify fun session ↦ { session with disk := session.disk.put place node }

/-- Writes a text into the file at a path. -/
def writeText (path : Path) (text : String) : Run Disk.Fault Unit := do
  let place ← ofExcept ((← disk).writable path)
  let contents := text.toUTF8
  match ← tryChange (.write place contents) with
  | none => putNode place (.file contents)
  | some refusal =>
    match refusal.kept? with
    | some kept => putNode place (.file (contents.extract 0 kept))
    | none => pure ()
    throw refusal.fault

def createDirectory (path : Path) : Run Disk.Fault Unit := do
  let place ← ofExcept ((← disk).creatable path)
  match ← tryChange (.create place) with
  | none => putNode place .directory
  | some refusal => throw refusal.fault

def ensureDirectory (path : Path) : Run Disk.Fault Unit := do
  match ← outcome (createDirectory path) with
  | .ok () => return
  | .error fault => if !(← disk).isDirectory path then throw fault

/-- Creates the directory at a path with the directories above it that are missing; `room` bounds
their number. -/
def ensureDirectoriesWithin : Nat → Path → Run Disk.Fault Unit
  | 0, path => ensureDirectory path
  | room + 1, path => do
    if path.text.isEmpty then return
    match ← outcome (createDirectory path) with
    | .ok () => return
    | .error .missing =>
      match path.parent? with
      | some parent =>
        ensureDirectoriesWithin room parent
        ensureDirectory path
      | none => throw .missing
    | .error fault => if !(← disk).isDirectory path then throw fault

/-- Creates the directory at a path with the directories above it that are missing. -/
def ensureDirectories (path : Path) : Run Disk.Fault Unit :=
  ensureDirectoriesWithin path.pieces.length path

end Run

end Phrasebook
