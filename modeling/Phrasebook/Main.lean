import Phrasebook.Command.Run
import Phrasebook.Help
import Phrasebook.Report
import Std.Data.HashMap
import Std.Data.HashSet

/-!
# The program

The outer layer: it reads the directories that a command works with into a disk, runs the command on
it, carries the changes out and prints the report. The command is run again when a change is
refused, with what is known by then about refusals, so that it sees each of them where it happens.
-/

namespace Phrasebook.Main

def entryAt (place : Disk.Place) : IO.FS.DirEntry :=
  { root := "/" ++ "/".intercalate place.dropLast, fileName := place.getLastD "" }

/-- What is below a place, and at any depth if `deep`, unless it was seen before. -/
partial def gather (deep : Bool) (place : Disk.Place)
    (known : Std.HashMap Disk.Place Disk.Node) : IO (Std.HashMap Disk.Place Disk.Node) := do
  let mut known := known
  for entry in ← (entryAt place).path.readDir do
    let next := place ++ [entry.fileName]
    if !known.contains next then
      if ← entry.path.isDir then
        known := known.insert next .directory
      else
        try known := known.insert next (.file (← IO.FS.readBinFile entry.path))
        catch _ => pure ()
    if deep && known.get? next == some .directory then
      known ← gather true next known
  return known

/-- Adds what is below a place and in the directories on the way to it. -/
def gatherAround (deep : Bool) (known : Std.HashMap Disk.Place Disk.Node)
    (place : Disk.Place) : IO (Std.HashMap Disk.Place Disk.Node) := do
  let mut known := known
  for length in List.range (place.length + 1) do
    let directory := place.take length
    if ← (entryAt directory).path.isDir then
      if length != 0 then known := known.insert directory .directory
      known ← gather (deep && length == place.length) directory known
  return known

def placeOf (workingDirectory : Disk.Place) (path : Path) : Disk.Place :=
  ((⟨"/" ++ "/".intercalate workingDirectory⟩ : Path).join path).resolvedNames

/-- The disk that a command needs: what is near the directory that it is run in, and everything in
the directories of its project. -/
def diskFor (command : Command) : IO Disk := do
  let here := (⟨toString (← IO.currentDir)⟩ : Path).resolvedNames
  let start := (command.choice.root?.map (placeOf here)).getD here
  let near ← [here, start].foldlM (gatherAround false) {}
  match Project.open? ⟨near.toList, here⟩ command.choice with
  | .error _ => return ⟨near.toList, here⟩
  | .ok project =>
    let places := [project.root, project.sourceRoot, project.catalogDir].map (placeOf here)
    let all ← places.foldlM (gatherAround true) near
    return ⟨all.toList, here⟩

def faultOf : IO.Error → Disk.Fault
  | .noFileOrDirectory .. => .missing
  | .permissionDenied .. => .denied
  | .alreadyExists .. => .alreadyExists
  | _ => .broken

/-- Carries a change out. -/
def perform : Change → IO Unit
  | .write place contents => IO.FS.writeBinFile (entryAt place).path contents
  | .create place => IO.FS.createDir (entryAt place).path

/-- How many bytes of a change are there after it failed; nothing when the file has other bytes or
is not there. -/
def keptOf : Change → IO (Option Nat)
  | .write place contents => do
    try
      let present ← IO.FS.readBinFile (entryAt place).path
      return if present == contents.extract 0 present.size then some present.size else none
    catch _ => return none
  | .create _ => return none

/-- Carries changes out one after the other, up to the first that fails. -/
def performAll (done : Nat) (refusals : Std.HashMap Nat Refusal) :
    List Change → IO (Nat × Std.HashMap Nat Refusal)
  | [] => return (done, refusals)
  | change :: rest => do
    if refusals.contains done then performAll (done + 1) refusals rest
    else
      try
        perform change
      catch failure =>
        return (done, refusals.insert done ⟨← keptOf change, faultOf failure⟩)
      performAll (done + 1) refusals rest

def hostFor (environment : List (String × String)) (refusals : Std.HashMap Nat Refusal) : Host where
  environment := environment
  refusal? := fun earlier _ ↦ refusals.get? earlier.length
  transport := fun _ _ ↦ .unreachable "no network connection"

/-- Runs a command and carries its changes out; `done` of them are there already. -/
partial def runOn (disk : Disk) (environment : List (String × String)) (command : Command)
    (done : Nat) (refusals : Std.HashMap Nat Refusal) :
    IO (Except Command.Fault Conclusion × Session) := do
  let (outcome, session) := command.run.start (hostFor environment refusals) (.start disk)
  let known := refusals.size
  let (done, refusals) ← performAll done refusals (session.changes.drop done)
  if refusals.size == known then return (outcome, session)
  else runOn disk environment command done refusals

/-- The variables of the environment that a command looks at. -/
def readVariables : IO (List (String × String)) := do
  let names := [CommandLine.Reading.rootVariable, "LOCALISE_API_KEY", "LOCALISE_PROJECT_ID",
    "LOCALISE_ENDPOINT"]
  let values ← names.mapM fun name ↦ do
    return (← IO.getEnv name).map fun value ↦ (name, value)
  return values.filterMap id

/-- Shows what a command did, and gives the number that the program ends with. -/
def present (command : Command) (outcome : Except Command.Fault Conclusion) (session : Session) :
    IO UInt32 := do
  for warning in session.warnings do IO.eprintln (" WARN " ++ warning.describe)
  match outcome with
  | .error fault =>
    IO.eprintln ("Error: " ++ fault.describe)
    return if fault.isPanic then 101 else 2
  | .ok conclusion =>
    let output ← IO.getStdout
    let colors := (← output.isTty) && (← IO.getEnv "NO_COLOR").isNone
    output.putStr (Report.render command.choice.verbose colors conclusion)
    return conclusion.exitCode.toUInt32

def stop : CommandLine.Stop → IO UInt32
  | .nothing => do
    IO.println Help.text
    return 0
  | .help => do
    IO.println Help.text
    return 0
  | .version => do
    IO.println (Help.programName ++ " " ++ Help.version)
    return 0
  | reason => do
    IO.eprintln ("error: " ++ reason.describe)
    return 2

end Phrasebook.Main

/-- Runs the program. -/
def main (arguments : List String) : IO UInt32 := do
  let environment ← Phrasebook.Main.readVariables
  match Phrasebook.CommandLine.read environment arguments with
  | .error reason => Phrasebook.Main.stop reason
  | .ok command =>
    let disk ← Phrasebook.Main.diskFor command
    let (outcome, session) ← Phrasebook.Main.runOn disk environment command 0 {}
    Phrasebook.Main.present command outcome session
