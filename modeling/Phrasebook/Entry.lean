import Phrasebook.Project
import Phrasebook.Source.Inject

/-!
# The entry file

Registering the locales of a project in its entry file: the first of the candidates that is there.
A project without an entry file is left as it is.
-/

namespace Phrasebook.Entry

/-- What came of registering locales. -/
inductive Outcome where
  | noEntryFile
  | unchanged (path : Path)
  | updated (path : Path) (locales : List String)
deriving DecidableEq, Repr

/-- Why locales could not be registered. -/
inductive Fault where
  | unreadable (path : Path) (cause : Disk.Fault)
  /-- The entry file is no module. -/
  | malformed (path : Path)
  /-- A character of the entry file would be cut in two, which ends the program. -/
  | cutsCharacter (path : Path)
  | unwritable (path : Path) (cause : Disk.Fault)
deriving DecidableEq, Repr

/-- What a message says about an entry file that is no module. -/
def notAModule : String :=
  "the source is not a module"

/-- The messages for a fault, from what was tried to what went wrong. -/
def Fault.messages : Fault → List String
  | unreadable path cause => ["Failed to read file: " ++ path.text, cause.describe]
  | malformed path => ["Failed to update entry file " ++ path.text, notAModule]
  | cutsCharacter path => ["an offset is no character boundary in " ++ path.text]
  | unwritable path cause => ["Failed to write file: " ++ path.text, cause.describe]

/-- The specifier of the directory of the catalogs, as seen from the entry file. -/
def directorySpecifier (project : Project) (entry : Path) : String :=
  let directory := (entry.parent?.bind fun parent ↦ parent.relativeTo? project.root).getD ⟨""⟩
  Path.specifier directory (project.catalogDir.relativeTo project.root)

def planOf (project : Project) (entry : Path) (locales : List String) : Registration.Plan where
  directory := directorySpecifier project entry
  locales := project.sourceLocale :: locales
  standardLocale := project.sourceLocale
  library := project.config.library

/-- Registers the source locale and other locales in the entry file. A dry run writes nothing. -/
def register (project : Project) (locales : List String) (dryRun : Bool) : Run Fault Outcome := do
  let disk ← Run.disk
  match project.entryFile? disk with
  | none =>
    Run.warn (.noEntryFile project.config.entryCandidates)
    return .noEntryFile
  | some entry =>
    match disk.readText entry with
    | .error cause => throw (.unreadable entry cause)
    | .ok code =>
      match Registration.ofSource (planOf project entry locales) entry code with
      | .error .unreadable => throw (.malformed entry)
      | .error .cutsCharacter => throw (.cutsCharacter entry)
      | .ok outcome =>
        if outcome.leavesCall then Run.warn (.callLeftAlone Registration.initializerName)
        if outcome.output == code then return .unchanged entry
        if !dryRun then (Run.writeText entry outcome.output).adapt (.unwritable entry)
        return .updated entry outcome.locales

end Phrasebook.Entry
