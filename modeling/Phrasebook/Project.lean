import Phrasebook.Catalog.File
import Phrasebook.Config
import Phrasebook.Scan

/-!
# Projects

Where a command works: the root of a project, its settings, and the directories of its sources and
catalogs. What the command line says counts before what the settings say. The root is what the
command line names, else the directory of the settings, else the directory that the command is run
in.
-/

namespace Phrasebook

/-- What the command line may say about a project. -/
structure ProjectChoice where
  root? : Option Path := none
  sourceRoot? : Option Path := none
  catalogDir? : Option Path := none
  sourceLocale? : Option String := none
  verbose : Bool := false
deriving DecidableEq, Repr, Inhabited

/-- A project with its settings. -/
structure Project where
  config : Config
  root : Path
  configPath? : Option Path
  sourceRoot : Path
  catalogDir : Path
  verbose : Bool
deriving DecidableEq, Repr

def Disk.workingPath (disk : Disk) : Path :=
  ⟨"/" ++ "/".intercalate disk.workingDirectory⟩

namespace Project

/-- The root of a project, given the directory in which it was looked for. -/
def rootOf (choice : ProjectChoice) (start : Path) (configPath? : Option Path) : Path :=
  if choice.root?.isSome then start
  else ((configPath?.bind Path.parent?).getD start)

/-- The project that a command works in. -/
def open? (disk : Disk) (choice : ProjectChoice) : Except Config.Fault Project :=
  let start := choice.root?.getD disk.workingPath
  (Config.load disk start).map fun loaded ↦
    let root := rootOf choice start loaded.path?
    { config :=
        { loaded.config with
          sourceLocale := choice.sourceLocale?.getD loaded.config.sourceLocale }
      root := root
      configPath? := loaded.path?
      sourceRoot := choice.sourceRoot?.getD (root.join ⟨loaded.config.sourceRoot⟩)
      catalogDir := choice.catalogDir?.getD (root.join ⟨loaded.config.catalogDir⟩)
      verbose := choice.verbose }

def sourceLocale (project : Project) : String :=
  project.config.sourceLocale

def catalogPath (project : Project) (locale : String) : Path :=
  CatalogFile.pathOf project.catalogDir locale

/-- A path as reports show it: below the root of the project. -/
def shown (project : Project) (path : Path) : String :=
  (path.relativeTo project.root).slashed

/-- The first candidate for the entry file that exists. -/
def entryFile? (project : Project) (disk : Disk) : Option Path :=
  (project.config.entryCandidates.map fun candidate ↦ project.root.join ⟨candidate⟩).find?
    disk.isFile

/-- Why the ignore file of a project cannot be used. -/
structure IgnoreFault where
  path : Path
  cause : Disk.Fault
deriving DecidableEq, Repr

def IgnoreFault.messages (fault : IgnoreFault) : List String :=
  ["Failed to read " ++ fault.path.text, fault.cause.describe]

/-- The ignore rules in a directory; none when there is no file. -/
def ignoreRules (disk : Disk) (root : Path) : Except IgnoreFault (IgnoreRules × List Warning) :=
  let path := root.join ⟨IgnoreRules.fileName⟩
  if disk.contains path then
    match disk.readText path with
    | .ok text => .ok (IgnoreRules.parse text)
    | .error cause => .error ⟨path, cause⟩
  else .ok (⟨[]⟩, [])

def scan (project : Project) : Run IgnoreFault (List Path) := do
  let disk ← Run.disk
  let (rules, warnings) ← Run.ofExcept (ignoreRules disk project.root)
  Run.warnAll warnings
  let found := Scan.files disk
    { projectRoot := project.root
      sourceRoot := project.sourceRoot
      includes := project.config.includes
      ignores := project.config.ignores
      rules := rules }
  Run.warnAll found.warnings
  if 0 < found.skipped then Run.warn (.pathsSkipped found.skipped)
  return found.files

end Project

end Phrasebook
