import Phrasebook.Issue
import Phrasebook.Project

/-!
# Extraction

The pass that converts every source of a project and stores the new keys in the source catalog. A
source that cannot be read, parsed or saved is reported and left out, and keys that only a source
that was not saved would use are given up again. A source in which a character would be cut in two
ends the pass where it stands. The catalog is saved when all sources are done. A dry run writes
nothing and reports what a run would do.
-/

namespace Phrasebook

/-- What came of an extraction. -/
structure ExtractionReport where
  filesScanned : Nat
  /-- The sources that were changed, or would be. -/
  updatedFiles : List String := []
  replacements : Nat := 0
  newKeys : Nat := 0
  issues : List Issue := []
deriving DecidableEq, Repr

/-- Why a pass over a project failed. -/
inductive PassFault where
  | catalog (cause : CatalogFile.Fault)
  | ignoreFile (cause : Project.IgnoreFault)
  /-- A character of a source would be cut in two, which ends the program. -/
  | cutsCharacter (path : Path)
deriving DecidableEq, Repr

/-- The messages for a fault, from what was tried to what went wrong. -/
def PassFault.messages : PassFault → List String
  | catalog cause => cause.messages
  | ignoreFile cause => cause.messages
  | cutsCharacter path => ["an offset is no character boundary in " ++ path.text]

namespace Extraction

/-- Where a pass stands: the catalog with the new keys, and the report so far. -/
structure Progress where
  catalog : KeyedCatalog
  report : ExtractionReport

def optionsOf (project : Project) : ConversionOptions where
  library := project.config.library
  style := project.config.lookupStyle
  excluded := project.config.excludedAttributes

def scopeOf (project : Project) (path : Path) : String :=
  Scope.ofPath (path.relativeTo project.sourceRoot)

def unknownKeyIssue (shown code : String) (reference : KeyReference) : Issue :=
  .unknownKey shown (Text.lineOfOffset code reference.offset) reference.key

/-- What reports say about a source that is no module. -/
def notAModule : String :=
  "the source is not a module"

def Progress.addIssue (progress : Progress) (issue : Issue) : Progress :=
  { progress with
    report := { progress.report with issues := progress.report.issues ++ [issue] } }

def Progress.addConversion (progress : Progress) (shown : String) (conversion : Conversion)
    (catalog : KeyedCatalog) : Progress where
  catalog := catalog
  report :=
    { progress.report with
      replacements := progress.report.replacements + conversion.replacements
      newKeys := progress.report.newKeys + conversion.newKeys
      updatedFiles :=
        if conversion.modified then progress.report.updatedFiles ++ [shown]
        else progress.report.updatedFiles }

/-- Saves a converted source unless the run is dry or nothing changed. -/
def save (dryRun : Bool) (path : Path) (conversion : Conversion) : Run Disk.Fault Unit := do
  if conversion.modified && !dryRun then Run.writeText path conversion.output

/-- The pass over one source. -/
def visit (project : Project) (dryRun : Bool) (progress : Progress) (path : Path) :
    Run PassFault Progress := do
  let shown := project.shown path
  match (← Run.disk).readText path with
  | .error cause =>
    Run.warn (.fileSkipped shown cause)
    return progress.addIssue (.unreadable shown cause.describe)
  | .ok code =>
    match Conversion.ofSource (optionsOf project) path (scopeOf project path) code
        progress.catalog with
    | .error .unreadable =>
      Run.warn (.sourceSkipped shown)
      return progress.addIssue (.unreadable shown notAModule)
    | .error .cutsCharacter => throw (.cutsCharacter path)
    | .ok (conversion, catalog) =>
      if conversion.lacksHookSite then Run.warn (.noHookSite path)
      Run.warnAll (conversion.unknownKeys.map fun reference ↦ .unknownKey shown reference.key)
      let progress := (conversion.unknownKeys.map (unknownKeyIssue shown code)).foldl
        Progress.addIssue progress
      match ← Run.outcome (save dryRun path conversion) with
      | .error cause =>
        Run.warn (.fileSkipped shown cause)
        return progress.addIssue (.unwritable shown cause.describe)
      | .ok () => return progress.addConversion shown conversion catalog

/-- The pass over sources, one after the other. -/
def visitAll (project : Project) (dryRun : Bool) : Progress → List Path → Run PassFault Progress
  | progress, [] => return progress
  | progress, path :: rest => do
    visitAll project dryRun (← visit project dryRun progress path) rest

/-- The pass over a project. -/
def run (project : Project) (dryRun : Bool) : Run PassFault ExtractionReport := do
  let catalogPath := project.catalogPath project.sourceLocale
  let catalog ← (CatalogFile.read catalogPath).adapt .catalog
  let files ← project.scan.adapt .ignoreFile
  let progress ← visitAll project dryRun
    ⟨.ofCatalog catalog, { filesScanned := files.length }⟩ files
  if !dryRun then (CatalogFile.write catalogPath progress.catalog.entries).adapt .catalog
  return progress.report

end Extraction

end Phrasebook
