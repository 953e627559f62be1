import Phrasebook.Extraction

/-!
# Checking

The pass that looks at every source of a project and changes nothing: it reports lookups whose key
is not in the source catalog and sources that cannot be read, and counts the texts that are not
looked up yet.
-/

namespace Phrasebook

/-- What came of a check. -/
structure CheckReport where
  filesScanned : Nat
  catalogKeys : Nat
  /-- The texts that an extraction would still replace. -/
  pending : Nat := 0
  issues : List Issue := []
deriving DecidableEq, Repr

namespace Check

/-- The report with what one source adds, unless a text that is looked at would be cut. -/
def visit (project : Project) (disk : Disk) (catalog : KeyedCatalog) (report : CheckReport)
    (path : Path) : Except PassFault CheckReport :=
  let shown := project.shown path
  match disk.readText path with
  | .error cause =>
    .ok { report with issues := report.issues ++ [.unreadable shown cause.describe] }
  | .ok code =>
    match Syntax.Module.parse? path.hasMarkup code with
    | none =>
      .ok { report with issues := report.issues ++ [.unreadable shown Extraction.notAModule] }
    | some module =>
      let collection := Collection.ofModule project.config.excludedAttributes module
      let unknown := collection.references.filter fun reference ↦
        !catalog.contains reference.key
      if collection.cutsCharacter then .error (.cutsCharacter path)
      else
        .ok
          { report with
            pending := report.pending + collection.sites.length
            issues := report.issues ++ unknown.map (Extraction.unknownKeyIssue shown code) }

/-- The pass over a project. -/
def run (project : Project) : Run PassFault CheckReport := do
  let catalog ← (CatalogFile.read (project.catalogPath project.sourceLocale)).adapt .catalog
  let files ← project.scan.adapt .ignoreFile
  let disk ← Run.disk
  let report ← Run.ofExcept (files.foldlM (visit project disk (.ofCatalog catalog))
    { filesScanned := files.length, catalogKeys := catalog.size })
  return { report with issues := report.issues.mergeSort Issue.precedesByPlace }

end Check

end Phrasebook
