import Mathlib.Algebra.GroupWithZero.Nat
import Phrasebook.Check
import Phrasebook.Proofs.Extraction.Run

/-!
# The report of a check

A check reads the source catalog, scans the project and looks at one source after the other. What it
says about a source depends on the disk and on the catalog only, so its report puts together what it
says about each source, and nothing but warnings comes about.
-/

namespace Phrasebook.Check

variable {project : Project} {disk : Disk} {catalog : KeyedCatalog}

/-- The text and the module of a source, or why there is none. -/
def readModule (disk : Disk) (path : Path) : Except String (String × Syntax.Module) :=
  match disk.readText path with
  | .error cause => .error cause.describe
  | .ok code =>
    match Syntax.Module.parse? path.hasMarkup code with
    | none => .error Extraction.notAModule
    | some module => .ok (code, module)

/-- What a pass finds in a source that is a module. -/
def foundIn (project : Project) (module : Syntax.Module) : Collection :=
  Collection.ofModule project.config.excludedAttributes module

/-- The number of texts of a source that an extraction would still replace. -/
def pendingOf (project : Project) (disk : Disk) (path : Path) : Nat :=
  match readModule disk path with
  | .error _ => 0
  | .ok (_, module) => (foundIn project module).sites.length

/-- The issues of the lookups in a source whose key a catalog lacks. -/
def unknownIn (project : Project) (catalog : KeyedCatalog) (path : Path) (code : String)
    (module : Syntax.Module) : List Issue :=
  ((foundIn project module).references.filter fun reference ↦
    !catalog.contains reference.key).map (Extraction.unknownKeyIssue (project.shown path) code)

def issuesOf (project : Project) (disk : Disk) (catalog : KeyedCatalog) (path : Path) :
    List Issue :=
  match readModule disk path with
  | .error reason => [.unreadable (project.shown path) reason]
  | .ok (code, module) => unknownIn project catalog path code module

/-- A text of a source that is looked at is cut, which ends a check. -/
def cutsIn (project : Project) (disk : Disk) (path : Path) : Bool :=
  match readModule disk path with
  | .error _ => false
  | .ok (_, module) => (foundIn project module).cutsCharacter

/-- The visit of a source adds its pending texts and its issues to the report, unless a text is cut.
-/
theorem visit_eq (project : Project) (disk : Disk) (catalog : KeyedCatalog) (report : CheckReport)
    (path : Path) :
    visit project disk catalog report path =
      if cutsIn project disk path then .error (.cutsCharacter path)
      else
        .ok
          { report with
            pending := report.pending + pendingOf project disk path
            issues := report.issues ++ issuesOf project disk catalog path } := by
  unfold visit cutsIn pendingOf issuesOf readModule
  cases disk.readText path with
  | error cause => rfl
  | ok code =>
    cases hmodule : Syntax.Module.parse? path.hasMarkup code with
    | none => simp [hmodule]
    | some module => simp [hmodule, foundIn, unknownIn]

def reportOf (project : Project) (disk : Disk) (catalog : Catalog) (files : List Path) :
    CheckReport where
  filesScanned := files.length
  catalogKeys := catalog.size
  pending := (files.map (pendingOf project disk)).sum
  issues :=
    (files.flatMap (issuesOf project disk (.ofCatalog catalog))).mergeSort Issue.precedesByPlace

/-- A pass that gets through its sources adds up what it finds in each of them. -/
theorem foldlM_visit {files : List Path} {report last : CheckReport}
    (h : files.foldlM (visit project disk catalog) report = .ok last) :
    last =
      { report with
        pending := report.pending + (files.map (pendingOf project disk)).sum
        issues := report.issues ++ files.flatMap (issuesOf project disk catalog) } := by
  induction files generalizing report with
  | nil =>
    cases h
    simp
  | cons path rest ih =>
    rw [List.foldlM_cons, visit_eq] at h
    split at h
    · cases h
    · rw [ih h]
      simp [Nat.add_assoc]

theorem perm_issues (project : Project) (disk : Disk) (catalog : Catalog) (files : List Path) :
    (reportOf project disk catalog files).issues.Perm
      (files.flatMap (issuesOf project disk (.ofCatalog catalog))) :=
  List.mergeSort_perm ..

theorem mem_issues_iff {initial : Catalog} {files : List Path} {issue : Issue} :
    issue ∈ (reportOf project disk initial files).issues ↔
      ∃ path ∈ files, issue ∈ issuesOf project disk (.ofCatalog initial) path := by
  rw [(perm_issues project disk initial files).mem_iff, List.mem_flatMap]

variable {host : Host} {session final : Session} {report : CheckReport}

/-- A check that succeeds reports on the sources that were scanned, and changes nothing. -/
theorem run_ok (h : (run project).start host session = (.ok report, final)) :
    ∃ initial files,
      CatalogFile.stored session.disk (project.catalogPath project.sourceLocale) = .ok initial ∧
      project.scanned session.disk = .ok files ∧
      report = reportOf project session.disk initial files ∧ session.OnlyWarned final := by
  obtain ⟨warnings, hread⟩ := CatalogFile.start_read host session
    (project.catalogPath project.sourceLocale)
  obtain ⟨warned, hwarned, hscan⟩ := project.start_scan host { session with warnings := warnings }
  unfold run at h
  simp only [Run.start_bind, Run.start_adapt, hread] at h
  cases hstored : CatalogFile.stored session.disk
      (project.catalogPath project.sourceLocale) with
  | error cause => simp [hstored, Except.mapError] at h
  | ok initial =>
    simp only [hstored, Except.mapError, hscan] at h
    cases hscanned : project.scanned session.disk with
    | error cause => simp [hscanned] at h
    | ok files =>
      simp only [hscanned, Run.start_disk, Run.start_ofExcept, hwarned.disk] at h
      cases hvisited : files.foldlM (visit project session.disk (.ofCatalog initial))
          { filesScanned := files.length, catalogKeys := initial.size } with
      | error fault => simp [hvisited] at h
      | ok last =>
        simp only [hvisited, Run.start_pure] at h
        obtain ⟨hreport, rfl⟩ := Prod.mk.inj h
        refine ⟨initial, files, rfl, rfl, ?_, (session.onlyWarned_warnings warnings).trans hwarned⟩
        cases hreport
        rw [foldlM_visit hvisited]
        simp [reportOf]

end Phrasebook.Check
