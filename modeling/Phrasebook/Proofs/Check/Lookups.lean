import Phrasebook.Proofs.Check.Run
import Phrasebook.Proofs.Source.References

/-!
# Lookups of keys that a catalog lacks

A check reports a lookup whose key the source catalog lacks if its pass visits the lookup. The pass
looks for text, and leaves the parts of some nodes out because no text for a reader stands there;
the lookups in these parts go unreported.
-/

namespace Phrasebook.Check

open Syntax Collection

variable {project : Project} {disk : Disk} {files : List Path} {path : Path} {code : String}
variable {module : Syntax.Module} {catalog : KeyedCatalog} {issue : Issue}

/-- A source that was scanned, with its text and the module that it is. -/
structure IsSource (disk : Disk) (files : List Path) (path : Path) (code : String)
    (module : Syntax.Module) : Prop where
  scanned : path ∈ files
  read : disk.readText path = .ok code
  parsed : Syntax.Module.parse? path.hasMarkup code = some module

theorem readModule_eq_ok_iff :
    readModule disk path = .ok (code, module) ↔
      disk.readText path = .ok code ∧ Syntax.Module.parse? path.hasMarkup code = some module := by
  unfold readModule
  constructor
  · intro h
    split at h
    · cases h
    · next text hread =>
      split at h
      · cases h
      · next found hparsed =>
        cases h
        exact ⟨hread, hparsed⟩
  · rintro ⟨hread, hparsed⟩
    simp only [hread, hparsed]

def visitedIn (project : Project) (module : Syntax.Module) : List Node :=
  visitedOf module.text project.config.excludedAttributes module.items

/-- A node of a module that a check does not visit. -/
def IsHiddenIn (project : Project) (module : Syntax.Module) (node : Node) : Prop :=
  IsHidden module.text project.config.excludedAttributes (visitedIn project module) node

/-- A node looks up a key that a catalog lacks. -/
structure LooksUpUnknown (catalog : Catalog) (node : Node) (reference : KeyReference) : Prop where
  names : referenceOf? node = some reference
  unknown : catalog.contains reference.key = false

/-- The lookups reported for a source are those of its visited nodes whose key the catalog lacks. -/
theorem mem_unknownIn_iff {initial : Catalog} :
    issue ∈ unknownIn project (.ofCatalog initial) path code module ↔
      ∃ node ∈ visitedIn project module, ∃ reference, LooksUpUnknown initial node reference ∧
        issue = Extraction.unknownKeyIssue (project.shown path) code reference := by
  unfold unknownIn foundIn visitedIn ofModule
  rw [references_visitedOf, List.mem_map]
  constructor
  · rintro ⟨reference, hreference, rfl⟩
    obtain ⟨hfound, hunknown⟩ := List.mem_filter.1 hreference
    obtain ⟨node, hnode, hnames⟩ := List.mem_filterMap.1 hfound
    rw [Bool.not_eq_true'] at hunknown
    exact ⟨node, hnode, reference, ⟨hnames, hunknown⟩, rfl⟩
  · rintro ⟨node, hnode, reference, ⟨hnames, hunknown⟩, rfl⟩
    refine ⟨reference, List.mem_filter.2 ⟨List.mem_filterMap.2 ⟨node, hnode, hnames⟩, ?_⟩, rfl⟩
    rw [Bool.not_eq_true']
    exact hunknown

/-- The issues of unknown keys in a source are those of its module. -/
theorem unknownKey_mem_issuesOf_iff {shown key : String} {line : Nat} :
    .unknownKey shown line key ∈ issuesOf project disk catalog path ↔
      ∃ code module, readModule disk path = .ok (code, module) ∧
        .unknownKey shown line key ∈ unknownIn project catalog path code module := by
  unfold issuesOf
  cases readModule disk path with
  | error reason => simp
  | ok found =>
    obtain ⟨code, module⟩ := found
    constructor
    · intro hissue
      exact ⟨code, module, rfl, hissue⟩
    · rintro ⟨_, _, ⟨⟩, hissue⟩
      exact hissue

variable {host : Host} {session final : Session} {report : CheckReport}

/-- A check that succeeds reports every lookup of an unknown key in a source that was scanned. -/
def ReportsLookups (project : Project) (host : Host) (session : Session) : Prop :=
  ∀ report final, (run project).start host session = (.ok report, final) →
    ∀ initial files,
      CatalogFile.stored session.disk (project.catalogPath project.sourceLocale) = .ok initial →
      project.scanned session.disk = .ok files →
      ∀ path code module, IsSource session.disk files path code module →
        ∀ node ∈ Node.allOf module.items, ∀ reference, LooksUpUnknown initial node reference →
          Extraction.unknownKeyIssue (project.shown path) code reference ∈ report.issues

/-- A disk with one source, which looks a key up in some place. -/
def lookupDisk (source : String) : Disk where
  nodes :=
    [(["p"], .directory), (["p", "src"], .directory), (["p", "src", "a.tsx"], .file source.toUTF8)]
  workingDirectory := ["p"]

/-- Whether a check leaves out a lookup of a disk with one source and no catalog. -/
def omitsLookup (source : String) : Bool :=
  match ((run Extraction.plainProject).start Extraction.quietHost (.start (lookupDisk source))).1,
    (readModule (lookupDisk source) ⟨"/p/src/a.tsx"⟩) with
  | .ok report, .ok (code, module) =>
    (Node.allOf module.items).any fun node ↦
      match referenceOf? node with
      | some reference =>
        !report.issues.contains
          (Extraction.unknownKeyIssue (Extraction.plainProject.shown ⟨"/p/src/a.tsx"⟩) code
            reference)
      | none => false
  | _, _ => false

/-- A check that leaves out a lookup of its only source does not report all lookups. -/
theorem not_reportsLookups {source : String}
    (hscan : Extraction.plainProject.scanned (lookupDisk source) = .ok [⟨"/p/src/a.tsx"⟩])
    (hstored : CatalogFile.stored (lookupDisk source)
      (Extraction.plainProject.catalogPath Extraction.plainProject.sourceLocale) = .ok .empty)
    (homits : omitsLookup source = true) :
    ¬ ReportsLookups Extraction.plainProject Extraction.quietHost
      (.start (lookupDisk source)) := by
  intro hreports
  unfold omitsLookup at homits
  split at homits
  · next report code module hrun hmodule =>
    obtain ⟨node, hnode, hany⟩ := List.any_eq_true.1 homits
    split at hany
    · next reference hreference =>
      obtain ⟨hread, hparsed⟩ := readModule_eq_ok_iff.1 hmodule
      have hissue := hreports report _ (Prod.ext hrun rfl) .empty _ hstored hscan ⟨"/p/src/a.tsx"⟩
        code module ⟨List.mem_singleton_self _, hread, hparsed⟩ node hnode reference
        ⟨hreference, rfl⟩
      rw [Bool.not_eq_true', List.contains_eq_mem, decide_eq_false_iff_not] at hany
      exact hany hissue
    · cases hany
  · cases homits

/-- A lookup goes unreported in an attribute that holds no text for a reader, in the arguments of
another lookup, and in the test of a conditional that is a site. -/
theorem not_reportsLookups_hidden :
    ¬ ReportsLookups Extraction.plainProject Extraction.quietHost
        (.start (lookupDisk "const a = <p className=\x7bt(\"a.missing\")\x7d>\x7b1\x7d</p>;\n")) ∧
      ¬ ReportsLookups Extraction.plainProject Extraction.quietHost
        (.start (lookupDisk "const a = t(key, \x7b name: t(\"a.missing\") \x7d);\n")) ∧
      ¬ ReportsLookups Extraction.plainProject Extraction.quietHost
        (.start (lookupDisk
          "const a = list[t(\"a.missing\")].size === 1 ? \"One item\" : \"Items\";\n")) := by
  refine ⟨?_, ?_, ?_⟩
  · exact not_reportsLookups (by decide +kernel) (by decide +kernel) (by decide +kernel)
  · exact not_reportsLookups (by decide +kernel) (by decide +kernel) (by decide +kernel)
  · exact not_reportsLookups (by decide +kernel) (by decide +kernel) (by decide +kernel)

/-- A check that succeeds reports exactly the lookups of unknown keys that it visits. Any other
lookup of an unknown key lies below a visited node whose parts are left out. -/
theorem run_unknownKeys (h : (run project).start host session = (.ok report, final)) :
    ∃ initial files,
      CatalogFile.stored session.disk (project.catalogPath project.sourceLocale) = .ok initial ∧
      project.scanned session.disk = .ok files ∧
      (∀ shown line key, .unknownKey shown line key ∈ report.issues ↔
        ∃ path code module, IsSource session.disk files path code module ∧
          ∃ node ∈ visitedIn project module, ∃ reference, LooksUpUnknown initial node reference ∧
            .unknownKey shown line key =
              Extraction.unknownKeyIssue (project.shown path) code reference) ∧
      ∀ path code module, IsSource session.disk files path code module →
        ∀ node ∈ Node.allOf module.items, ∀ reference, LooksUpUnknown initial node reference →
          Extraction.unknownKeyIssue (project.shown path) code reference ∈ report.issues ∨
            IsHiddenIn project module node := by
  obtain ⟨initial, files, hstored, hscanned, rfl, -⟩ := run_ok h
  have hreported : ∀ shown line key,
      .unknownKey shown line key ∈ (reportOf project session.disk initial files).issues ↔
        ∃ path code module, IsSource session.disk files path code module ∧
          ∃ node ∈ visitedIn project module, ∃ reference, LooksUpUnknown initial node reference ∧
            .unknownKey shown line key =
              Extraction.unknownKeyIssue (project.shown path) code reference := by
    intro shown line key
    rw [mem_issues_iff]
    constructor
    · rintro ⟨path, hpath, hissue⟩
      obtain ⟨code, module, hmodule, hunknown⟩ := unknownKey_mem_issuesOf_iff.1 hissue
      obtain ⟨hread, hparsed⟩ := readModule_eq_ok_iff.1 hmodule
      exact ⟨path, code, module, ⟨hpath, hread, hparsed⟩, mem_unknownIn_iff.1 hunknown⟩
    · rintro ⟨path, code, module, ⟨hpath, hread, hparsed⟩, hvisited⟩
      refine ⟨path, hpath, unknownKey_mem_issuesOf_iff.2 ⟨code, module, ?_, ?_⟩⟩
      · exact readModule_eq_ok_iff.2 ⟨hread, hparsed⟩
      · exact mem_unknownIn_iff.2 hvisited
  refine ⟨initial, files, hstored, hscanned, hreported, ?_⟩
  intro path code module hsource node hnode reference hlookup
  rcases mem_visitedOf_or_hidden module.text project.config.excludedAttributes module.items hnode
    with hvisited | hhidden
  · left
    exact (hreported _ _ _).2 ⟨path, code, module, hsource, node, hvisited, reference, hlookup, rfl⟩
  · exact .inr hhidden

theorem run_unknownKeys_title :
    ∃ report final initial path code module node reference,
      (run Extraction.plainProject).start Extraction.quietHost (.start (lookupDisk
        "const a = <p title=\x7bt(\"a.missing\")\x7d>\x7b1\x7d</p>;\n")) = (.ok report, final) ∧
      .unknownKey "src/a.tsx" 1 "a.missing" ∈ report.issues ∧
      node ∈ visitedIn Extraction.plainProject module ∧ LooksUpUnknown initial node reference ∧
      .unknownKey "src/a.tsx" 1 "a.missing" =
        Extraction.unknownKeyIssue (Extraction.plainProject.shown path) code reference := by
  have hrun : ((run Extraction.plainProject).start Extraction.quietHost (.start (lookupDisk
      "const a = <p title=\x7bt(\"a.missing\")\x7d>\x7b1\x7d</p>;\n"))).1.toOption.map (·.issues) =
        some [.unknownKey "src/a.tsx" 1 "a.missing"] := by
    decide +kernel
  cases hstart : (run Extraction.plainProject).start Extraction.quietHost (.start (lookupDisk
      "const a = <p title=\x7bt(\"a.missing\")\x7d>\x7b1\x7d</p>;\n")) with
  | mk answer final =>
    rw [hstart] at hrun
    cases answer with
    | error cause => cases hrun
    | ok report =>
      have hissues : report.issues = [.unknownKey "src/a.tsx" 1 "a.missing"] :=
        Option.some.inj hrun
      have hissue : Issue.unknownKey "src/a.tsx" 1 "a.missing" ∈ report.issues := by
        rw [hissues]
        exact List.mem_singleton_self _
      obtain ⟨initial, files, -, -, hreported, -⟩ := run_unknownKeys hstart
      obtain ⟨path, code, module, -, node, hnode, reference, hlookup, hsame⟩ :=
        (hreported _ _ _).1 hissue
      exact ⟨report, final, initial, path, code, module, node, reference, rfl, hissue, hnode,
        hlookup, hsame⟩

end Phrasebook.Check
