import Phrasebook.Extraction
import Phrasebook.Proofs.Catalog.File
import Phrasebook.Proofs.Source.Conversion

/-!
# The visit of one source

A pass that writes visits its sources one after the other. What came of one source is its verdict;
`Visited` ties it to the sessions and the catalogs before and after the visit. Only a source that is
kept lets the catalog grow: whatever else happens, the catalog goes on as it was. A source in which
a character would be cut in two gets no verdict: the pass ends there.
-/

namespace Phrasebook.Extraction

/-- What came of one source. -/
inductive Verdict where
  /-- The source could not be read. -/
  | unread (cause : Disk.Fault)
  /-- The source is no module. -/
  | unparsed
  /-- The converted source could not be saved. -/
  | refused (conversion : Conversion) (refusal : Refusal)
  /-- The converted source was saved, or did not change. -/
  | kept (conversion : Conversion)

/-- The visit of one source: the sessions and the catalogs before and after it, the text that was
read, the calls that the conversion puts into it, and the entries that they need. -/
structure SourceVisit where
  path : Path
  verdict : Verdict
  code : String := ""
  calls : List Conversion.KeyedSite := []
  added : List (String × String) := []
  before : Session
  known : KeyedCatalog
  after : Session
  left : KeyedCatalog

namespace SourceVisit

def kept? (visit : SourceVisit) : Option Conversion :=
  match visit.verdict with
  | .kept conversion => some conversion
  | _ => none

def saved? (visit : SourceVisit) : Option Conversion :=
  visit.kept?.filter (·.modified)

def minted (visit : SourceVisit) : List (String × String) :=
  if visit.kept?.isSome then visit.added else []

def refusal? (project : Project) (visit : SourceVisit) : Option Issue :=
  match visit.verdict with
  | .refused _ refusal => some (.unwritable (project.shown visit.path) refusal.fault.describe)
  | _ => none

/-- The text of a source was read and converted. -/
def Converts (project : Project) (visit : SourceVisit) (conversion : Conversion)
    (after : KeyedCatalog) : Prop :=
  visit.before.disk.readText visit.path = .ok visit.code ∧
    Conversion.ofSource (optionsOf project) visit.path (scopeOf project visit.path) visit.code
      visit.known = .ok (conversion, after) ∧
    Conversion.Converted (optionsOf project) visit.path visit.code visit.known conversion
      visit.calls after visit.added

/-- The visit was paid: its verdict is what became of the source. -/
def Visited (project : Project) (host : Host) (visit : SourceVisit) : Prop :=
  match visit.verdict with
  | .unread cause =>
    visit.before.disk.readText visit.path = .error cause ∧ visit.left = visit.known ∧
      visit.before.OnlyWarned visit.after ∧ visit.calls = []
  | .unparsed =>
    visit.before.disk.readText visit.path = .ok visit.code ∧
      Conversion.ofSource (optionsOf project) visit.path (scopeOf project visit.path) visit.code
        visit.known = .error .unreadable ∧
      visit.left = visit.known ∧ visit.before.OnlyWarned visit.after ∧ visit.calls = []
  | .refused conversion refusal =>
    (∃ tried, visit.Converts project conversion tried) ∧ conversion.modified = true ∧
      visit.left = visit.known ∧
      ∃ warned place after, visit.before.OnlyWarned warned ∧
        warned.disk.writable visit.path = .ok place ∧
        host.refusal? warned.changes (Run.writeOf place conversion.output) = some refusal ∧
        (Run.writeText visit.path conversion.output).start host warned =
          (.error refusal.fault, after) ∧
        after.OnlyWarned visit.after
  | .kept conversion =>
    visit.Converts project conversion visit.left ∧
      if conversion.modified then
        ∃ warned, visit.before.OnlyWarned warned ∧
          (Run.writeText visit.path conversion.output).start host warned = (.ok (), visit.after)
      else visit.before.OnlyWarned visit.after

variable {project : Project} {host : Host} {visit : SourceVisit}

/-- The catalog goes on with what the conversion of a source that was kept added to it. -/
theorem Visited.converts {conversion : Conversion} (h : visit.Visited project host)
    (hkept : visit.kept? = some conversion) : visit.Converts project conversion visit.left := by
  unfold Visited at h
  unfold kept? at hkept
  cases hverdict : visit.verdict with
  | kept found =>
    rw [hverdict] at h hkept
    cases hkept
    exact h.1
  | _ => simp [hverdict] at hkept

/-- Whatever else becomes of a source, the catalog goes on as it was. -/
theorem Visited.left_eq (h : visit.Visited project host) (hkept : visit.kept? = none) :
    visit.left = visit.known := by
  unfold Visited at h
  unfold kept? at hkept
  cases hverdict : visit.verdict with
  | unread cause =>
    rw [hverdict] at h
    exact h.2.1
  | unparsed =>
    rw [hverdict] at h
    exact h.2.2.1
  | refused conversion refusal =>
    rw [hverdict] at h
    exact h.2.2.1
  | kept conversion => simp [hverdict] at hkept

end SourceVisit

/-- Whether an issue is about a source that could not be saved. -/
def isUnwritable : Issue → Bool
  | .unwritable _ _ => true
  | _ => false

/-- What a visit adds to the report about saved sources, new keys and sources that could not be
saved. -/
structure Reports (project : Project) (visit : SourceVisit) (before after : ExtractionReport) :
    Prop where
  updatedFiles : after.updatedFiles =
    before.updatedFiles ++ (visit.saved?.map fun _ ↦ project.shown visit.path).toList
  newKeys : after.newKeys = before.newKeys + visit.minted.length
  unwritable : after.issues.filter isUnwritable =
    before.issues.filter isUnwritable ++ (visit.refusal? project).toList

variable {project : Project} {host : Host} {session : Session} {progress : Progress} {path : Path}

theorem foldl_addIssue (issues : List Issue) (progress : Progress) :
    issues.foldl Progress.addIssue progress =
      { progress with
        report := { progress.report with issues := progress.report.issues ++ issues } } := by
  induction issues generalizing progress with
  | nil => simp
  | cons issue rest ih => simp [ih, Progress.addIssue]

/-- A character of a source would be cut in two, whatever the catalog is. -/
def Cuts (project : Project) (disk : Disk) (path : Path) : Prop :=
  ∃ code, disk.readText path = .ok code ∧ ∀ known,
    Conversion.ofSource (optionsOf project) path (scopeOf project path) code known =
      .error .cutsCharacter

theorem cuts_of_ofSource {disk : Disk} {code : String} {known : KeyedCatalog}
    (hread : disk.readText path = .ok code)
    (h : Conversion.ofSource (optionsOf project) path (scopeOf project path) code known =
      .error .cutsCharacter) : Cuts project disk path :=
  ⟨code, hread, fun _ ↦ Conversion.ofSource_cutsCharacter h _ _⟩

/-- A source that is cut ends a pass, dry or not. -/
theorem start_visit_cut (dryRun : Bool) (host : Host) (h : Cuts project session.disk path)
    (progress : Progress) :
    (visit project dryRun progress path).start host session =
      (.error (.cutsCharacter path), session) := by
  obtain ⟨code, hread, hcut⟩ := h
  unfold visit
  simp only [Run.start_bind, Run.start_disk, hread, hcut]
  rfl

def noteUnknown (project : Project) (path : Path) (code : String) (conversion : Conversion)
    (progress : Progress) : Progress :=
  (conversion.unknownKeys.map (unknownKeyIssue (project.shown path) code)).foldl Progress.addIssue
    progress

/-- Noting unknown keys adds issues to the report, none of them about saving, and changes nothing
else. -/
theorem noteUnknown_eq (project : Project) (path : Path) (code : String) (conversion : Conversion)
    (progress : Progress) :
    ∃ issues, issues.filter isUnwritable = [] ∧
      noteUnknown project path code conversion progress =
        { progress with
          report := { progress.report with issues := progress.report.issues ++ issues } } := by
  refine ⟨conversion.unknownKeys.map (unknownKeyIssue (project.shown path) code), ?_,
    foldl_addIssue _ _⟩
  rw [List.filter_eq_nil_iff]
  intro issue hissue
  obtain ⟨reference, -, rfl⟩ := List.mem_map.1 hissue
  exact Bool.false_ne_true

/-- A source that was converted, with what becomes of its output. -/
theorem start_visit_converted {code : String} {conversion : Conversion} {catalog : KeyedCatalog}
    (dryRun : Bool) (host : Host) (hread : session.disk.readText path = .ok code)
    (hconvert : Conversion.ofSource (optionsOf project) path (scopeOf project path) code
      progress.catalog = .ok (conversion, catalog)) :
    ∃ warned, session.OnlyWarned warned ∧
      (visit project dryRun progress path).start host session =
        match (save dryRun path conversion).start host warned with
        | (.error cause, after) =>
          (.ok ((noteUnknown project path code conversion progress).addIssue
              (.unwritable (project.shown path) cause.describe)),
            { after with
              warnings := after.warnings ++ [.fileSkipped (project.shown path) cause] })
        | (.ok (), after) =>
          (.ok ((noteUnknown project path code conversion progress).addConversion
              (project.shown path) conversion catalog), after) := by
  unfold visit
  simp only [Run.start_bind, Run.start_disk, hread, hconvert]
  let unknown : List Warning := conversion.unknownKeys.map fun reference ↦
    .unknownKey (project.shown path) reference.key
  cases conversion.lacksHookSite with
  | true =>
    refine ⟨{ session with warnings := session.warnings ++ [.noHookSite path] ++ unknown },
      session.onlyWarned_warnings _, ?_⟩
    simp only [if_true, Run.start_bind, Run.start_warn, Run.start_warnAll, Run.start_outcome]
    rcases (save dryRun path conversion).start host _ with ⟨_ | _, after⟩ <;> rfl
  | false =>
    refine ⟨{ session with warnings := session.warnings ++ unknown },
      session.onlyWarned_warnings _, ?_⟩
    simp only [Bool.false_eq_true, if_false, Run.start_bind, Run.start_warnAll, Run.start_outcome]
    rcases (save dryRun path conversion).start host _ with ⟨_ | _, after⟩ <;> rfl

theorem start_save (host : Host) (session : Session) (path : Path) (conversion : Conversion) :
    (save false path conversion).start host session =
      if conversion.modified then (Run.writeText path conversion.output).start host session
      else (.ok (), session) := by
  unfold save
  cases conversion.modified <;> rfl

theorem reports_unreadable {paid : SourceVisit} (hkept : paid.kept? = none)
    (hrefusal : paid.refusal? project = none) (shown reason : String) (progress : Progress) :
    Reports project paid progress.report (progress.addIssue (.unreadable shown reason)).report where
  updatedFiles := by simp [SourceVisit.saved?, hkept, Progress.addIssue]
  newKeys := by simp [SourceVisit.minted, hkept, Progress.addIssue]
  unwritable := by simp [hrefusal, Progress.addIssue, isUnwritable]

/-- A source that cannot be saved adds one issue about that to the report, and no key. -/
theorem reports_refused {paid : SourceVisit} {conversion : Conversion} {refusal : Refusal}
    (hverdict : paid.verdict = .refused conversion refusal) (code : String)
    (progress : Progress) :
    Reports project paid progress.report
      ((noteUnknown project paid.path code conversion progress).addIssue
        (.unwritable (project.shown paid.path) refusal.fault.describe)).report := by
  obtain ⟨issues, hissues, hnoted⟩ := noteUnknown_eq project paid.path code conversion progress
  rw [hnoted]
  constructor
  · simp [SourceVisit.saved?, SourceVisit.kept?, hverdict, Progress.addIssue]
  · simp [SourceVisit.minted, SourceVisit.kept?, hverdict, Progress.addIssue]
  · simp [SourceVisit.refusal?, hverdict, Progress.addIssue, hissues, isUnwritable]

/-- A source that is kept adds the number of its new keys to the report. -/
theorem reports_kept {paid : SourceVisit} {conversion : Conversion}
    (hverdict : paid.verdict = .kept conversion) (hcount : conversion.newKeys = paid.added.length)
    (code : String) (catalog : KeyedCatalog) (progress : Progress) :
    Reports project paid progress.report
      ((noteUnknown project paid.path code conversion progress).addConversion
        (project.shown paid.path) conversion catalog).report := by
  obtain ⟨issues, hissues, hnoted⟩ := noteUnknown_eq project paid.path code conversion progress
  rw [hnoted]
  constructor
  · cases hmodified : conversion.modified <;>
      simp [SourceVisit.saved?, SourceVisit.kept?, hverdict, hmodified, Progress.addConversion,
        Option.filter]
  · simp [SourceVisit.minted, SourceVisit.kept?, hverdict, hcount, Progress.addConversion]
  · simp [SourceVisit.refusal?, hverdict, Progress.addConversion, hissues]

/-- A pass over one source is a visit, whatever else becomes of the source. -/
theorem start_visit (host : Host) (hcuts : ¬ Cuts project session.disk path)
    (hindexed : progress.catalog.Indexed) :
    ∃ paid next, (visit project false progress path).start host session =
        (.ok next, SourceVisit.after paid) ∧
      paid.path = path ∧ paid.before = session ∧ paid.known = progress.catalog ∧
      paid.left = next.catalog ∧ next.catalog.Indexed ∧ paid.Visited project host ∧
      Reports project paid progress.report next.report := by
  cases hread : session.disk.readText path with
  | error cause =>
    refine ⟨{ path := path, verdict := .unread cause, before := session, known := progress.catalog,
              after := { session with
                warnings := session.warnings ++ [.fileSkipped (project.shown path) cause] },
              left := progress.catalog },
      progress.addIssue (.unreadable (project.shown path) cause.describe), ?_, rfl, rfl, rfl, rfl,
      hindexed, ⟨hread, rfl, session.onlyWarned_warnings _, rfl⟩, reports_unreadable rfl rfl _ _ _⟩
    unfold visit
    simp only [Run.start_bind, Run.start_disk, hread, Run.start_warn, Run.start_pure]
  | ok code =>
    cases hconvert : Conversion.ofSource (optionsOf project) path (scopeOf project path) code
        progress.catalog with
    | error fault =>
      have hfault : fault = .unreadable := by
        cases fault with
        | unreadable => rfl
        | cutsCharacter => exact absurd (cuts_of_ofSource hread hconvert) hcuts
      subst hfault
      refine ⟨{ path := path, verdict := .unparsed, code := code, before := session,
                known := progress.catalog,
                after := { session with
                  warnings := session.warnings ++ [.sourceSkipped (project.shown path)] },
                left := progress.catalog },
        progress.addIssue (.unreadable (project.shown path) notAModule), ?_, rfl, rfl, rfl, rfl,
        hindexed, ⟨hread, hconvert, rfl, session.onlyWarned_warnings _, rfl⟩,
        reports_unreadable rfl rfl _ _ _⟩
      unfold visit
      simp only [Run.start_bind, Run.start_disk, hread, hconvert, Run.start_warn, Run.start_pure]
    | ok outcome =>
      obtain ⟨conversion, catalog⟩ := outcome
      obtain ⟨calls, added, hconverted⟩ := Conversion.converted_of_ofSource hindexed hconvert
      obtain ⟨warned, hwarned, hstart⟩ := start_visit_converted false host hread hconvert
      obtain ⟨issues, -, hnoted⟩ := noteUnknown_eq project path code conversion progress
      rw [start_save] at hstart
      cases hmodified : conversion.modified with
      | false =>
        rw [hmodified] at hstart
        refine ⟨{ path := path, verdict := .kept conversion, code := code, calls := calls,
                  added := added, before := session, known := progress.catalog, after := warned,
                  left := catalog },
          _, hstart, rfl, rfl, rfl, rfl, hconverted.assigned.indexed, ?_,
          reports_kept rfl hconverted.newKeys code catalog progress⟩
        simp only [SourceVisit.Visited, hmodified]
        exact ⟨⟨hread, hconvert, hconverted⟩, hwarned⟩
      | true =>
        rw [hmodified, if_pos rfl] at hstart
        have hsame : warned.disk.readText path = .ok code := by
          rw [hwarned.disk]
          exact hread
        obtain ⟨place, hwritable⟩ := Disk.writable_of_readText hsame
        cases hrefusal : host.refusal? warned.changes (Run.writeOf place conversion.output) with
        | none =>
          have hwrite := Run.start_writeText_carriedOut hwritable hrefusal
          rw [hwrite] at hstart
          refine ⟨{ path := path, verdict := .kept conversion, code := code, calls := calls,
                    added := added, before := session, known := progress.catalog,
                    after := _, left := catalog },
            _, hstart, rfl, rfl, rfl, rfl, hconverted.assigned.indexed, ?_,
            reports_kept rfl hconverted.newKeys code catalog progress⟩
          simp only [SourceVisit.Visited, hmodified]
          exact ⟨⟨hread, hconvert, hconverted⟩, warned, hwarned, hwrite⟩
        | some refusal =>
          have hwrite := Run.start_writeText_refused hwritable hrefusal
          rw [hwrite] at hstart
          refine ⟨{ path := path, verdict := .refused conversion refusal, code := code,
                    calls := calls, added := added, before := session,
                    known := progress.catalog, after := _, left := progress.catalog },
            _, hstart, rfl, rfl, rfl, ?_, ?_, ?_, reports_refused rfl code progress⟩
          · rw [hnoted]
            rfl
          · rw [hnoted]
            exact hindexed
          · exact ⟨⟨catalog, hread, hconvert, hconverted⟩, hmodified, rfl, warned, place, _,
              hwarned, hwritable, hrefusal, hwrite, Session.onlyWarned_warnings _ _⟩

end Phrasebook.Extraction
