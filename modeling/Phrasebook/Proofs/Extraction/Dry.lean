import Phrasebook.Proofs.Extraction.Run

/-!
# The dry run of an extraction

A dry run visits the sources as any run does, and lets its catalog grow along the way, but saves
nothing: what it reports is a function of the disk, and nothing but warnings comes about.
-/

namespace Phrasebook.Extraction

variable {project : Project} {host : Host} {session final : Session} {report : ExtractionReport}

/-- The progress after the dry visit of a source, unless the source is cut. -/
def dryVisit (project : Project) (disk : Disk) (progress : Progress) (path : Path) :
    Except PassFault Progress :=
  match disk.readText path with
  | .error cause => .ok (progress.addIssue (.unreadable (project.shown path) cause.describe))
  | .ok code =>
    match Conversion.ofSource (optionsOf project) path (scopeOf project path) code
        progress.catalog with
    | .error .unreadable => .ok (progress.addIssue (.unreadable (project.shown path) notAModule))
    | .error .cutsCharacter => .error (.cutsCharacter path)
    | .ok (conversion, catalog) =>
      .ok ((noteUnknown project path code conversion progress).addConversion (project.shown path)
        conversion catalog)

/-- A source of which a visit makes no conversion: its text cannot be read, or it is no module. -/
def Unconverted (project : Project) (disk : Disk) (known : KeyedCatalog) (path : Path) : Prop :=
  ∀ code, disk.readText path = .ok code →
    Conversion.ofSource (optionsOf project) path (scopeOf project path) code known =
      .error .unreadable

/-- A source is cut, or not converted, or converted. -/
theorem visit_cases (project : Project) (disk : Disk) (known : KeyedCatalog) (path : Path) :
    Cuts project disk path ∨ Unconverted project disk known path ∨
      ∃ code conversion catalog, disk.readText path = .ok code ∧
        Conversion.ofSource (optionsOf project) path (scopeOf project path) code known =
          .ok (conversion, catalog) := by
  unfold Unconverted
  cases hread : disk.readText path with
  | error cause => exact .inr (.inl fun code hcode ↦ by cases hcode)
  | ok code =>
    cases hconvert : Conversion.ofSource (optionsOf project) path (scopeOf project path) code
        known with
    | error fault =>
      cases fault with
      | unreadable =>
        refine .inr (.inl fun other hother ↦ ?_)
        rw [← Except.ok.inj hother]
        exact hconvert
      | cutsCharacter => exact .inl (cuts_of_ofSource hread hconvert)
    | ok outcome => exact .inr (.inr ⟨code, outcome.1, outcome.2, rfl, hconvert⟩)

theorem dryVisit_cut {disk : Disk} {path : Path} (h : Cuts project disk path)
    (progress : Progress) : dryVisit project disk progress path = .error (.cutsCharacter path) := by
  obtain ⟨code, hread, hcut⟩ := h
  unfold dryVisit
  rw [hread]
  dsimp only
  rw [hcut]

/-- Every run passes over a source that is not converted, dry or not. -/
theorem start_visit_unconverted (dryRun : Bool) (host : Host) {progress : Progress} {path : Path}
    (h : Unconverted project session.disk progress.catalog path) :
    ∃ issue warned, isUnwritable issue = false ∧ session.OnlyWarned warned ∧
      dryVisit project session.disk progress path = .ok (progress.addIssue issue) ∧
      (visit project dryRun progress path).start host session =
        (.ok (progress.addIssue issue), warned) := by
  unfold visit dryVisit
  simp only [Run.start_bind, Run.start_disk]
  cases hread : session.disk.readText path with
  | error cause => exact ⟨_, _, rfl, session.onlyWarned_warnings _, rfl, rfl⟩
  | ok code =>
    dsimp only
    rw [h code hread]
    exact ⟨_, _, rfl, session.onlyWarned_warnings _, rfl, rfl⟩

/-- The dry visit of a source that can be converted keeps the conversion and saves nothing. -/
theorem dryVisit_converted {disk : Disk} {progress : Progress} {path : Path} {code : String}
    {conversion : Conversion} {catalog : KeyedCatalog} (hread : disk.readText path = .ok code)
    (hconvert : Conversion.ofSource (optionsOf project) path (scopeOf project path) code
      progress.catalog = .ok (conversion, catalog)) :
    dryVisit project disk progress path =
      .ok ((noteUnknown project path code conversion progress).addConversion (project.shown path)
        conversion catalog) := by
  unfold dryVisit
  rw [hread]
  dsimp only
  rw [hconvert]

/-- A visit of a dry run is determined by the disk, and leaves nothing but warnings behind. -/
theorem start_dryVisit (project : Project) (host : Host) (session : Session) (progress : Progress)
    (path : Path) :
    ∃ warned, session.OnlyWarned warned ∧
      (visit project true progress path).start host session =
        (dryVisit project session.disk progress path, warned) := by
  rcases visit_cases project session.disk progress.catalog path with
    hcuts | h | ⟨code, conversion, catalog, hread, hconvert⟩
  · refine ⟨session, .refl session, ?_⟩
    rw [start_visit_cut true host hcuts, dryVisit_cut hcuts]
  · obtain ⟨issue, warned, -, hwarned, hdry, hstart⟩ := start_visit_unconverted true host h
    refine ⟨warned, hwarned, ?_⟩
    rw [hstart, hdry]
  · obtain ⟨warned, hwarned, hstart⟩ := start_visit_converted true host hread hconvert
    have hsave : save true path conversion = pure () := by
      unfold save
      rw [Bool.not_true, Bool.and_false]
      rfl
    rw [hsave, Run.start_pure] at hstart
    rw [dryVisit_converted hread hconvert]
    exact ⟨warned, hwarned, hstart⟩

/-- The visits of a dry run all see the disk that it began with. -/
theorem start_visitAll_dry (project : Project) (host : Host) (files : List Path)
    (session : Session) (progress : Progress) :
    ∃ warned, session.OnlyWarned warned ∧
      (visitAll project true progress files).start host session =
        (files.foldlM (dryVisit project session.disk) progress, warned) := by
  induction files generalizing session progress with
  | nil => exact ⟨session, .refl session, rfl⟩
  | cons path rest ih =>
    obtain ⟨middle, hmiddle, hvisit⟩ := start_dryVisit project host session progress path
    rw [List.foldlM_cons]
    cases hdry : dryVisit project session.disk progress path with
    | error fault =>
      rw [hdry] at hvisit
      exact ⟨middle, hmiddle, Run.start_bind_error hvisit _⟩
    | ok next =>
      rw [hdry] at hvisit
      obtain ⟨warned, hwarned, hrest⟩ := ih middle next
      refine ⟨warned, hmiddle.trans hwarned, ?_⟩
      rw [visitAll, Run.start_bind_ok hvisit, hrest, hmiddle.disk]
      rfl

def dryRun (project : Project) (disk : Disk) : Except PassFault ExtractionReport := do
  let (initial, files) ← found project disk
  let progress ← files.foldlM (dryVisit project disk) (.begin initial files)
  return progress.report

/-- What a dry run reports is known from the disk that it finds, and nothing but warnings comes
about. -/
theorem start_run_dry (project : Project) (host : Host) (session : Session) :
    ∃ warned, session.OnlyWarned warned ∧
      (run project true).start host session = (dryRun project session.disk, warned) := by
  obtain ⟨began, hbegan, hstart⟩ := start_run_found project true host session
  unfold dryRun
  cases hfound : found project session.disk with
  | error fault =>
    rw [hfound] at hstart
    exact ⟨began, hbegan, hstart⟩
  | ok result =>
    obtain ⟨initial, files⟩ := result
    rw [hfound] at hstart
    obtain ⟨warned, hwarned, hvisits⟩ := start_visitAll_dry project host files began
      (.begin initial files)
    refine ⟨warned, hbegan.trans hwarned, ?_⟩
    rw [hbegan.disk] at hvisits
    rw [hstart]
    unfold pass
    change _ = ((files.foldlM (dryVisit project session.disk) (.begin initial files)).bind
      fun progress ↦ .ok progress.report, warned)
    cases hfolded : files.foldlM (dryVisit project session.disk) (.begin initial files) with
    | error fault =>
      rw [hfolded] at hvisits
      exact Run.start_bind_error hvisits _
    | ok progress =>
      rw [hfolded] at hvisits
      simp only [Run.start_bind_ok hvisits, Bool.not_true, Bool.false_eq_true, if_false,
        Run.start_pure]
      rfl

/-- A dry run that succeeds reports on the sources that were scanned, and changes nothing. -/
theorem run_dry_ok (h : (run project true).start host session = (.ok report, final)) :
    ∃ initial files progress,
      CatalogFile.stored session.disk (project.catalogPath project.sourceLocale) = .ok initial ∧
      project.scanned session.disk = .ok files ∧
      files.foldlM (dryVisit project session.disk) (.begin initial files) = .ok progress ∧
      report = progress.report ∧ session.OnlyWarned final := by
  obtain ⟨warned, hwarned, hstart⟩ := start_run_dry project host session
  rw [hstart] at h
  obtain ⟨hreport, rfl⟩ := Prod.mk.inj h
  unfold dryRun at hreport
  cases hfound : found project session.disk with
  | error fault =>
    rw [hfound] at hreport
    cases hreport
  | ok result =>
    obtain ⟨initial, files⟩ := result
    obtain ⟨hstored, hscanned⟩ := found_ok hfound
    rw [hfound] at hreport
    change (files.foldlM (dryVisit project session.disk) (.begin initial files)).bind
      (fun progress ↦ .ok progress.report) = _ at hreport
    cases hfolded : files.foldlM (dryVisit project session.disk) (.begin initial files) with
    | error fault =>
      rw [hfolded] at hreport
      cases hreport
    | ok progress =>
      rw [hfolded] at hreport
      cases hreport
      exact ⟨initial, files, progress, hstored, hscanned, hfolded, rfl, hwarned⟩

end Phrasebook.Extraction
