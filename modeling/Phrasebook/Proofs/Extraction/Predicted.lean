import Phrasebook.Proofs.Extraction.Dry
import Phrasebook.Proofs.Extraction.Writes

/-!
# What a dry run predicts

A run and a dry run read the same sources in the same order, and a source is converted with the
catalog that the sources before it left behind. The run writes in between; but what it writes is a
source that was visited already, so no later source reads differently as long as no two of them are
the same file. The two runs then part only where a write fails, and there the run says so. A source
that is cut ends both of them: whether it is cut does not depend on the catalog.
-/

namespace Phrasebook.Extraction

variable {project : Project} {host : Host} {session : Session} {disk : Disk} {path : Path}
variable {progress next : Progress} {files : List Path}

def isWriteFault : PassFault → Bool
  | .catalog cause => cause.isWriteFault
  | .ignoreFile _ => false
  | .cutsCharacter _ => false

/-- A write of a run failed: a source could not be saved, or the catalog could not be written. -/
def WriteFailed : Except PassFault ExtractionReport → Prop
  | .ok report => ∃ issue ∈ report.issues, isUnwritable issue = true
  | .error fault => isWriteFault fault = true

theorem isWriteFault_found {fault : PassFault} (h : found project disk = .error fault) :
    isWriteFault fault = false := by
  unfold found at h
  split at h
  · next cause hstored =>
    cases h
    exact CatalogFile.isWriteFault_stored hstored
  · split at h
    · cases h
      rfl
    · cases h

theorem readText_congr {before after : Disk} (h : after.find path = before.find path) :
    after.readText path = before.readText path := by
  unfold Disk.readText
  rw [h]

/-- A dry visit depends on the disk through the text of its source. -/
theorem dryVisit_congr {before after : Disk} (h : after.readText path = before.readText path)
    (progress : Progress) :
    dryVisit project after progress path = dryVisit project before progress path := by
  unfold dryVisit
  rw [h]

theorem cuts_congr {before after : Disk} (h : after.readText path = before.readText path) :
    Cuts project after path ↔ Cuts project before path := by
  unfold Cuts
  rw [h]

/-- A dry visit reports no source that could not be saved. -/
theorem filter_isUnwritable_dryVisit (h : dryVisit project disk progress path = .ok next) :
    next.report.issues.filter isUnwritable = progress.report.issues.filter isUnwritable := by
  unfold dryVisit at h
  split at h
  · cases h
    simp [Progress.addIssue, isUnwritable]
  · next code _ =>
    split at h
    · cases h
      simp [Progress.addIssue, isUnwritable]
    · cases h
    · next conversion catalog _ =>
      cases h
      obtain ⟨issues, hissues, hnoted⟩ := noteUnknown_eq project path code conversion progress
      rw [hnoted]
      simp [Progress.addConversion, hissues]

/-- A dry visit has a result on every source that is not cut. -/
theorem exists_dryVisit (h : ¬ Cuts project disk path) (progress : Progress) :
    ∃ next, dryVisit project disk progress path = .ok next := by
  unfold dryVisit
  cases hread : disk.readText path with
  | error cause => exact ⟨_, rfl⟩
  | ok code =>
    dsimp only
    split
    · exact ⟨_, rfl⟩
    · next hcut => exact absurd (cuts_of_ofSource hread hcut) h
    · exact ⟨_, rfl⟩

/-- Some source could not be saved. -/
def Unsaved (progress : Progress) : Prop :=
  ∃ issue ∈ progress.report.issues, isUnwritable issue = true

theorem Unsaved.of_filter {more : List Issue} (h : Unsaved progress)
    (hmore : next.report.issues.filter isUnwritable =
      progress.report.issues.filter isUnwritable ++ more) : Unsaved next := by
  obtain ⟨issue, hissue, hunwritable⟩ := h
  have hmem : issue ∈ next.report.issues.filter isUnwritable := by
    rw [hmore]
    exact List.mem_append_left _ (List.mem_filter.2 ⟨hissue, hunwritable⟩)
  exact ⟨issue, (List.mem_filter.1 hmem).1, hunwritable⟩

/-- A visit writes nothing but its source. -/
theorem writtenWithin_visit (project : Project) (host : Host) (session : Session)
    (progress : Progress) (path : Path) :
    Disk.WrittenWithin (fun place ↦ session.disk.locate path = .ok place) session.disk
      ((visit project false progress path).start host session).2.disk := by
  rcases visit_cases project session.disk progress.catalog path with
    hcuts | h | ⟨code, conversion, catalog, hread, hconvert⟩
  · rw [start_visit_cut false host hcuts]
    exact .refl _ _
  · obtain ⟨issue, warned, -, hwarned, -, hstart⟩ := start_visit_unconverted false host h
    rw [hstart, hwarned.disk]
    exact .refl _ _
  · obtain ⟨warned, hwarned, hstart⟩ := start_visit_converted false host hread hconvert
    rw [hstart, ← hwarned.disk]
    have hsave : Disk.WrittenWithin (fun place ↦ warned.disk.locate path = .ok place) warned.disk
        ((save false path conversion).start host warned).2.disk := by
      rw [start_save]
      split
      · exact Run.writtenWithin_writeText_place host warned path conversion.output
      · exact .refl _ _
    rcases hsaved : (save false path conversion).start host warned with ⟨_ | _, after⟩ <;>
      (rw [hsaved] at hsave; exact hsave)

/-- A visit comes to what a dry visit comes to, unless its source cannot be saved. -/
theorem start_visit_predicted (host : Host) (hcuts : ¬ Cuts project session.disk path)
    (hindexed : progress.catalog.Indexed) :
    ∃ next after, (visit project false progress path).start host session = (.ok next, after) ∧
      next.catalog.Indexed ∧ (Unsaved progress → Unsaved next) ∧
      (dryVisit project session.disk progress path = .ok next ∨ Unsaved next) := by
  obtain ⟨paid, next, hstart, -, -, -, -, hkept, -, hreports⟩ := start_visit host hcuts hindexed
  refine ⟨next, paid.after, hstart, hkept, fun h ↦ h.of_filter hreports.unwritable, ?_⟩
  rcases visit_cases project session.disk progress.catalog path with
    hcut | h | ⟨code, conversion, catalog, hread, hconvert⟩
  · exact absurd hcut hcuts
  · obtain ⟨issue, warned, -, -, hdry, hvisit⟩ := start_visit_unconverted false host h
    rw [hstart] at hvisit
    cases hvisit
    exact .inl hdry
  · obtain ⟨warned, -, hvisit⟩ := start_visit_converted false host hread hconvert
    rw [hstart] at hvisit
    generalize (save false path conversion).start host warned = saved at hvisit
    rcases saved with ⟨_ | _, after⟩
    · cases (Prod.mk.inj hvisit).1
      exact .inr ⟨_, List.mem_append_right _ List.mem_cons_self, rfl⟩
    · cases (Prod.mk.inj hvisit).1
      exact .inl (dryVisit_converted hread hconvert)

/-! ## All sources -/

/-- What lies ahead of a pass: on the disk that it began with, the sources that are still to be
visited are different files, and they read now as they did then. -/
structure Ahead (disk now : Disk) (files : List Path) : Prop where
  keeps : disk.KeepsDirectories now
  located : ∀ path ∈ files, ∃ place, disk.locate path = .ok place
  apart : files.Pairwise fun first second ↦ disk.locate first ≠ disk.locate second
  unread : ∀ path ∈ files, now.readText path = disk.readText path

/-- Writing the first source changes none of the others. -/
theorem Ahead.visited {now later : Disk} (h : Ahead disk now (path :: files))
    (hwritten : Disk.WrittenWithin (fun place ↦ now.locate path = .ok place) now later) :
    Ahead disk later files := by
  obtain ⟨hfirst, hrest⟩ := List.pairwise_cons.1 h.apart
  refine
    { keeps := h.keeps.trans hwritten.keeps
      located := fun other hother ↦ h.located other (List.mem_cons_of_mem _ hother)
      apart := hrest
      unread := fun other hother ↦ ?_ }
  obtain ⟨own, hown⟩ := h.located path List.mem_cons_self
  obtain ⟨place, hplace⟩ := h.located other (List.mem_cons_of_mem _ hother)
  have hne : own ≠ place := by
    intro hsame
    apply hfirst other hother
    rw [hown, hplace, hsame]
  have houtside : ¬ now.locate path = .ok place := by
    rw [h.keeps.locate hown]
    intro hsame
    exact hne (Except.ok.inj hsame)
  have hnow := h.keeps.locate hplace
  have hfind : later.find other = now.find other := by
    rw [Disk.find_of_locate hnow, Disk.find_of_locate (hwritten.keeps.locate hnow),
      hwritten.nodeAt? houtside]
  calc
    later.readText other = now.readText other := readText_congr hfind
    _ = disk.readText other := h.unread other (List.mem_cons_of_mem _ hother)

/-- Where a pass stands next to a dry pass: at the same, unless some source could not be saved. -/
def Follows (real dry : Progress) : Prop :=
  real = dry ∨ Unsaved real

/-- A pass and a dry pass end at the same source that is cut, or both go through all sources. -/
def EndsLike : Except PassFault Progress → Except PassFault Progress → Prop
  | .ok real, .ok dry => Follows real dry
  | .error fault, .error other => fault = other
  | _, _ => False

variable (project) in
/-- A pass comes to what a dry pass comes to, unless some source cannot be saved. -/
theorem endsLike_visitAll (host : Host) {real dry : Progress} (hindexed : real.catalog.Indexed)
    (hfollows : Follows real dry) (hahead : Ahead disk session.disk files) :
    EndsLike ((visitAll project false real files).start host session).1
      (files.foldlM (dryVisit project disk) dry) := by
  induction files generalizing session real dry with
  | nil => exact hfollows
  | cons path rest ih =>
    have hread := hahead.unread path List.mem_cons_self
    rw [List.foldlM_cons]
    by_cases hcuts : Cuts project session.disk path
    · rw [dryVisit_cut ((cuts_congr hread).1 hcuts), visitAll,
        Run.start_bind_error (start_visit_cut false host hcuts real)]
      rfl
    · obtain ⟨next, after, hstart, hkept, hunsaved, hnext⟩ :=
        start_visit_predicted host hcuts hindexed
      have hwritten := writtenWithin_visit project host session real path
      rw [hstart] at hwritten
      have hstep : ∃ other, dryVisit project disk dry path = .ok other ∧ Follows next other := by
        rw [← dryVisit_congr hread]
        rcases hfollows with rfl | hlost
        · rcases hnext with hdry | hlost
          · exact ⟨next, hdry, .inl rfl⟩
          · obtain ⟨other, hother⟩ := exists_dryVisit hcuts real
            exact ⟨other, hother, .inr hlost⟩
        · obtain ⟨other, hother⟩ := exists_dryVisit hcuts dry
          exact ⟨other, hother, .inr (hunsaved hlost)⟩
      obtain ⟨other, hother, hsame⟩ := hstep
      rw [hother, visitAll, Run.start_bind_ok hstart]
      exact ih hkept hsame (hahead.visited hwritten)

/-- A dry pass fails only at a source that is cut. -/
theorem exists_cut_of_foldlM {fault : PassFault}
    (h : files.foldlM (dryVisit project disk) progress = .error fault) :
    ∃ path, fault = .cutsCharacter path := by
  induction files generalizing progress with
  | nil => cases h
  | cons path rest ih =>
    rw [List.foldlM_cons] at h
    by_cases hcuts : Cuts project disk path
    · rw [dryVisit_cut hcuts] at h
      cases h
      exact ⟨path, rfl⟩
    · obtain ⟨next, hnext⟩ := exists_dryVisit hcuts progress
      rw [hnext] at h
      exact ih h

theorem filter_isUnwritable_foldlM (h : files.foldlM (dryVisit project disk) progress = .ok next) :
    next.report.issues.filter isUnwritable = progress.report.issues.filter isUnwritable := by
  induction files generalizing progress with
  | nil =>
    cases h
    rfl
  | cons path rest ih =>
    rw [List.foldlM_cons] at h
    cases hdry : dryVisit project disk progress path with
    | error fault =>
      rw [hdry] at h
      cases h
    | ok middle =>
      rw [hdry] at h
      exact (ih h).trans (filter_isUnwritable_dryVisit hdry)

/-! ## The run -/

/-- The sources that a scan finds are different files. -/
def SourcesApart (project : Project) (disk : Disk) : Prop :=
  ∀ files, project.scanned disk = .ok files →
    files.Pairwise fun first second ↦ disk.locate first ≠ disk.locate second

theorem dryRun_of_found {initial : Catalog} (h : found project disk = .ok (initial, files)) :
    dryRun project disk =
      (files.foldlM (dryVisit project disk) (.begin initial files)).map (·.report) := by
  unfold dryRun
  rw [h]
  change (files.foldlM (dryVisit project disk) (.begin initial files)).bind _ = _
  cases files.foldlM (dryVisit project disk) (.begin initial files) <;> rfl

/-- No write of a dry run fails. -/
theorem not_writeFailed_dry (project : Project) (host : Host) (session : Session) :
    ¬ WriteFailed ((run project true).start host session).1 := by
  obtain ⟨warned, -, hstart⟩ := start_run_dry project host session
  rw [hstart]
  cases hfound : found project session.disk with
  | error fault =>
    unfold dryRun
    rw [hfound]
    change ¬ isWriteFault fault = true
    rw [isWriteFault_found hfound]
    exact Bool.false_ne_true
  | ok result =>
    obtain ⟨initial, files⟩ := result
    rw [dryRun_of_found hfound]
    cases hfolded : files.foldlM (dryVisit project session.disk) (.begin initial files) with
    | error fault =>
      obtain ⟨path, rfl⟩ := exists_cut_of_foldlM hfolded
      exact Bool.false_ne_true
    | ok progress =>
      rintro ⟨issue, hissue, hunwritable⟩
      have hmem := List.mem_filter.2 ⟨hissue, hunwritable⟩
      rw [filter_isUnwritable_foldlM hfolded] at hmem
      cases hmem

/-- A run that can begin ends at a source that is cut, as a dry run does, or fails to write the
catalog in the end, or stores the catalog that covers its visits; in the last case it reports what a
dry run reports, unless some source could not be saved. -/
theorem run_cases {initial : Catalog} (host : Host)
    (hfound : found project session.disk = .ok (initial, files))
    (hapart : SourcesApart project session.disk) :
    (∃ path, ((run project false).start host session).1 = .error (.cutsCharacter path) ∧
        dryRun project session.disk = .error (.cutsCharacter path)) ∨
      (∃ cause, cause.isWriteFault = true ∧
        ((run project false).start host session).1 = .error (.catalog cause)) ∨
      ∃ visits next final, (run project false).start host session = (.ok next.report, final) ∧
        Reported project visits { filesScanned := files.length } next.report ∧
        Covered project initial visits next.report final next.catalog.entries ∧
        (dryRun project session.disk = .ok next.report ∨ Unsaved next) := by
  obtain ⟨-, hscanned⟩ := found_ok hfound
  obtain ⟨began, hbegan, hstart⟩ := start_run_of_ok false host hfound
  have hindexed : (Progress.begin initial files).catalog.Indexed :=
    KeyedCatalog.indexed_ofCatalog initial
  have hahead : Ahead session.disk began.disk files := by
    rw [hbegan.disk]
    exact ⟨.refl _, fun path hpath ↦ (locate_of_mem_scanned hscanned hpath).2,
      hapart files hscanned, fun _ _ ↦ rfl⟩
  have hends := endsLike_visitAll project host hindexed (.inl rfl) hahead
  obtain ⟨visits, answer, ended, hvisits, hcases⟩ :=
    start_visitAll project host files began (.begin initial files) hindexed
  rw [hvisits] at hends
  rw [hstart, dryRun_of_found hfound]
  rcases hcases with ⟨next, rfl, -, hrow, hreported⟩ | ⟨path, rfl, -⟩
  · right
    rw [start_pass hvisits, Run.start_map, Run.start_adapt]
    cases hwrite : (CatalogFile.write (project.catalogPath project.sourceLocale)
        next.catalog.entries).start host ended with
    | mk answer final =>
      cases answer with
      | error cause => exact .inl ⟨cause, CatalogFile.isWriteFault_of_write hwrite, rfl⟩
      | ok _ =>
        refine .inr ⟨visits, next, final, rfl, hreported, covered_of_row hrow hreported hwrite, ?_⟩
        cases hfolded : files.foldlM (dryVisit project session.disk) (.begin initial files) with
        | error fault =>
          rw [hfolded] at hends
          exact hends.elim
        | ok dry =>
          rw [hfolded] at hends
          rcases hends with rfl | hlost
          · exact .inl rfl
          · exact .inr hlost
  · left
    refine ⟨path, congrArg Prod.fst (Run.start_bind_error hvisits _), ?_⟩
    cases hfolded : files.foldlM (dryVisit project session.disk) (.begin initial files) with
    | error fault =>
      rw [hfolded] at hends
      have hsame : PassFault.cutsCharacter path = fault := hends
      rw [← hsame]
      rfl
    | ok dry =>
      rw [hfolded] at hends
      exact hends.elim

/-- A dry run reports what a run will report, and the two part exactly where a write of the run
fails. The catalog that a run stores has what it had, and behind it as many new entries as are
reported. -/
theorem run_predicted (project : Project) (host dryHost : Host) (session : Session)
    (hapart : SourcesApart project session.disk) :
    let real := (run project false).start host session
    let dry := (run project true).start dryHost session
    let catalogPath := project.catalogPath project.sourceLocale
    (¬ WriteFailed real.1 ↔ real.1 = dry.1) ∧
      ∀ report, real.1 = .ok report → ∃ initial saved added,
        CatalogFile.stored session.disk catalogPath = .ok initial ∧
        CatalogFile.stored real.2.disk catalogPath = .ok saved ∧
        saved.entries = initial.entries ++ added ∧ added.length = report.newKeys := by
  intro real dry catalogPath
  have hback : real.1 = dry.1 → ¬ WriteFailed real.1 := by
    intro hsame
    rw [hsame]
    exact not_writeFailed_dry project dryHost session
  obtain ⟨warned, -, hstart⟩ := start_run_dry project dryHost session
  have hdry : dry.1 = dryRun project session.disk := congrArg Prod.fst hstart
  cases hfound : found project session.disk with
  | error fault =>
    obtain ⟨stopped, -, hreal⟩ := start_run_of_error false host hfound
    have hfault : real.1 = .error fault := congrArg Prod.fst hreal
    have hsame : real.1 = dry.1 := by
      rw [hfault, hdry, dryRun, hfound]
      rfl
    refine ⟨⟨fun _ ↦ hsame, hback⟩, fun report hreport ↦ ?_⟩
    rw [hfault] at hreport
    cases hreport
  | ok result =>
    obtain ⟨initial, files⟩ := result
    rcases run_cases host hfound hapart with ⟨path, hreal, hcut⟩ | ⟨cause, hcause, hreal⟩ |
      ⟨visits, next, final, hrun, hreported, hcovered, hpredicted⟩
    · have hsame : real.1 = dry.1 := hreal.trans (hdry.trans hcut).symm
      refine ⟨⟨fun _ ↦ hsame, hback⟩, fun report hreport ↦ ?_⟩
      cases hreal.symm.trans hreport
    · have hfailed : WriteFailed real.1 := by
        change WriteFailed ((run project false).start host session).1
        rw [hreal]
        exact hcause
      refine ⟨⟨fun hsaved ↦ absurd hfailed hsaved, hback⟩, fun report hreport ↦ ?_⟩
      cases hreal.symm.trans hreport
    · have hreal : real = (.ok next.report, final) := hrun
      refine ⟨⟨fun hsaved ↦ ?_, hback⟩, fun report hreport ↦ ?_⟩
      · rcases hpredicted with hsame | hlost
        · rw [hreal, hdry, hsame]
        · rw [hreal] at hsaved
          exact absurd hlost hsaved
      · rw [hreal] at hreport ⊢
        cases hreport
        refine ⟨initial, next.catalog.entries, visits.flatMap SourceVisit.minted,
          (found_ok hfound).1, CatalogFile.stored_of_readText hcovered.stored, hcovered.entries, ?_⟩
        rw [hreported.newKeys, Nat.zero_add]

/-- A project with its sources in two directories. -/
def splitProject : Project :=
  { plainProject with config := { includes := ["one", "two"] } }

/-- A disk with a source in either directory; the two have the same text. -/
def twoGreetings : Disk where
  nodes :=
    [(["p"], .directory), (["p", "src"], .directory), (["p", "src", "one"], .directory),
      (["p", "src", "two"], .directory), (["p", "src", "one", "a.tsx"], .file greeting.toUTF8),
      (["p", "src", "two", "b.tsx"], .file greeting.toUTF8)]
  workingDirectory := ["p"]

theorem sourcesApart_twoGreetings : SourcesApart splitProject twoGreetings := by
  have hscanned : splitProject.scanned twoGreetings =
      .ok [⟨"/p/src/one/a.tsx"⟩, ⟨"/p/src/two/b.tsx"⟩] := by decide +kernel
  intro files hfiles
  cases hscanned.symm.trans hfiles
  decide +kernel

/-- The second source finds its text in the catalog, in either run. -/
theorem run_predicted_twoGreetings :
    ∃ report, ((run splitProject true).start quietHost (.start twoGreetings)).1 = .ok report ∧
      ((run splitProject false).start quietHost (.start twoGreetings)).1 = .ok report ∧
      report.updatedFiles = ["src/one/a.tsx", "src/two/b.tsx"] ∧ report.newKeys = 1 := by
  have hreal : ((run splitProject false).start quietHost
      (.start twoGreetings)).1.toOption.map (fun report ↦
        (report.updatedFiles, report.newKeys, report.issues.any isUnwritable)) =
      some (["src/one/a.tsx", "src/two/b.tsx"], 1, false) := by decide +kernel
  obtain ⟨hpredicted, -⟩ := run_predicted splitProject quietHost quietHost (.start twoGreetings)
    sourcesApart_twoGreetings
  cases hanswer : ((run splitProject false).start quietHost (.start twoGreetings)).1 with
  | error fault =>
    rw [hanswer] at hreal
    cases hreal
  | ok report =>
    rw [hanswer] at hreal hpredicted
    simp only [Except.toOption, Option.map_some, Option.some.injEq, Prod.mk.injEq] at hreal
    obtain ⟨hfiles, hkeys, hissues⟩ := hreal
    have hsaved : ¬ WriteFailed (.ok report) := by
      rintro ⟨issue, hissue, hunwritable⟩
      exact absurd (List.any_eq_true.2 ⟨issue, hissue, hunwritable⟩) (by simp [hissues])
    exact ⟨report, (hpredicted.1 hsaved).symm, rfl, hfiles, hkeys⟩

end Phrasebook.Extraction
