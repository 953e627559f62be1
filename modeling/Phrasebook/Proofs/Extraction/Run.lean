import Phrasebook.Proofs.Extraction.Visit

/-!
# The run over a project

The sources are visited in a row, each with the session and the catalog that the visit before it
left behind. What holds of the catalog after the last visit is therefore what holds of it after one
visit, taken along the row: it has the entries that were there before, and behind them those of the
sources that were kept; every call in such a source has its text in it.
-/

namespace Phrasebook

def Project.scanned (project : Project) (disk : Disk) : Except Project.IgnoreFault (List Path) :=
  (Project.ignoreRules disk project.root).map fun (rules, _) ↦
    (Scan.files disk
      { projectRoot := project.root
        sourceRoot := project.sourceRoot
        includes := project.config.includes
        ignores := project.config.ignores
        rules := rules }).files

/-- The sources that a scan finds are determined by the disk; besides, it only warns. -/
theorem Project.start_scan (project : Project) (host : Host) (session : Session) :
    ∃ warned, session.OnlyWarned warned ∧
      project.scan.start host session = (project.scanned session.disk, warned) := by
  unfold scan scanned
  simp only [Run.start_bind, Run.start_disk, Run.start_ofExcept]
  cases Project.ignoreRules session.disk project.root with
  | error fault => exact ⟨session, .refl session, rfl⟩
  | ok found =>
    obtain ⟨rules, warnings⟩ := found
    simp only [Run.start_warnAll]
    split
    · exact ⟨_, session.onlyWarned_warnings _, rfl⟩
    · exact ⟨_, session.onlyWarned_warnings _, rfl⟩

namespace Extraction

variable {project : Project} {host : Host} {session final : Session}
variable {catalog last : KeyedCatalog} {visits : List SourceVisit}

/-- Visits that were paid one after the other, between two sessions and two catalogs. -/
def Row (project : Project) (host : Host) :
    Session → KeyedCatalog → List SourceVisit → Session → KeyedCatalog → Prop
  | session, catalog, [], final, last => final = session ∧ last = catalog
  | session, catalog, visit :: rest, final, last =>
    visit.before = session ∧ visit.known = catalog ∧ visit.Visited project host ∧
      Row project host visit.after visit.left rest final last

/-- What visits add to the report about saved sources, new keys and sources that could not be
saved. -/
structure Reported (project : Project) (visits : List SourceVisit)
    (before after : ExtractionReport) : Prop where
  updatedFiles : after.updatedFiles = before.updatedFiles ++
    visits.filterMap fun visit ↦ visit.saved?.map fun _ ↦ project.shown visit.path
  newKeys : after.newKeys = before.newKeys + (visits.flatMap SourceVisit.minted).length
  unwritable : after.issues.filter isUnwritable =
    before.issues.filter isUnwritable ++ visits.filterMap (SourceVisit.refusal? project)

/-- What a visit and the visits behind it report adds up. -/
theorem Reported.cons {visit : SourceVisit} {before middle after : ExtractionReport}
    (first : Reports project visit before middle) (others : Reported project visits middle after) :
    Reported project (visit :: visits) before after where
  updatedFiles := by
    rw [others.updatedFiles, first.updatedFiles, List.append_assoc, List.filterMap_cons]
    cases visit.saved? <;> rfl
  newKeys := by
    rw [others.newKeys, first.newKeys, List.flatMap_cons, List.length_append, Nat.add_assoc]
  unwritable := by
    rw [others.unwritable, first.unwritable, List.append_assoc, List.filterMap_cons]
    cases visit.refusal? project <;> rfl

/-- Visits that were paid to the first of some sources, up to one that is cut. -/
structure StopsAt (project : Project) (host : Host) (session : Session) (catalog : KeyedCatalog)
    (files : List Path) (visits : List SourceVisit) (path : Path) (final : Session) : Prop where
  files_eq : ∃ rest, files = visits.map SourceVisit.path ++ path :: rest
  row : ∃ last, Row project host session catalog visits final last
  cuts : Cuts project final.disk path

/-- A pass over sources pays one visit to each of them, or stops at one that is cut. -/
theorem start_visitAll (project : Project) (host : Host) (files : List Path) (session : Session)
    (progress : Progress) (hindexed : progress.catalog.Indexed) :
    ∃ visits answer final,
      (visitAll project false progress files).start host session = (answer, final) ∧
      ((∃ next, answer = .ok next ∧ visits.map SourceVisit.path = files ∧
          Row project host session progress.catalog visits final next.catalog ∧
          Reported project visits progress.report next.report) ∨
        ∃ path, answer = .error (.cutsCharacter path) ∧
          StopsAt project host session progress.catalog files visits path final) := by
  induction files generalizing session progress with
  | nil =>
    exact ⟨[], _, session, rfl, .inl ⟨progress, rfl, rfl, ⟨rfl, rfl⟩, by simp, by simp, by simp⟩⟩
  | cons path rest ih =>
    by_cases hcuts : Cuts project session.disk path
    · have hstart : (visitAll project false progress (path :: rest)).start host session =
          (.error (.cutsCharacter path), session) :=
        Run.start_bind_error (start_visit_cut false host hcuts progress) _
      exact ⟨[], _, session, hstart,
        .inr ⟨path, rfl, ⟨rest, rfl⟩, ⟨progress.catalog, rfl, rfl⟩, hcuts⟩⟩
    · obtain ⟨paid, middle, hstart, hpath, hbefore, hknown, hleft, hmiddle, hvisited, hreports⟩ :=
        start_visit host hcuts hindexed
      obtain ⟨visits, answer, final, hrest, hends⟩ := ih paid.after middle hmiddle
      have hwhole : (visitAll project false progress (path :: rest)).start host session =
          (answer, final) := by
        rw [visitAll, Run.start_bind_ok hstart, hrest]
      refine ⟨paid :: visits, answer, final, hwhole, ?_⟩
      rcases hends with ⟨next, rfl, hpaths, hrow, hreported⟩ |
        ⟨stopped, rfl, ⟨others, hothers⟩, ⟨last, hrow⟩, hcut⟩
      · refine .inl ⟨next, rfl, ?_, ⟨hbefore, hknown, hvisited, ?_⟩, .cons hreports hreported⟩
        · rw [List.map_cons, hpath, hpaths]
        · rw [hleft]
          exact hrow
      · refine .inr ⟨stopped, rfl, ⟨others, ?_⟩, ⟨last, hbefore, hknown, hvisited, ?_⟩, hcut⟩
        · rw [List.map_cons, hpath, hothers, List.cons_append]
        · rw [hleft]
          exact hrow

theorem SourceVisit.Visited.grown {visit : SourceVisit} (h : visit.Visited project host) :
    visit.known.GrownBy visit.left visit.minted := by
  unfold minted
  cases hkept : visit.kept? with
  | none =>
    rw [h.left_eq hkept]
    exact .refl _
  | some conversion => exact (h.converts hkept).2.2.assigned.grown

/-- Visits only add to the catalog, and what they add are the entries that their kept sources need.
-/
theorem Row.grown (h : Row project host session catalog visits final last) :
    catalog.GrownBy last (visits.flatMap SourceVisit.minted) := by
  induction visits generalizing session catalog with
  | nil =>
    rw [h.2]
    exact .refl _
  | cons visit rest ih =>
    obtain ⟨-, hknown, hvisited, hrest⟩ := h
    rw [← hknown, List.flatMap_cons]
    exact hvisited.grown.trans (ih hrest)

/-- A call in a source that was kept has its text in the catalog after the last visit. -/
theorem Row.calls (h : Row project host session catalog visits final last) {visit : SourceVisit}
    (hmem : visit ∈ visits) (hkept : visit.kept?.isSome) {call : Conversion.KeyedSite}
    (hcall : call ∈ visit.calls) :
    ∃ template, last.get? call.key = some template ∧
      Text.trim template = Text.trim call.site.found.template := by
  induction visits generalizing session catalog with
  | nil => cases hmem
  | cons first rest ih =>
    obtain ⟨-, -, hvisited, hrest⟩ := h
    rcases List.mem_cons.1 hmem with rfl | hmem
    · obtain ⟨conversion, hconversion⟩ := Option.isSome_iff_exists.1 hkept
      obtain ⟨-, -, hconverted⟩ := hvisited.converts hconversion
      obtain ⟨template, hget, htrim⟩ := hconverted.assigned.texts call hcall
      exact ⟨template, hrest.grown.get? hget, htrim⟩
    · exact ih hrest hmem

/-! ## The run -/

def Progress.begin (initial : Catalog) (files : List Path) : Progress where
  catalog := .ofCatalog initial
  report := { filesScanned := files.length }

/-- What a run finds before it visits a source: the source catalog and the sources. -/
def found (project : Project) (disk : Disk) : Except PassFault (Catalog × List Path) :=
  match CatalogFile.stored disk (project.catalogPath project.sourceLocale) with
  | .error cause => .error (.catalog cause)
  | .ok initial =>
    match project.scanned disk with
    | .error cause => .error (.ignoreFile cause)
    | .ok files => .ok (initial, files)

/-- What a run does with what it found. -/
def pass (project : Project) (dryRun : Bool) (initial : Catalog) (files : List Path) :
    Run PassFault ExtractionReport := do
  let progress ← visitAll project dryRun (.begin initial files) files
  if !dryRun then
    (CatalogFile.write (project.catalogPath project.sourceLocale) progress.catalog.entries).adapt
      .catalog
  return progress.report

/-- A run that finds neither a fault in its catalog nor in its ignore file goes on to its pass. -/
theorem start_run_found (project : Project) (dryRun : Bool) (host : Host) (session : Session) :
    ∃ began, session.OnlyWarned began ∧
      (run project dryRun).start host session =
        match found project session.disk with
        | .error fault => (.error fault, began)
        | .ok (initial, files) => (pass project dryRun initial files).start host began := by
  obtain ⟨warnings, hread⟩ := CatalogFile.start_read host session
    (project.catalogPath project.sourceLocale)
  obtain ⟨began, hbegan, hscan⟩ := project.start_scan host { session with warnings := warnings }
  unfold run found
  simp only [Run.start_bind, Run.start_adapt, hread]
  cases CatalogFile.stored session.disk (project.catalogPath project.sourceLocale) with
  | error cause => exact ⟨_, session.onlyWarned_warnings warnings, rfl⟩
  | ok initial =>
    refine ⟨began, (session.onlyWarned_warnings warnings).trans hbegan, ?_⟩
    cases hscanned : project.scanned session.disk with
    | error cause => simp only [Except.mapError, hscan, hscanned]
    | ok files =>
      simp only [Except.mapError, hscan, hscanned, pass, Run.start_bind]
      cases dryRun <;> rfl

theorem found_of_stored_error {disk : Disk} {cause : CatalogFile.Fault}
    (h : CatalogFile.stored disk (project.catalogPath project.sourceLocale) = .error cause) :
    found project disk = .error (.catalog cause) := by
  unfold found
  rw [h]

theorem found_of_stored {disk : Disk} {initial : Catalog}
    (h : CatalogFile.stored disk (project.catalogPath project.sourceLocale) = .ok initial) :
    found project disk =
      ((project.scanned disk).mapError .ignoreFile).map fun files ↦ (initial, files) := by
  unfold found
  rw [h]
  cases project.scanned disk <;> rfl

theorem found_ok {disk : Disk} {initial : Catalog} {files : List Path}
    (h : found project disk = .ok (initial, files)) :
    CatalogFile.stored disk (project.catalogPath project.sourceLocale) = .ok initial ∧
      project.scanned disk = .ok files := by
  unfold found at h
  split at h
  · cases h
  · next hstored =>
    split at h
    · cases h
    · next hscanned =>
      cases h
      exact ⟨hstored, hscanned⟩

/-- A run that cannot begin changes nothing. -/
theorem start_run_of_error {fault : PassFault} (dryRun : Bool) (host : Host)
    (h : found project session.disk = .error fault) :
    ∃ warned, session.OnlyWarned warned ∧
      (run project dryRun).start host session = (.error fault, warned) := by
  have hstart := start_run_found project dryRun host session
  rw [h] at hstart
  exact hstart

theorem start_run_unread {cause : CatalogFile.Fault}
    (host : Host) (h : CatalogFile.stored session.disk (project.catalogPath project.sourceLocale) =
      .error cause) :
    ∃ warned, session.OnlyWarned warned ∧
      (run project false).start host session = (.error (.catalog cause), warned) :=
  start_run_of_error false host (found_of_stored_error h)

theorem start_run_unscanned {initial : Catalog} {cause : Project.IgnoreFault} (host : Host)
    (hread : CatalogFile.stored session.disk (project.catalogPath project.sourceLocale) =
      .ok initial)
    (h : project.scanned session.disk = .error cause) :
    ∃ warned, session.OnlyWarned warned ∧
      (run project false).start host session = (.error (.ignoreFile cause), warned) := by
  have hfound := found_of_stored hread
  rw [h] at hfound
  exact start_run_of_error false host hfound

/-- A run that can begin is its pass. -/
theorem start_run_of_ok {initial : Catalog} {files : List Path} (dryRun : Bool) (host : Host)
    (h : found project session.disk = .ok (initial, files)) :
    ∃ began, session.OnlyWarned began ∧
      (run project dryRun).start host session =
        (pass project dryRun initial files).start host began := by
  have hstart := start_run_found project dryRun host session
  rw [h] at hstart
  exact hstart

/-- A pass writes the catalog when all sources are visited. -/
theorem start_pass {initial : Catalog} {files : List Path} {next : Progress} {ended : Session}
    (h : (visitAll project false (.begin initial files) files).start host session =
      (.ok next, ended)) :
    (pass project false initial files).start host session =
      ((fun _ ↦ next.report) <$> (CatalogFile.write (project.catalogPath project.sourceLocale)
        next.catalog.entries).adapt .catalog).start host ended := by
  unfold pass
  rw [Run.start_bind_ok h, map_eq_pure_bind]
  rfl

/-- A run that can begin visits the sources and then writes the catalog, unless it stops at a source
that is cut. -/
theorem start_run {initial : Catalog} {files : List Path} (host : Host)
    (hread : CatalogFile.stored session.disk (project.catalogPath project.sourceLocale) =
      .ok initial)
    (hscan : project.scanned session.disk = .ok files) :
    ∃ (began : Session) (visits : List SourceVisit) (ended : Session),
      session.OnlyWarned began ∧
      ((∃ next : Progress, visits.map SourceVisit.path = files ∧
          Row project host began (.ofCatalog initial) visits ended next.catalog ∧
          Reported project visits { filesScanned := files.length } next.report ∧
          (run project false).start host session =
            match (CatalogFile.write (project.catalogPath project.sourceLocale)
                next.catalog.entries).start host ended with
            | (.error cause, after) => (.error (.catalog cause), after)
            | (.ok (), after) => (.ok next.report, after)) ∨
        ∃ path, StopsAt project host began (.ofCatalog initial) files visits path ended ∧
          (run project false).start host session = (.error (.cutsCharacter path), ended)) := by
  have hfound := found_of_stored hread
  rw [hscan] at hfound
  obtain ⟨began, hwarned, hstart⟩ := start_run_of_ok false host hfound
  obtain ⟨visits, answer, ended, hvisits, hends⟩ :=
    start_visitAll project host files began (.begin initial files)
      (KeyedCatalog.indexed_ofCatalog initial)
  refine ⟨began, visits, ended, hwarned, ?_⟩
  rw [hstart]
  rcases hends with ⟨next, rfl, hpaths, hrow, hreported⟩ | ⟨path, rfl, hstops⟩
  · refine .inl ⟨next, hpaths, hrow, hreported, ?_⟩
    rw [start_pass hvisits, Run.start_map, Run.start_adapt]
    generalize (CatalogFile.write (project.catalogPath project.sourceLocale)
      next.catalog.entries).start host ended = written
    rcases written with ⟨_ | _, after⟩ <;> rfl
  · exact .inr ⟨path, hstops, Run.start_bind_error hvisits _⟩

/-! ## A run that succeeds -/

/-- What a run that succeeds leaves behind, given the catalog that it began with and the visits
that it paid. -/
structure Covered (project : Project) (initial : Catalog) (visits : List SourceVisit)
    (report : ExtractionReport) (final : Session) (saved : Catalog) : Prop where
  stored : final.disk.readText (project.catalogPath project.sourceLocale) = .ok saved.write
  /-- The catalog begins with what was there, and has the new entries of the kept sources only. -/
  entries : saved.entries = initial.entries ++ visits.flatMap SourceVisit.minted
  calls : ∀ visit ∈ visits, visit.kept?.isSome → ∀ call ∈ visit.calls,
    ∃ template, saved.get? call.key = some template ∧
      Text.trim template = Text.trim call.site.found.template
  /-- No call in a kept source has a key that only a source needs that was not kept. -/
  origin : ∀ visit ∈ visits, visit.kept?.isSome → ∀ call ∈ visit.calls,
    call.key ∈ initial.keys ∨
      ∃ other ∈ visits, other.kept?.isSome ∧ call.key ∈ other.added.map Prod.fst
  growth : saved.size = initial.size + report.newKeys
  updatedFiles : report.updatedFiles =
    visits.filterMap fun visit ↦ visit.saved?.map fun _ ↦ project.shown visit.path
  unwritable : report.issues.filter isUnwritable =
    visits.filterMap (SourceVisit.refusal? project)

/-- A run that ends with visits in a row and a catalog that was written is covered. -/
theorem covered_of_row {initial : Catalog} {next : Progress} {scanned : Nat}
    {ended : Session}
    (hrow : Row project host session (.ofCatalog initial) visits ended next.catalog)
    (hreported : Reported project visits { filesScanned := scanned } next.report)
    (hwrite : (CatalogFile.write (project.catalogPath project.sourceLocale)
      next.catalog.entries).start host ended = (.ok (), final)) :
    Covered project initial visits next.report final next.catalog.entries := by
  have hgrown : next.catalog.entries.entries =
      initial.entries ++ visits.flatMap SourceVisit.minted := hrow.grown
  refine
    { stored := CatalogFile.readText_write hwrite
      entries := hgrown
      calls := fun visit hmem hkept call hcall ↦ hrow.calls hmem hkept hcall
      origin := fun visit hmem hkept call hcall ↦ ?_
      growth := ?_
      updatedFiles := hreported.updatedFiles
      unwritable := hreported.unwritable }
  · obtain ⟨template, hget, -⟩ := hrow.calls hmem hkept hcall
    have hentry := Catalog.get?_eq_some_iff.1 hget
    rw [hgrown] at hentry
    rcases List.mem_append.1 hentry with hold | hnew
    · exact .inl (List.mem_map.2 ⟨_, hold, rfl⟩)
    · obtain ⟨other, hother, hminted⟩ := List.mem_flatMap.1 hnew
      unfold SourceVisit.minted at hminted
      split at hminted
      · next hkeptOther => exact .inr ⟨other, hother, hkeptOther, List.mem_map.2 ⟨_, hminted, rfl⟩⟩
      · cases hminted
  · calc
      next.catalog.size = initial.size + (visits.flatMap SourceVisit.minted).length :=
        hrow.grown.size
      _ = initial.size + next.report.newKeys := by
        rw [hreported.newKeys, Nat.zero_add]

/-- A run that succeeds visits its sources in a row and ends with the write of the catalog. -/
theorem run_ok {report : ExtractionReport}
    (h : (run project false).start host session = (.ok report, final)) :
    ∃ (initial : Catalog) (files : List Path) (began : Session) (visits : List SourceVisit)
        (next : Progress) (ended : Session),
      CatalogFile.stored session.disk (project.catalogPath project.sourceLocale) = .ok initial ∧
      project.scanned session.disk = .ok files ∧
      session.OnlyWarned began ∧
      visits.map SourceVisit.path = files ∧
      Row project host began (.ofCatalog initial) visits ended next.catalog ∧
      Reported project visits { filesScanned := files.length } next.report ∧
      report = next.report ∧
      (CatalogFile.write (project.catalogPath project.sourceLocale)
        next.catalog.entries).start host ended = (.ok (), final) := by
  cases hread : CatalogFile.stored session.disk (project.catalogPath project.sourceLocale) with
  | error cause =>
    obtain ⟨warned, -, hstart⟩ := start_run_unread host hread
    rw [hstart] at h
    cases h
  | ok initial =>
    cases hscan : project.scanned session.disk with
    | error cause =>
      obtain ⟨warned, -, hstart⟩ := start_run_unscanned host hread hscan
      rw [hstart] at h
      cases h
    | ok files =>
      obtain ⟨began, visits, ended, hwarned, hends⟩ := start_run host hread hscan
      rcases hends with ⟨next, hpaths, hrow, hreported, hstart⟩ | ⟨path, -, hstart⟩
      · rw [hstart] at h
        cases hwrite : (CatalogFile.write (project.catalogPath project.sourceLocale)
            next.catalog.entries).start host ended with
        | mk answer after =>
          rw [hwrite] at h
          cases answer with
          | error cause => cases h
          | ok _ =>
            cases h
            exact ⟨initial, files, began, visits, next, ended, rfl, rfl, hwarned, hpaths, hrow,
              hreported, rfl, hwrite⟩
      · rw [hstart] at h
        cases h

/-- However the writes of the sources end, a run that succeeds leaves a catalog behind that covers
exactly the sources that were kept. -/
theorem run_covered (project : Project) (host : Host) (session : Session)
    {report : ExtractionReport} {final : Session}
    (h : (run project false).start host session = (.ok report, final)) :
    ∃ initial files began visits last ended,
      CatalogFile.stored session.disk (project.catalogPath project.sourceLocale) = .ok initial ∧
      project.scanned session.disk = .ok files ∧
      session.OnlyWarned began ∧
      visits.map SourceVisit.path = files ∧
      Row project host began (.ofCatalog initial) visits ended last ∧
      Covered project initial visits report final last.entries := by
  obtain ⟨initial, files, began, visits, next, ended, hread, hscan, hwarned, hpaths, hrow,
    hreported, rfl, hwrite⟩ := run_ok h
  exact ⟨initial, files, began, visits, next.catalog, ended, hread, hscan, hwarned, hpaths, hrow,
    covered_of_row hrow hreported hwrite⟩

/-- A project with its sources and catalogs in the usual directories. -/
def plainProject : Project where
  config := {}
  root := ⟨"/p"⟩
  configPath? := none
  sourceRoot := ⟨"/p/src"⟩
  catalogDir := ⟨"/p/translations"⟩
  verbose := false

def quietHost : Host where
  environment := []
  refusal? _ _ := none
  transport _ _ := .unreachable ""

def greeting : String :=
  "import \x7b t \x7d from \"localise-ai-sdk\";\nconst a = <p>Hello</p>;\n"

def greetingDisk : Disk where
  nodes :=
    [(["p"], .directory), (["p", "src"], .directory),
      (["p", "src", "a.tsx"], .file greeting.toUTF8)]
  workingDirectory := ["p"]

/-- The text of another source with one site. -/
def farewell : String :=
  "import \x7b t \x7d from \"localise-ai-sdk\";\nconst a = <p>Goodbye</p>;\n"

/-- A project with its sources in three directories. -/
def partedProject : Project :=
  { plainProject with config := { includes := ["a", "b", "c"] } }

/-- A disk with a catalog and three sources, the last two of which have the same text. -/
def farewellDisk : Disk where
  nodes :=
    [(["p"], .directory), (["p", "src"], .directory), (["p", "src", "a"], .directory),
      (["p", "src", "b"], .directory), (["p", "src", "c"], .directory),
      (["p", "translations"], .directory), (["p", "src", "a", "x.tsx"], .file greeting.toUTF8),
      (["p", "src", "b", "x.tsx"], .file farewell.toUTF8),
      (["p", "src", "c", "x.tsx"], .file farewell.toUTF8),
      (["p", "translations", "en.json"], .file "\x7b\"menu\": \"Menu\"\x7d".toUTF8)]
  workingDirectory := ["p"]

/-- A host that lets only a few bytes into the second source. -/
def lockingHost : Host where
  environment := []
  refusal? _ change :=
    match change with
    | .write place _ =>
      if place = ["p", "src", "b", "x.tsx"] then some ⟨some 5, .tooLarge⟩ else none
    | .create _ => none
  transport _ _ := .unreachable ""

/-- The key of the source that could not be saved is given up, and the source behind it gets one of
its own for the same text. -/
theorem run_covered_farewell :
    ∃ report final initial visits last,
      (run partedProject false).start lockingHost (.start farewellDisk) = (.ok report, final) ∧
      visits.map SourceVisit.path =
        [⟨"/p/src/a/x.tsx"⟩, ⟨"/p/src/b/x.tsx"⟩, ⟨"/p/src/c/x.tsx"⟩] ∧
      initial.entries = [("menu", "Menu")] ∧
      last.entries = [("menu", "Menu"), ("a.x.text_1", "Hello"), ("c.x.text_1", "Goodbye")] ∧
      report.newKeys = 2 ∧ report.updatedFiles = ["src/a/x.tsx", "src/c/x.tsx"] ∧
      report.issues = [.unwritable "src/b/x.tsx" Disk.Fault.tooLarge.describe] ∧
      Covered partedProject initial visits report final last := by
  let catalogPath := partedProject.catalogPath partedProject.sourceLocale
  have hinitial : (CatalogFile.stored farewellDisk catalogPath).toOption.map (·.entries) =
      some [("menu", "Menu")] := by decide +kernel
  have hscanned : partedProject.scanned farewellDisk =
      .ok [⟨"/p/src/a/x.tsx"⟩, ⟨"/p/src/b/x.tsx"⟩, ⟨"/p/src/c/x.tsx"⟩] := by decide +kernel
  have hrun :
      let result := (run partedProject false).start lockingHost (.start farewellDisk)
      result.1.toOption.map (fun report ↦ (report.newKeys, report.updatedFiles, report.issues)) =
          some (2, ["src/a/x.tsx", "src/c/x.tsx"],
            [.unwritable "src/b/x.tsx" Disk.Fault.tooLarge.describe]) ∧
        (CatalogFile.stored result.2.disk catalogPath).toOption.map (·.entries) =
          some [("menu", "Menu"), ("a.x.text_1", "Hello"), ("c.x.text_1", "Goodbye")] := by
    decide +kernel
  cases hstart : (run partedProject false).start lockingHost (.start farewellDisk) with
  | mk answer final =>
    rw [hstart] at hrun
    obtain ⟨hreport, hsaved⟩ := hrun
    cases answer with
    | error cause => cases hreport
    | ok report =>
      obtain ⟨hkeys, hrest⟩ := Prod.mk.inj (Option.some.inj hreport)
      obtain ⟨hupdated, hissues⟩ := Prod.mk.inj hrest
      obtain ⟨initial, files, -, visits, last, -, hstored, hfiles, -, hpaths, -, hcovered⟩ :=
        run_covered partedProject lockingHost (.start farewellDisk) hstart
      have hlast : CatalogFile.stored final.disk catalogPath = .ok last.entries :=
        CatalogFile.stored_of_readText hcovered.stored
      have hbegun : CatalogFile.stored farewellDisk catalogPath = .ok initial := hstored
      rw [hlast] at hsaved
      rw [hbegun] at hinitial
      cases hscanned.symm.trans hfiles
      exact ⟨report, final, initial, visits, last.entries, rfl, hpaths, Option.some.inj hinitial,
        Option.some.inj hsaved, hkeys, hupdated, hissues, hcovered⟩

end Extraction

end Phrasebook
