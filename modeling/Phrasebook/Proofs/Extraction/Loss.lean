import Phrasebook.Proofs.Extraction.Writes

/-!
# When a run loses text

Sources are written one by one, and the catalog once at the end. A text that was taken out of a
source is safe when its call stands for a key of the catalog on the disk. There are exactly two ways
to lose one: the catalog cannot be written when something was written into a source already, or a
source that could be written in part only is left with calls whose keys were given up. In every
other run, whichever writes are refused, each call that was put into a source has its key in the
catalog.
-/

namespace Phrasebook.Extraction

variable {project : Project} {host : Host} {session final : Session} {visits : List SourceVisit}

/-- A text stands somewhere in the file at a path. -/
def Stands (disk : Disk) (path : Path) (text : String) : Prop :=
  ∃ before after, disk.contents? path = some (before ++ text.toUTF8 ++ after)

/-- The file at a path is not what it was. -/
def Differs (session final : Session) (path : Path) : Prop :=
  final.disk.contents? path ≠ session.disk.contents? path

/-- A call was put into a source, and stands in it at the end. -/
structure PutInto (session final : Session) (visit : SourceVisit)
    (call : Conversion.KeyedSite) : Prop where
  emitted : call ∈ visit.calls
  differs : Differs session final visit.path
  stands : Stands final.disk visit.path
    (Conversion.lookupCall call.key call.site.found.arguments)

/-- The file at a path holds the text of a catalog that has a key. -/
def HasKey (disk : Disk) (path : Path) (key : String) : Prop :=
  ∃ catalog : Catalog, disk.readText path = .ok catalog.write ∧ key ∈ catalog.keys

/-- The visits of a run: of the sources that were scanned, in a row, or of those before a source
that is cut, or none when the catalog or the ignore file cannot be read. -/
def Paid (project : Project) (host : Host) (session : Session) (visits : List SourceVisit) : Prop :=
  (∃ initial files began ended,
      CatalogFile.stored session.disk (project.catalogPath project.sourceLocale) = .ok initial ∧
      project.scanned session.disk = .ok files ∧ session.OnlyWarned began ∧
      (visits.map SourceVisit.path = files ∧
          (∃ last, Row project host began (.ofCatalog initial) visits ended last) ∨
        ∃ path, StopsAt project host began (.ofCatalog initial) files visits path ended)) ∨
    visits = [] ∧ ∀ initial files,
      CatalogFile.stored session.disk (project.catalogPath project.sourceLocale) = .ok initial →
      project.scanned session.disk ≠ .ok files

/-- No text is lost: every call that was put into a source has its key in the catalog on the disk,
and a run that fails leaves every source as it was. -/
structure KeepsTexts (project : Project) (session : Session) (visits : List SourceVisit)
    (answer : Except PassFault ExtractionReport) (final : Session) : Prop where
  covered : ∀ visit ∈ visits, ∀ call, PutInto session final visit call →
    HasKey final.disk (project.catalogPath project.sourceLocale) call.key
  unchanged : ∀ fault, answer = .error fault →
    ∀ visit ∈ visits, ¬ Differs session final visit.path

def SourceVisit.Refused (visit : SourceVisit) : Prop :=
  ∃ conversion refusal, visit.verdict = .refused conversion refusal

/-- A call is put into a source only by a conversion that is kept. -/
theorem SourceVisit.Visited.kept_of_call {visit : SourceVisit} (h : visit.Visited project host)
    (hrefused : ¬ visit.Refused) {call : Conversion.KeyedSite} (hcall : call ∈ visit.calls) :
    visit.kept?.isSome := by
  unfold Visited at h
  unfold kept?
  cases hverdict : visit.verdict with
  | unread cause =>
    rw [hverdict] at h
    rw [h.2.2.2] at hcall
    cases hcall
  | unparsed =>
    rw [hverdict] at h
    rw [h.2.2.2.2] at hcall
    cases hcall
  | refused conversion refusal => exact absurd ⟨conversion, refusal, hverdict⟩ hrefused
  | kept conversion => rfl

theorem Row.visited {catalog last : KeyedCatalog}
    (h : Row project host session catalog visits final last) {visit : SourceVisit}
    (hmem : visit ∈ visits) : visit.Visited project host := by
  induction visits generalizing session catalog with
  | nil => cases hmem
  | cons first rest ih =>
    obtain ⟨-, -, hvisited, hrest⟩ := h
    rcases List.mem_cons.1 hmem with rfl | hmem
    · exact hvisited
    · exact ih hrest hmem

/-- What was written last into a source, if anything, is what the source held before. -/
def Restored (session : Session) (visits : List SourceVisit) : Prop :=
  ∀ visit ∈ visits, ∀ place, session.disk.locate visit.path = .ok place →
    ∀ bytes, lastWritten? session.disk place visits = some bytes →
      session.disk.contents? visit.path = some bytes

/-- After the visits, and after the catalog was written, the sources are as they were exactly when
what was written last into each of them is what it held. -/
theorem Row.restored_iff {catalog last : KeyedCatalog} {files : List Path} {began ended : Session}
    (hwarned : session.OnlyWarned began) (hscan : project.scanned session.disk = .ok files)
    (hpaths : visits.map SourceVisit.path ⊆ files)
    (hrow : Row project host began catalog visits ended last)
    (hfinal : ∀ visit ∈ visits, ∀ place, ended.disk.locate visit.path = .ok place →
      final.disk.contents? visit.path = ended.disk.contents? visit.path) :
    (∀ visit ∈ visits, ¬ Differs session final visit.path) ↔ Restored session visits := by
  constructor
  · intro hsame visit hvisit place hplace bytes hbytes
    obtain ⟨hlocate, hcontents⟩ := hrow.contents? hwarned hscan hpaths hplace
    rw [hbytes] at hcontents
    have hunchanged := not_not.1 (hsame visit hvisit)
    rw [← hunchanged, hfinal visit hvisit place hlocate, hcontents]
    rfl
  · intro hrestored visit hvisit hdiffers
    obtain ⟨-, place, hplace⟩ :=
      locate_of_mem_scanned hscan (hpaths (List.mem_map_of_mem hvisit))
    obtain ⟨hlocate, hcontents⟩ := hrow.contents? hwarned hscan hpaths hplace
    apply hdiffers
    rw [hfinal visit hvisit place hlocate, hcontents]
    cases hwritten : lastWritten? session.disk place visits with
    | none => rfl
    | some bytes =>
      rw [hrestored visit hvisit place hplace bytes hwritten]
      rfl

/-- A run that fails keeps all texts exactly when the sources that it visited are as they were. -/
theorem keepsTexts_error_iff {fault : PassFault} :
    KeepsTexts project session visits (.error fault) final ↔
      ∀ visit ∈ visits, ¬ Differs session final visit.path :=
  ⟨fun h ↦ h.unchanged fault rfl, fun hsame ↦
    ⟨fun visit hvisit _ hput ↦ absurd hput.differs (hsame visit hvisit), fun _ _ ↦ hsame⟩⟩

/-- A run that fails keeps all texts exactly when what it wrote last into each source is what the
source held before. A run that succeeds does exactly when every call that is left in a source that
could not be saved has its key in the catalog. -/
theorem run_keepsTexts_iff (project : Project) (host : Host) (session : Session) :
    ∃ visits answer final, (run project false).start host session = (answer, final) ∧
      Paid project host session visits ∧
      (KeepsTexts project session visits answer final ↔
        match answer with
        | .error _ => Restored session visits
        | .ok _ => ∀ visit ∈ visits, visit.Refused → ∀ call, PutInto session final visit call →
            HasKey final.disk (project.catalogPath project.sourceLocale) call.key) := by
  cases hread : CatalogFile.stored session.disk (project.catalogPath project.sourceLocale) with
  | error cause =>
    obtain ⟨warned, -, hstart⟩ := start_run_unread host hread
    refine ⟨[], _, _, hstart, .inr ⟨rfl, fun initial files hstored ↦ ?_⟩, ?_⟩
    · rw [hread] at hstored
      cases hstored
    · exact ⟨fun _ visit hvisit ↦ by simp at hvisit, fun _ ↦ ⟨by simp, by simp⟩⟩
  | ok initial =>
    cases hscan : project.scanned session.disk with
    | error cause =>
      obtain ⟨warned, -, hstart⟩ := start_run_unscanned host hread hscan
      refine ⟨[], _, _, hstart, .inr ⟨rfl, fun initial files _ hscanned ↦ ?_⟩, ?_⟩
      · rw [hscan] at hscanned
        cases hscanned
      · exact ⟨fun _ visit hvisit ↦ by simp at hvisit, fun _ ↦ ⟨by simp, by simp⟩⟩
    | ok files =>
      obtain ⟨began, visits, ended, hwarned, hends⟩ := start_run host hread hscan
      rcases hends with ⟨next, rfl, hrow, hreported, hstart⟩ | ⟨path, hstops, hstart⟩
      · have hpaid : Paid project host session visits :=
          .inl ⟨initial, _, began, ended, hread, hscan, hwarned, .inl ⟨rfl, next.catalog, hrow⟩⟩
        cases hwrite : (CatalogFile.write (project.catalogPath project.sourceLocale)
            next.catalog.entries).start host ended with
        | mk written final =>
          rw [hwrite] at hstart
          cases written with
          | error cause =>
            refine ⟨visits, _, final, hstart, hpaid, keepsTexts_error_iff.trans
              (hrow.restored_iff hwarned hscan (List.Subset.refl _)
                fun visit hvisit place hplace ↦ ?_)⟩
            have hsource := (locate_of_mem_scanned hscan (List.mem_map_of_mem hvisit)).1
            have hsame := contents?_write host hsource hplace project.catalogDir
              project.sourceLocale next.catalog.entries
            exact (congrArg (·.2.disk.contents? visit.path) hwrite).symm.trans hsame
          | ok _ =>
            refine ⟨visits, _, final, hstart, hpaid, fun h visit hvisit _ ↦ h.covered visit hvisit,
              fun hrefusals ↦ ⟨fun visit hvisit call hput ↦ ?_, fun _ hfault ↦ by cases hfault⟩⟩
            by_cases hrefused : visit.Refused
            · exact hrefusals visit hvisit hrefused call hput
            · have hkept := (hrow.visited hvisit).kept_of_call hrefused hput.emitted
              obtain ⟨template, hget, -⟩ := hrow.calls hvisit hkept hput.emitted
              refine ⟨next.catalog.entries, CatalogFile.readText_write hwrite, ?_⟩
              exact List.mem_map.2 ⟨_, Catalog.get?_eq_some_iff.1 hget, rfl⟩
      · -- The pass ends at a source that is cut, with what it wrote until then.
        obtain ⟨rest, hfiles⟩ := hstops.files_eq
        obtain ⟨last, hrow⟩ := hstops.row
        have hpaths : visits.map SourceVisit.path ⊆ files :=
          hfiles ▸ List.subset_append_left _ _
        refine ⟨visits, _, ended, hstart,
          .inl ⟨initial, files, began, ended, hread, hscan, hwarned, .inr ⟨path, hstops⟩⟩, ?_⟩
        exact keepsTexts_error_iff.trans
          (hrow.restored_iff hwarned hscan hpaths fun _ _ _ _ ↦ rfl)

/-- A disk with one source, and a file where the catalogs would be. -/
def blockedDisk : Disk where
  nodes := greetingDisk.nodes ++ [(["p", "translations"], .file "".toUTF8)]
  workingDirectory := ["p"]

theorem run_loses_greeting :
    ∃ visits answer final,
      (run plainProject false).start quietHost (.start blockedDisk) = (answer, final) ∧
      Paid plainProject quietHost (.start blockedDisk) visits ∧
      ¬ KeepsTexts plainProject (.start blockedDisk) visits answer final := by
  have hread : CatalogFile.stored (Session.start blockedDisk).disk
      (plainProject.catalogPath plainProject.sourceLocale) = .ok .empty := by decide +kernel
  have hscan : plainProject.scanned (Session.start blockedDisk).disk =
      .ok [⟨"/p/src/a.tsx"⟩] := by decide +kernel
  have hfails : ((run plainProject false).start quietHost (.start blockedDisk)).1.toOption.isNone =
      true := by decide +kernel
  have hdiffers : ((run plainProject false).start quietHost
        (.start blockedDisk)).2.disk.contents? ⟨"/p/src/a.tsx"⟩ ≠
      blockedDisk.contents? ⟨"/p/src/a.tsx"⟩ := by decide +kernel
  have huncut : (match ((run plainProject false).start quietHost (.start blockedDisk)).1 with
      | .error (.cutsCharacter _) => true
      | _ => false) = false := by decide +kernel
  obtain ⟨began, visits, ended, hwarned, hends⟩ := start_run quietHost hread hscan
  rcases hends with ⟨next, hpaths, hrow, -, -⟩ | ⟨path, -, hcut⟩
  case inr =>
    rw [hcut] at huncut
    cases huncut
  have hpaid : Paid plainProject quietHost (.start blockedDisk) visits :=
    .inl ⟨.empty, _, began, ended, hread, hscan, hwarned, .inl ⟨hpaths, next.catalog, hrow⟩⟩
  have hsource : ⟨"/p/src/a.tsx"⟩ ∈ visits.map SourceVisit.path := by
    rw [hpaths]
    exact List.mem_singleton.2 rfl
  obtain ⟨visit, hvisit, hpath⟩ := List.mem_map.1 hsource
  cases hstart : (run plainProject false).start quietHost (.start blockedDisk) with
  | mk answer final =>
    rw [hstart] at hfails hdiffers
    refine ⟨visits, answer, final, rfl, hpaid, fun hkeeps ↦ ?_⟩
    cases answer with
    | ok report => cases hfails
    | error cause =>
      have hsame := hkeeps.unchanged cause rfl visit hvisit
      rw [hpath] at hsame
      exact hsame hdiffers

end Phrasebook.Extraction
