import Phrasebook.Proofs.Extraction.Run
import Phrasebook.Proofs.Scan.Sources

/-!
# What a run writes into its sources

A visit changes no file but its own source, and what it leaves there is known from its verdict. What
a source holds after the last visit is therefore what was written into it last, or what it held
before. Two paths of a scan may lead to the same file; the visits to it then count together. The
catalog is written at the end, and never into a source.
-/

namespace Phrasebook.Extraction

variable {project : Project} {host : Host} {session final : Session}
variable {catalog last : KeyedCatalog} {visits : List SourceVisit} {disk : Disk}
variable {place : Disk.Place}

namespace SourceVisit

variable {visit : SourceVisit}

/-- The bytes that a visit leaves in its source; nothing when the source is as it was. -/
def written? (visit : SourceVisit) : Option ByteArray :=
  match visit.verdict with
  | .kept conversion => if conversion.modified then some conversion.output.toUTF8 else none
  | .refused conversion refusal => refusal.written? conversion.output
  | _ => none

/-- After a visit the disk has what was written at the place of the source. -/
theorem Visited.disk_after (h : visit.Visited project host) :
    (visit.written? = none ∧ visit.after.disk = visit.before.disk) ∨
      ∃ place, visit.before.disk.writable visit.path = .ok place ∧
        visit.after.disk = visit.before.disk.putContents place visit.written? := by
  unfold Visited at h
  unfold written?
  cases hverdict : visit.verdict with
  | unread cause =>
    rw [hverdict] at h
    exact .inl ⟨rfl, h.2.2.1.disk⟩
  | unparsed =>
    rw [hverdict] at h
    exact .inl ⟨rfl, h.2.2.2.1.disk⟩
  | refused conversion refusal =>
    rw [hverdict] at h
    obtain ⟨-, -, -, warned, place, after, hwarned, hwritable, hrefusal, hwrite, hafter⟩ := h
    rw [Run.start_writeText_refused hwritable hrefusal] at hwrite
    cases hwrite
    refine .inr ⟨place, ?_, ?_⟩
    · rw [← hwarned.disk]
      exact hwritable
    · rw [hafter.disk, ← hwarned.disk]
  | kept conversion =>
    rw [hverdict] at h
    obtain ⟨-, hsaved⟩ := h
    cases hmodified : conversion.modified with
    | false =>
      rw [hmodified] at hsaved
      exact .inl ⟨by simp [hmodified], hsaved.disk⟩
    | true =>
      rw [hmodified] at hsaved
      obtain ⟨warned, hwarned, hwrite⟩ := hsaved
      obtain ⟨place, hwritable, -, hafter⟩ := Run.writeText_ok hwrite
      refine .inr ⟨place, ?_, ?_⟩
      · rw [← hwarned.disk]
        exact hwritable
      · rw [hafter, ← hwarned.disk]
        simp only [hmodified, if_true]
        rfl

/-- What a visit writes at a place, given where paths lead on a disk. -/
def writtenAt? (disk : Disk) (place : Disk.Place) (visit : SourceVisit) : Option ByteArray :=
  match disk.locate visit.path with
  | .ok found => if found = place then visit.written? else none
  | .error _ => none

/-- Every file is after a visit what the visit wrote into it, or what it was. -/
theorem Visited.fileAt? (h : visit.Visited project host)
    (hkeeps : disk.KeepsDirectories visit.before.disk)
    (hlocated : ∃ place, disk.locate visit.path = .ok place) (place : Disk.Place) :
    visit.after.disk.fileAt? place =
      (visit.writtenAt? disk place).or (visit.before.disk.fileAt? place) := by
  obtain ⟨found, hfound⟩ := hlocated
  have hbefore := hkeeps.locate hfound
  unfold writtenAt?
  rw [hfound]
  rcases h.disk_after with ⟨hwritten, hdisk⟩ | ⟨goal, hwritable, hdisk⟩
  · rw [hdisk, hwritten]
    simp
  · obtain ⟨hlocate, hroot, hnode⟩ := Disk.writable_eq_ok hwritable
    have hgoal : goal = found := Except.ok.inj (hlocate.symm.trans hbefore)
    subst hgoal
    rw [hdisk]
    by_cases hplace : goal = place
    · subst hplace
      simp only [if_true]
      exact Disk.fileAt?_putContents hroot _
    · simp only [if_neg hplace, Option.none_or]
      exact (Disk.changedWithin_putContents hnode _).file (Ne.symm hplace)

theorem Visited.keepsDirectories (h : visit.Visited project host) :
    visit.before.disk.KeepsDirectories visit.after.disk := by
  rcases h.disk_after with ⟨-, hdisk⟩ | ⟨goal, hwritable, hdisk⟩
  · rw [hdisk]
    exact .refl _
  · rw [hdisk]
    exact (Disk.changedWithin_putContents (Disk.writable_eq_ok hwritable).2.2 _).keeps

end SourceVisit

def lastWritten? (disk : Disk) (place : Disk.Place) : List SourceVisit → Option ByteArray
  | [] => none
  | visit :: rest => (lastWritten? disk place rest).or (visit.writtenAt? disk place)

/-- Visits remove no directory. -/
theorem Row.keepsDirectories (h : Row project host session catalog visits final last) :
    session.disk.KeepsDirectories final.disk := by
  induction visits generalizing session catalog with
  | nil =>
    rw [h.1]
    exact .refl _
  | cons visit rest ih =>
    obtain ⟨hbefore, -, hvisited, hrest⟩ := h
    rw [← hbefore]
    exact hvisited.keepsDirectories.trans (ih hrest)

/-- Every file is after the last visit what was written into it last, or what it was. -/
theorem Row.fileAt? (h : Row project host session catalog visits final last)
    (hkeeps : disk.KeepsDirectories session.disk)
    (hlocated : ∀ visit ∈ visits, ∃ place, disk.locate visit.path = .ok place)
    (place : Disk.Place) :
    final.disk.fileAt? place =
      (lastWritten? disk place visits).or (session.disk.fileAt? place) := by
  induction visits generalizing session catalog with
  | nil =>
    rw [h.1]
    rfl
  | cons visit rest ih =>
    obtain ⟨hbefore, -, hvisited, hrest⟩ := h
    rw [← hbefore] at hkeeps ⊢
    have hvisit := hlocated visit List.mem_cons_self
    have hothers := fun later hlater ↦ hlocated later (List.mem_cons_of_mem _ hlater)
    rw [ih hrest (hkeeps.trans hvisited.keepsDirectories) hothers,
      hvisited.fileAt? hkeeps hvisit place, lastWritten?, Option.or_assoc]

/-- Every source that was scanned is named as one and denotes a place. -/
theorem locate_of_mem_scanned {files : List Path} {path : Path}
    (h : project.scanned disk = .ok files) (hmem : path ∈ files) :
    Scan.isSource path = true ∧ ∃ place, disk.locate path = .ok place := by
  unfold Project.scanned at h
  cases hrules : Project.ignoreRules disk project.root with
  | error fault =>
    rw [hrules] at h
    cases h
  | ok found =>
    rw [hrules] at h
    cases h
    have hsource := Scan.isSourceFile_of_mem_files hmem
    have hfile := hsource.isFile
    refine ⟨hsource.isSource, ?_⟩
    unfold Disk.isFile at hfile
    split at hfile
    · next contents hfind =>
      obtain ⟨place, hlocate, -⟩ := Disk.find_eq_ok_iff.1 hfind
      exact ⟨place, hlocate⟩
    · cases hfile

/-- A source and a catalog have different names. -/
theorem exists_fileName?_ne {path : Path} (h : Scan.isSource path = true)
    (directory : Path) (locale : String) :
    ∃ own name, path.fileName? = some own ∧
      (CatalogFile.pathOf directory locale).fileName? = some name ∧ own ≠ name := by
  obtain ⟨extension, hextension, hsource⟩ :
      ∃ extension, path.extension? = some extension ∧ extension ∈ Scan.extensions := by
    have hlisted := (Bool.and_eq_true_iff.1 h).2
    cases hextension : path.extension? with
    | none => simp [hextension] at hlisted
    | some extension => exact ⟨extension, rfl, by simpa [hextension] using hlisted⟩
  obtain ⟨own, hown, -⟩ := Option.bind_eq_some_iff.1 hextension
  obtain ⟨name, hname, hcatalog⟩ := CatalogFile.exists_fileName?_pathOf directory locale
  refine ⟨own, name, hown, hname, fun hsame ↦ ?_⟩
  have hequal : path.extension? = (CatalogFile.pathOf directory locale).extension? := by
    rw [Path.extension?, Path.extension?, hown, hname, hsame]
  rw [← hequal, hextension] at hcatalog
  rcases hcatalog with hnone | hjson
  · cases hnone
  · rw [Option.some.inj hjson] at hsource
    exact absurd hsource (by decide)

/-- What a file holds after the last visit: what was written into it last, or what it held before.
-/
theorem Row.contents? {files : List Path} {began ended : Session} {path : Path}
    (hwarned : session.OnlyWarned began) (hscan : project.scanned session.disk = .ok files)
    (hpaths : visits.map SourceVisit.path ⊆ files)
    (hrow : Row project host began catalog visits ended last)
    (hplace : session.disk.locate path = .ok place) :
    ended.disk.locate path = .ok place ∧ ended.disk.contents? path =
      (lastWritten? session.disk place visits).or (session.disk.contents? path) := by
  have hlocated : ∀ visit ∈ visits, ∃ place, session.disk.locate visit.path = .ok place :=
    fun visit hvisit ↦ (locate_of_mem_scanned hscan (hpaths (List.mem_map_of_mem hvisit))).2
  have hbegan : session.disk.KeepsDirectories began.disk := by
    rw [hwarned.disk]
    exact .refl _
  have hlocate := (hbegan.trans hrow.keepsDirectories).locate hplace
  refine ⟨hlocate, ?_⟩
  calc
    ended.disk.contents? path = ended.disk.fileAt? place := Disk.contents?_of_locate hlocate
    _ = (lastWritten? session.disk place visits).or (began.disk.fileAt? place) :=
      hrow.fileAt? hbegan hlocated place
    _ = (lastWritten? session.disk place visits).or (session.disk.contents? path) := by
      rw [hwarned.disk, Disk.contents?_of_locate hplace]

/-- Writing the catalog changes no source. -/
theorem contents?_write {path : Path} (host : Host) (hsource : Scan.isSource path = true)
    (hplace : session.disk.locate path = .ok place) (directory : Path) (locale : String)
    (entries : Catalog) :
    ((CatalogFile.write (CatalogFile.pathOf directory locale) entries).start host
      session).2.disk.contents? path = session.disk.contents? path := by
  obtain ⟨own, name, hown, hname, hne⟩ := exists_fileName?_ne hsource directory locale
  have hwrite := CatalogFile.changedWithin_write host session entries hname
  refine hwrite.contents? hplace ?_
  rw [Disk.locate_getLast hown hplace]
  intro hsame
  exact hne (Option.some.inj hsame)

end Phrasebook.Extraction
