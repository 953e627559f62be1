import Phrasebook.Catalog.File
import Phrasebook.Proofs.Catalog.RoundTrip
import Phrasebook.Proofs.Disk.Folder
import Phrasebook.Proofs.Session.Directories

/-!
# Reading and writing a catalog file

Reading a catalog changes nothing but the warnings, so what it answers is a function of the disk.
Writing one creates directories at most and then writes one text: it changes no file other than
its own, however it ends, and when it succeeds the file holds the text of the catalog. A catalog
that is written and read again is the same catalog.
-/

namespace Phrasebook.CatalogFile

variable {host : Host} {session after : Session} {path : Path} {catalog : Catalog} {name : String}

def stored (disk : Disk) (path : Path) : Except Fault Catalog :=
  if !disk.contains path then .ok .empty
  else
    match disk.readText path with
    | .error cause => .error (.unreadable path cause)
    | .ok text =>
      match Catalog.read text with
      | .error cause => .error (.malformed path text cause)
      | .ok (catalog, _) => .ok catalog

/-- Reading a catalog leaves the session as it was but for the warnings about values passed over. -/
theorem start_read (host : Host) (session : Session) (path : Path) :
    ∃ warnings, (read path).start host session =
      (stored session.disk path, { session with warnings := warnings }) := by
  unfold read stored
  simp only [Run.start_bind, Run.start_disk]
  cases hcontains : session.disk.contains path with
  | false => exact ⟨session.warnings, rfl⟩
  | true =>
    simp only [Bool.not_true, Bool.false_eq_true, if_false]
    cases session.disk.readText path with
    | error cause => exact ⟨session.warnings, rfl⟩
    | ok text =>
      cases hread : Catalog.read text with
      | error cause => exact ⟨session.warnings, by simp [hread]⟩
      | ok result =>
        obtain ⟨catalog, passedOver⟩ := result
        refine ⟨session.warnings ++
          passedOver.map fun value ↦ .valuePassedOver value.key value.value, ?_⟩
        simp only [hread, Run.start_bind, Run.start_warnAll, Run.start_pure]

/-- Where a catalog could be read, it depends on the contents of the file only; without a file it
is empty. -/
theorem stored_congr {before later : Disk} {place : Disk.Place}
    (hlocate : before.locate path = .ok place) (keeps : Disk.KeepsDirectories before later)
    (hcontents : later.contents? path = before.contents? path)
    (h : stored later path = .ok catalog) : stored before path = .ok catalog := by
  have hlater := keeps.locate hlocate
  rw [Disk.contents?_of_locate hlocate, Disk.contents?_of_locate hlater] at hcontents
  unfold stored Disk.readText Disk.contains at h ⊢
  rw [Disk.find_of_locate hlater] at h
  rw [Disk.find_of_locate hlocate]
  unfold Disk.fileAt? at hcontents
  cases hbefore : before.nodeAt? place with
  | none =>
    rw [hbefore] at hcontents
    cases hnode : later.nodeAt? place with
    | none => simpa [hnode] using h
    | some node => cases node <;> simp_all
  | some node =>
    cases node with
    | directory => simp [keeps.directory hbefore] at h
    | file contents =>
      rw [hbefore] at hcontents
      have hnode : later.nodeAt? place = some (.file contents) := by
        cases hnode : later.nodeAt? place with
        | none => simp [hnode] at hcontents
        | some node => cases node <;> simp_all
      rw [hnode] at h
      exact h

theorem stored_of_find_eq {before later : Disk} (h : later.find path = before.find path) :
    stored later path = stored before path := by
  unfold stored Disk.readText Disk.contains
  rw [h]

/-- What is found at two paths alike is read alike. -/
theorem stored_unique {disk : Disk} {first second : Path} {other : Catalog}
    (hsame : disk.find first = disk.find second) (h : stored disk first = .ok catalog)
    (hother : stored disk second = .ok other) : catalog = other := by
  have hcontains : disk.contains first = disk.contains second := by
    unfold Disk.contains
    rw [hsame]
  have htext : disk.readText first = disk.readText second := by
    unfold Disk.readText
    rw [hsame]
  unfold stored at h hother
  rw [hcontains, htext] at h
  cases hanything : disk.contains second with
  | false =>
    rw [hanything] at h hother
    exact Except.ok.inj (h.symm.trans hother)
  | true =>
    rw [hanything, Bool.not_true, if_neg Bool.false_ne_true] at h hother
    cases hfound : disk.readText second with
    | error cause =>
      rw [hfound] at h
      cases h
    | ok text =>
      rw [hfound] at h hother
      dsimp only at h hother
      cases hread : Catalog.read text with
      | error cause =>
        rw [hread] at h
        cases h
      | ok result =>
        rw [hread] at h hother
        exact Except.ok.inj (h.symm.trans hother)

theorem contains_of_readText {disk : Disk} {text : String} (h : disk.readText path = .ok text) :
    disk.contains path = true := by
  unfold Disk.readText at h
  unfold Disk.contains
  cases hfind : disk.find path with
  | error fault =>
    rw [hfind] at h
    cases h
  | ok found => rfl

/-- Where the text of a catalog stands, the catalog is stored. -/
theorem stored_of_readText {disk : Disk} (h : disk.readText path = .ok catalog.write) :
    stored disk path = .ok catalog := by
  unfold stored
  rw [contains_of_readText h, Bool.not_true, if_neg Bool.false_ne_true, h]
  dsimp only
  rw [Catalog.read_write]

/-- Where the text of a catalog stands, the catalog is read and nothing is warned of. -/
theorem start_read_of_readText (h : session.disk.readText path = .ok catalog.write) :
    (read path).start host session = (.ok catalog, session) := by
  unfold read
  simp only [Run.start_bind, Run.start_disk, contains_of_readText h, Bool.not_true,
    Bool.false_eq_true, if_false, h, Catalog.read_write, List.map_nil, Run.start_warnAll,
    List.append_nil, Run.start_pure]

/-- What is done before the text of a catalog is written: the directories above its file are
created. -/
def makeRoom (path : Path) : Run Fault Unit :=
  match path.parent? with
  | some parent => (Run.ensureDirectories parent).adapt (.noDirectory parent)
  | none => pure ()

theorem builds_makeRoom (path : Path) : Run.Leads Session.Builds (makeRoom path) := by
  unfold makeRoom
  cases path.parent? with
  | none => exact Run.leads_pure ()
  | some parent => exact (Run.builds_ensureDirectories parent).adapt _

theorem write_eq (path : Path) (catalog : Catalog) :
    write path catalog =
      makeRoom path >>= fun _ ↦ (Run.writeText path catalog.write).adapt (.unwritable path) := by
  unfold write makeRoom
  cases path.parent? <;> rfl

/-- A catalog file is written, if at all, in a session in which directories were created. -/
theorem start_write_cases (host : Host) (session : Session) (path : Path) (catalog : Catalog) :
    ∃ built, Session.Builds session built ∧
      ((∃ fault, (write path catalog).start host session = (.error fault, built)) ∨
        (write path catalog).start host session =
          ((Run.writeText path catalog.write).adapt (.unwritable path)).start host built) := by
  have hbuilds := builds_makeRoom path host session
  rw [write_eq]
  cases hroom : (makeRoom path).start host session with
  | mk answer built =>
    rw [hroom] at hbuilds
    refine ⟨built, hbuilds, ?_⟩
    cases answer with
    | error fault => exact .inl ⟨fault, Run.start_bind_error hroom _⟩
    | ok _ => exact .inr (Run.start_bind_ok hroom _)

/-- A catalog that was written stands in its file, on a disk that gained no more than the
directories above it. -/
theorem write_ok (h : (write path catalog).start host session = (.ok (), after)) :
    ∃ built place, Session.Builds session built ∧ built.disk.writable path = .ok place ∧
      after =
        { built with
          disk := built.disk.put place (.file catalog.write.toUTF8)
          changes := built.changes ++ [Run.writeOf place catalog.write] } := by
  obtain ⟨built, hbuilds, ⟨fault, hfailed⟩ | hstart⟩ := start_write_cases host session path catalog
  · rw [hfailed] at h
    cases h
  · rw [hstart, Run.start_adapt] at h
    cases hwrite : (Run.writeText path catalog.write).start host built with
    | mk answer final =>
      rw [hwrite] at h
      cases answer with
      | error fault => cases h
      | ok _ =>
        cases h
        obtain ⟨place, hwritable, -, rfl⟩ := Run.writeText_ok hwrite
        exact ⟨built, place, hbuilds, hwritable, rfl⟩

/-- Whether a fault kept a catalog from being written. -/
def Fault.isWriteFault : Fault → Bool
  | .noDirectory _ _ => true
  | .unwritable _ _ => true
  | _ => false

/-- Writing a catalog fails with the fault of a write only. -/
theorem isWriteFault_of_write {fault : Fault}
    (h : (write path catalog).start host session = (.error fault, after)) :
    fault.isWriteFault = true := by
  rw [write_eq] at h
  cases hroom : (makeRoom path).start host session with
  | mk answer built =>
    cases answer with
    | ok _ =>
      rw [Run.start_bind_ok hroom] at h
      obtain ⟨cause, rfl⟩ := Run.exists_of_adapt_error h
      rfl
    | error cause =>
      rw [Run.start_bind_error hroom] at h
      cases h
      unfold makeRoom at hroom
      split at hroom
      · obtain ⟨reason, rfl⟩ := Run.exists_of_adapt_error hroom
        rfl
      · cases hroom

theorem isWriteFault_stored {disk : Disk} {fault : Fault} (h : stored disk path = .error fault) :
    fault.isWriteFault = false := by
  unfold stored at h
  split at h
  · cases h
  · split at h
    · cases h
      rfl
    · split at h
      · cases h
        rfl
      · cases h

/-- Writing a catalog changes no file but its own, whether or not the write is refused. -/
theorem changedWithin_write (host : Host) (session : Session) (catalog : Catalog)
    (hname : path.fileName? = some name) :
    Disk.ChangedWithin (fun place ↦ place.getLast? = some name) session.disk
      ((write path catalog).start host session).2.disk := by
  obtain ⟨built, hbuilds, ⟨fault, hfailed⟩ | hstart⟩ := start_write_cases host session path catalog
  · rw [hfailed]
    exact hbuilds.disk.changedWithin _
  · rw [hstart, Run.start_adapt]
    exact (hbuilds.disk.changedWithin _).trans
      (Run.changedWithin_writeText host built catalog.write hname)

theorem requests_write (host : Host) (session : Session) (path : Path) (catalog : Catalog) :
    ((write path catalog).start host session).2.requests = session.requests := by
  obtain ⟨built, hbuilds, ⟨fault, hfailed⟩ | hstart⟩ := start_write_cases host session path catalog
  · rw [hfailed]
    exact hbuilds.requests
  · rw [hstart, Run.start_adapt]
    exact (Run.requests_writeText host built path catalog.write).trans hbuilds.requests

/-- After a catalog was written its file holds its text. -/
theorem readText_write (h : (write path catalog).start host session = (.ok (), after)) :
    after.disk.readText path = .ok catalog.write := by
  obtain ⟨built, place, -, hwritable, rfl⟩ := write_ok h
  exact Disk.readText_put_text hwritable

/-- A catalog that is written and then read is the catalog that was written. -/
theorem write_bind_read (path : Path) (catalog : Catalog) :
    (write path catalog >>= fun _ ↦ read path) =
      (write path catalog >>= fun _ ↦ pure catalog) := by
  apply Run.ext
  intro host session
  rw [Run.start_bind, Run.start_bind]
  cases hwrite : (write path catalog).start host session with
  | mk answer after =>
    cases answer with
    | error fault => rfl
    | ok _ => exact start_read_of_readText (readText_write hwrite)

/-- A catalog is read from its text as it is, entry by entry and with nothing passed over, and so it
is from its file. A text that was read as a catalog, nested or not, and is written again is read as
the same catalog; a text that is no catalog stays none. -/
theorem roundTrip (catalog : Catalog) (path : Path) (text : String) :
    Catalog.read catalog.write = .ok (catalog, []) ∧
      (write path catalog >>= fun _ ↦ read path) = (write path catalog >>= fun _ ↦ pure catalog) ∧
      (Catalog.read text >>= fun first ↦ Catalog.read first.1.write) =
        (fun first ↦ (first.1, [])) <$> Catalog.read text := by
  refine ⟨Catalog.read_write catalog, write_bind_read path catalog, ?_⟩
  cases Catalog.read text with
  | error fault => rfl
  | ok first => exact Catalog.read_write first.1

theorem isName_of_plain {locale : String} (h : '/' ∉ locale.toList) :
    Path.IsName (locale ++ "." ++ extension) :=
  Path.IsName.withExtension h (by decide) (by decide)

theorem fileName?_pathOf (directory : Path) {locale : String} (h : '/' ∉ locale.toList) :
    (pathOf directory locale).fileName? = some (locale ++ "." ++ extension) :=
  Path.fileName?_join directory (isName_of_plain h)

/-- Catalogs at places with the same name are of the same locale. -/
theorem eq_of_getLast? {disk : Disk} {directory : Path} {locale other : String}
    {place : Disk.Place} (hplain : '/' ∉ locale.toList)
    (h : disk.locate (pathOf directory locale) = .ok place)
    (hlast : place.getLast? = some (other ++ "." ++ extension)) : other = locale := by
  rw [Disk.locate_getLast (fileName?_pathOf _ hplain) h, Option.some_inj, String.append_assoc,
    String.append_assoc] at hlast
  exact (String.append_left_inj _ |>.1 hlast).symm

theorem exists_text_pathOf (directory : Path) (locale : String) :
    ∃ stem, (pathOf directory locale).text = stem ++ "." ++ extension := by
  unfold pathOf Path.join
  split
  · exact ⟨locale, rfl⟩
  · split
    · exact ⟨directory.text ++ locale, by simp [String.append_assoc]⟩
    · exact ⟨directory.text ++ "/" ++ locale, by simp [String.append_assoc]⟩

/-- There is room for the catalogs in a directory that is there. -/
theorem start_makeRoom {directory : Path} {folder : Disk.Place} {locale : String}
    (hfolder : session.disk.IsFolder directory folder) (hplain : '/' ∉ locale.toList) :
    (makeRoom (pathOf directory locale)).start host session = (.ok (), session) := by
  unfold makeRoom
  rw [pathOf, Path.parent?_join directory (isName_of_plain hplain)]
  by_cases hdirectory : directory.text.toList = []
  · obtain ⟨text⟩ := directory
    obtain rfl : text = "" := String.toList_eq_nil_iff.1 hdirectory
    exact congrArg (Prod.map (Except.mapError _) id) Run.start_ensureDirectories_empty
  · have hpresent := hfolder.isDirectory_trimmed hdirectory
    rw [Run.start_adapt, Run.start_ensureDirectories_present
      (Disk.creatable_of_isDirectory hpresent) hpresent]
    rfl

/-- Whatever the locale, the file of a catalog has a name, and no extension but its own. -/
theorem exists_fileName?_pathOf (directory : Path) (locale : String) :
    ∃ name, (pathOf directory locale).fileName? = some name ∧
      ((pathOf directory locale).extension? = none ∨
        (pathOf directory locale).extension? = some extension) := by
  obtain ⟨stem, htext⟩ := exists_text_pathOf directory locale
  obtain ⟨front, hname⟩ := Path.exists_fileName? htext (by decide) (by decide)
  exact ⟨_, hname, Path.extension?_of_fileName? hname (by decide)⟩

end Phrasebook.CatalogFile
