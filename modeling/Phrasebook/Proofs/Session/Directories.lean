import Phrasebook.Proofs.Disk.Frame
import Phrasebook.Proofs.Session.Step

/-!
# Creating directories

Before a catalog is written the directories above it are created. Whatever becomes of that, also
when it is refused half way, directories are all that it adds to a disk: everything that was there
stays, and no file appears. Where the directory is there already nothing is tried at all.
-/

namespace Phrasebook

/-- One disk has everything that another one has, and besides it only directories. -/
structure Disk.Grown (before after : Disk) : Prop where
  workingDirectory : after.workingDirectory = before.workingDirectory
  kept {place : Disk.Place} {node : Disk.Node} :
    before.nodeAt? place = some node → after.nodeAt? place = some node
  file {place : Disk.Place} {contents : ByteArray} :
    after.nodeAt? place = some (.file contents) → before.nodeAt? place = some (.file contents)

namespace Disk.Grown

variable {before middle after : Disk}

theorem refl (disk : Disk) : Grown disk disk := ⟨rfl, id, id⟩

theorem trans (first : Grown before middle) (second : Grown middle after) : Grown before after :=
  ⟨second.workingDirectory.trans first.workingDirectory, fun h ↦ second.kept (first.kept h),
    fun h ↦ first.file (second.file h)⟩

theorem keepsDirectories (grown : Grown before after) : KeepsDirectories before after :=
  ⟨grown.workingDirectory, grown.kept⟩

/-- Directories that were added change no file. -/
theorem fileAt? (grown : Grown before after) (place : Place) :
    after.fileAt? place = before.fileAt? place := by
  unfold Disk.fileAt?
  cases hbefore : before.nodeAt? place with
  | some node => rw [grown.kept hbefore]
  | none =>
    cases hafter : after.nodeAt? place with
    | none => rfl
    | some node =>
      cases node with
      | directory => rfl
      | file contents => rw [grown.file hafter] at hbefore; cases hbefore

/-- A disk that grows keeps every file, wherever it is. -/
theorem changedWithin (grown : Grown before after) (region : Place → Prop) :
    ChangedWithin region before after :=
  ⟨grown.keepsDirectories, fun {place} _ ↦ grown.fileAt? place⟩

theorem put_directory {disk : Disk} {place : Place} (h : disk.nodeAt? place = none) :
    Grown disk (disk.put place .directory) := by
  have hroot : place ≠ [] := by
    rintro rfl
    cases h
  refine ⟨rfl, fun {other node} hother ↦ ?_, fun {other contents} hother ↦ ?_⟩
  · rw [nodeAt?_put_of_ne]
    · exact hother
    · rintro rfl
      rw [h] at hother
      cases hother
  · by_cases he : other = place
    · subst he
      rw [nodeAt?_put_self hroot] at hother
      cases hother
    · rwa [nodeAt?_put_of_ne he] at hother

end Disk.Grown

/-- All that happened between two sessions is that directories were created. -/
structure Session.Builds (before after : Session) : Prop where
  disk : Disk.Grown before.disk after.disk
  warnings : after.warnings = before.warnings
  requests : after.requests = before.requests
  changes : ∃ places : List Disk.Place, after.changes = before.changes ++ places.map .create

namespace Session.Builds

variable {before middle after : Session}

theorem refl (session : Session) : Builds session session :=
  ⟨.refl _, rfl, rfl, [], by simp⟩

theorem trans (first : Builds before middle) (second : Builds middle after) :
    Builds before after := by
  obtain ⟨earlier, hearlier⟩ := first.changes
  obtain ⟨later, hlater⟩ := second.changes
  refine ⟨first.disk.trans second.disk, second.warnings.trans first.warnings,
    second.requests.trans first.requests, earlier ++ later, ?_⟩
  rw [hlater, hearlier, List.map_append, List.append_assoc]

end Session.Builds

instance : IsPreorder Session Session.Builds where
  refl := .refl
  trans _ _ _ := .trans

namespace Run

theorem creatable_eq_ok {disk : Disk} {path : Path} {place : Disk.Place}
    (h : disk.creatable path = .ok place) : disk.nodeAt? place = none := by
  unfold Disk.creatable at h
  cases hplace : disk.placeOf path (Path.trimPieces path.pieces) with
  | error fault => simp [hplace, Except.bind] at h
  | ok found =>
    simp only [hplace, Except.bind] at h
    split at h <;> simp_all

/-- Creating a directory adds it to the disk or leaves the disk as it is. -/
theorem builds_createDirectory (path : Path) : Leads Session.Builds (createDirectory path) := by
  intro host session
  cases hplace : session.disk.creatable path with
  | error fault =>
    simp only [createDirectory, start_bind, start_disk, start_ofExcept, hplace]
    exact .refl session
  | ok place =>
    simp only [createDirectory, start_bind, start_disk, start_ofExcept, hplace, start_tryChange]
    cases host.refusal? session.changes (.create place) with
    | some refusal => exact ⟨.refl _, rfl, rfl, [place], rfl⟩
    | none => exact ⟨.put_directory (creatable_eq_ok hplace), rfl, rfl, [place], rfl⟩

theorem builds_ensureDirectory (path : Path) : Leads Session.Builds (ensureDirectory path) := by
  apply (builds_createDirectory path).outcome.bind
  intro created
  cases created with
  | ok _ => exact leads_pure ()
  | error fault =>
    exact leads_disk.bind fun disk ↦ leads_ite (leads_throw fault) (leads_pure ())

/-- Creating a directory and those above it changes the disk by directories at most. -/
theorem builds_ensureDirectoriesWithin (room : Nat) (path : Path) :
    Leads Session.Builds (ensureDirectoriesWithin room path) := by
  induction room generalizing path with
  | zero => exact builds_ensureDirectory path
  | succ room ih =>
    rw [ensureDirectoriesWithin]
    refine leads_ite (leads_pure ()) ?_
    apply (builds_createDirectory path).outcome.bind
    intro created
    split
    · exact leads_pure ()
    · split
      · exact (ih _).bind fun _ ↦ builds_ensureDirectory path
      · exact leads_throw _
    · exact leads_disk.bind fun disk ↦ leads_ite (leads_throw _) (leads_pure ())

theorem builds_ensureDirectories (path : Path) : Leads Session.Builds (ensureDirectories path) :=
  builds_ensureDirectoriesWithin _ path

variable {host : Host} {session : Session} {path : Path}

/-- The empty path stands for the directory that relative paths start from. -/
theorem start_ensureDirectories_empty :
    (ensureDirectories ⟨""⟩).start host session = (.ok (), session) := rfl

theorem start_ensureDirectory_present
    (hcreate : (createDirectory path).start host session = (.error .alreadyExists, session))
    (hpresent : session.disk.isDirectory path = true) :
    (ensureDirectory path).start host session = (.ok (), session) := by
  simp only [ensureDirectory, start_bind, start_outcome, hcreate, start_disk, hpresent,
    Bool.not_true, Bool.false_eq_true, if_false, start_pure]

/-- Where the directory is there already, nothing is tried. -/
theorem start_ensureDirectories_present
    (hcreatable : session.disk.creatable path = .error .alreadyExists)
    (hpresent : session.disk.isDirectory path = true) :
    (ensureDirectories path).start host session = (.ok (), session) := by
  have hcreate : (createDirectory path).start host session = (.error .alreadyExists, session) := by
    simp only [createDirectory, start_bind, start_disk, start_ofExcept, hcreatable]
  unfold ensureDirectories
  cases path.pieces.length with
  | zero => exact start_ensureDirectory_present hcreate hpresent
  | succ room =>
    rw [ensureDirectoriesWithin]
    cases path.text.isEmpty with
    | true => exact start_pure host session ()
    | false =>
      simp only [start_bind, start_outcome, hcreate, start_disk, hpresent, Bool.not_true,
        Bool.false_eq_true, if_false, start_pure]

end Run

end Phrasebook
