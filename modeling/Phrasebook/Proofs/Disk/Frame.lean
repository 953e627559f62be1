import Phrasebook.Disk

/-!
# What a change of the disk leaves alone

Putting a node at a place changes what is at that place and nothing else. Since paths are followed
through directories only, a change that keeps every directory keeps the place of every path that
could be followed, and with it everything that is found there, other than at the changed place. The
last section says this of a sequence of changes: outside of a region of places every file stays as
it was.
-/

namespace Phrasebook.Disk

theorem lookup_putNode_self (place : Place) (node : Node) (nodes : List (Place × Node)) :
    (putNode place node nodes).lookup place = some node := by
  induction nodes with
  | nil => simp [putNode]
  | cons entry rest ih =>
    by_cases h : entry.1 = place
    · simp [putNode, h]
    · rw [putNode, if_neg h, List.lookup_cons, ih]
      have hne : (place == entry.1) = false := beq_eq_false_iff_ne.2 fun e ↦ h e.symm
      rw [hne]

theorem lookup_putNode_of_ne {place other : Place} (h : other ≠ place) (node : Node)
    (nodes : List (Place × Node)) :
    (putNode place node nodes).lookup other = nodes.lookup other := by
  induction nodes with
  | nil =>
    have hne : (other == place) = false := beq_eq_false_iff_ne.2 h
    simp [putNode, List.lookup_cons, hne]
  | cons entry rest ih =>
    by_cases he : entry.1 = place
    · have hne : (other == place) = false := beq_eq_false_iff_ne.2 h
      have hne' : (other == entry.1) = false := by rw [he]; exact hne
      rw [putNode, if_pos he, List.lookup_cons, List.lookup_cons, hne, hne']
    · rw [putNode, if_neg he, List.lookup_cons, List.lookup_cons, ih]

variable {disk before after : Disk} {place other : Place} {node : Node} {path : Path}

@[simp] theorem nodeAt?_root (disk : Disk) : disk.nodeAt? [] = some .directory := rfl

theorem nodeAt?_put_self (h : place ≠ []) : (disk.put place node).nodeAt? place = some node := by
  have hempty : place.isEmpty = false := by simpa using h
  simp [nodeAt?, put, hempty, lookup_putNode_self]

theorem nodeAt?_put_of_ne (h : other ≠ place) :
    (disk.put place node).nodeAt? other = disk.nodeAt? other := by
  simp [nodeAt?, put, lookup_putNode_of_ne h]

/-! ## Directories that stay -/

/-- Every directory of one disk is a directory of the other, and relative paths start from the
same one. -/
structure KeepsDirectories (before after : Disk) : Prop where
  workingDirectory : after.workingDirectory = before.workingDirectory
  directory {place : Place} :
    before.nodeAt? place = some .directory → after.nodeAt? place = some .directory

theorem KeepsDirectories.refl (disk : Disk) : KeepsDirectories disk disk := ⟨rfl, id⟩

theorem KeepsDirectories.trans {middle : Disk} (first : KeepsDirectories before middle)
    (second : KeepsDirectories middle after) : KeepsDirectories before after :=
  ⟨second.workingDirectory.trans first.workingDirectory, fun h ↦ second.directory (first.directory h)⟩

theorem keepsDirectories_put (h : disk.nodeAt? place ≠ some .directory) :
    KeepsDirectories disk (disk.put place node) := by
  refine ⟨rfl, fun {other} hother ↦ ?_⟩
  rw [nodeAt?_put_of_ne]
  · exact hother
  · rintro rfl
    exact h hother

theorem step_eq_ok {piece : Path.Piece} {next : Place} (h : disk.step place piece = .ok next) :
    disk.nodeAt? place = some .directory := by
  unfold step at h
  split at h
  · cases h
  · cases h
  · assumption

/-- The place after a step depends on the disk only through the directory that is left. -/
theorem step_congr {piece : Path.Piece} (hbefore : before.nodeAt? place = some .directory)
    (hafter : after.nodeAt? place = some .directory) :
    after.step place piece = before.step place piece := by
  simp only [step, hbefore, hafter]

/-- What could be followed can still be followed, to the same place, while all directories stay. -/
theorem KeepsDirectories.follow (keeps : KeepsDirectories before after) {pieces : List Path.Piece}
    {goal : Place} (h : before.follow place pieces = .ok goal) :
    after.follow place pieces = .ok goal := by
  induction pieces generalizing place with
  | nil => exact h
  | cons piece rest ih =>
    cases hstep : before.step place piece with
    | error fault => simp [Disk.follow, hstep, Except.bind] at h
    | ok next =>
      have hdirectory := step_eq_ok hstep
      have hafter : after.step place piece = .ok next := by
        rw [step_congr hdirectory (keeps.directory hdirectory), hstep]
      simp only [Disk.follow, hstep, hafter, Except.bind] at h ⊢
      exact ih h

theorem placeOf_eq_ok_iff {pieces : List Path.Piece} :
    disk.placeOf path pieces = .ok place ↔
      path.text.toList.contains (Char.ofNat 0) = false ∧ path.text.isEmpty = false ∧
        disk.follow (if path.isAbsolute then [] else disk.workingDirectory) pieces = .ok place := by
  unfold placeOf
  cases path.text.toList.contains (Char.ofNat 0) <;> cases path.text.isEmpty <;> simp

theorem KeepsDirectories.placeOf (keeps : KeepsDirectories before after)
    {pieces : List Path.Piece} (h : before.placeOf path pieces = .ok place) :
    after.placeOf path pieces = .ok place := by
  obtain ⟨hzero, hempty, hfollow⟩ := placeOf_eq_ok_iff.1 h
  refine placeOf_eq_ok_iff.2 ⟨hzero, hempty, ?_⟩
  rw [keeps.workingDirectory]
  exact keeps.follow hfollow

theorem KeepsDirectories.locate (keeps : KeepsDirectories before after)
    (h : before.locate path = .ok place) : after.locate path = .ok place :=
  keeps.placeOf h

/-- What is found at a path is the node at the place that the path denotes. -/
theorem find_eq_ok_iff :
    disk.find path = .ok node ↔
      ∃ place, disk.locate path = .ok place ∧ disk.nodeAt? place = some node := by
  unfold find
  cases hlocate : disk.locate path with
  | error fault => simp [Except.bind]
  | ok place =>
    cases hnode : disk.nodeAt? place with
    | none => simp [Except.bind, hnode]
    | some found => simp [Except.bind, hnode]

/-- What is found at the place of a path. -/
theorem find_of_locate (h : disk.locate path = .ok place) :
    disk.find path =
      match disk.nodeAt? place with
      | some node => .ok node
      | none => .error .missing := by
  rw [find, h]
  rfl

theorem find_of_isFile (h : disk.isFile path = true) :
    ∃ contents, disk.find path = .ok (.file contents) := by
  unfold isFile at h
  split at h
  · next contents hfind => exact ⟨contents, hfind⟩
  · cases h

theorem isFile_of_readText {text : String} (h : disk.readText path = .ok text) :
    disk.isFile path = true := by
  unfold readText at h
  unfold isFile
  split at h
  · cases h
  · cases h
  · next hfind => rw [hfind]

/-- A file can only be written where no directory is, and not at the root. -/
theorem writable_eq_ok (h : disk.writable path = .ok place) :
    disk.locate path = .ok place ∧ place ≠ [] ∧ disk.nodeAt? place ≠ some .directory := by
  unfold writable at h
  cases hlocate : disk.locate path with
  | error fault => simp [hlocate, Except.bind] at h
  | ok found =>
    simp only [hlocate, Except.bind] at h
    have hsame : found = place ∧ disk.nodeAt? found ≠ some .directory := by
      split at h <;> simp_all
    obtain ⟨rfl, hnode⟩ := hsame
    refine ⟨rfl, ?_, hnode⟩
    rintro rfl
    exact hnode (nodeAt?_root disk)

theorem find_put_file {contents : ByteArray} (h : disk.writable path = .ok place) :
    (disk.put place (.file contents)).find path = .ok (.file contents) := by
  obtain ⟨hlocate, hroot, hnode⟩ := writable_eq_ok h
  exact find_eq_ok_iff.2
    ⟨place, (keepsDirectories_put hnode).locate hlocate, nodeAt?_put_self hroot⟩

theorem readText_put_text {text : String} (h : disk.writable path = .ok place) :
    (disk.put place (.file text.toUTF8)).readText path = .ok text := by
  have hutf8 : String.fromUTF8? text.toUTF8 = some text := dif_pos text.isValidUTF8
  simp only [readText, find_put_file h, hutf8]

/-- A file that can be read can be written as well. -/
theorem writable_of_readText {text : String} (h : disk.readText path = .ok text) :
    ∃ place, disk.writable path = .ok place := by
  unfold readText at h
  split at h
  · cases h
  · cases h
  · next contents hfind =>
    obtain ⟨place, hlocate, hnode⟩ := find_eq_ok_iff.1 hfind
    refine ⟨place, ?_⟩
    unfold writable
    simp only [hlocate, Except.bind, hnode]

def fileAt? (disk : Disk) (place : Place) : Option ByteArray :=
  match disk.nodeAt? place with
  | some (.file contents) => some contents
  | _ => none

theorem fileAt?_eq_some_iff {contents : ByteArray} :
    disk.fileAt? place = some contents ↔ disk.nodeAt? place = some (.file contents) := by
  unfold fileAt?
  cases disk.nodeAt? place with
  | none => simp
  | some node => cases node <;> simp

def contents? (disk : Disk) (path : Path) : Option ByteArray :=
  match disk.find path with
  | .ok (.file contents) => some contents
  | _ => none

theorem contents?_of_locate (h : disk.locate path = .ok place) :
    disk.contents? path = disk.fileAt? place := by
  unfold contents? fileAt?
  rw [find_of_locate h]
  cases disk.nodeAt? place with
  | none => rfl
  | some node => cases node <;> rfl

/-- Besides directories that were added, all that changed are files in a region of places. -/
structure ChangedWithin (region : Place → Prop) (before after : Disk) : Prop where
  keeps : KeepsDirectories before after
  file {place : Place} : ¬ region place → after.fileAt? place = before.fileAt? place

namespace ChangedWithin

variable {region wider : Place → Prop} {middle : Disk}

theorem refl (region : Place → Prop) (disk : Disk) : ChangedWithin region disk disk :=
  ⟨.refl disk, fun _ ↦ rfl⟩

theorem trans (first : ChangedWithin region before middle)
    (second : ChangedWithin region middle after) : ChangedWithin region before after :=
  ⟨first.keeps.trans second.keeps, fun h ↦ (second.file h).trans (first.file h)⟩

theorem mono (changed : ChangedWithin region before after)
    (h : ∀ place, region place → wider place) : ChangedWithin wider before after :=
  ⟨changed.keeps, fun {place} hplace ↦ changed.file fun hregion ↦ hplace (h place hregion)⟩

/-- A path that could be followed to a place outside of the region has the same contents. -/
theorem contents? (changed : ChangedWithin region before after)
    (hlocate : before.locate path = .ok place) (hplace : ¬ region place) :
    after.contents? path = before.contents? path := by
  rw [contents?_of_locate hlocate, contents?_of_locate (changed.keeps.locate hlocate),
    changed.file hplace]

end ChangedWithin

theorem changedWithin_put (h : disk.nodeAt? place ≠ some .directory) :
    ChangedWithin (· = place) disk (disk.put place node) := by
  refine ⟨keepsDirectories_put h, fun {other} hother ↦ ?_⟩
  unfold fileAt?
  rw [nodeAt?_put_of_ne hother]

def putContents (disk : Disk) (place : Place) : Option ByteArray → Disk
  | some contents => disk.put place (.file contents)
  | none => disk

theorem changedWithin_putContents (h : disk.nodeAt? place ≠ some .directory)
    (contents? : Option ByteArray) :
    ChangedWithin (· = place) disk (disk.putContents place contents?) := by
  cases contents? with
  | none => exact .refl _ disk
  | some contents => exact changedWithin_put h

theorem fileAt?_putContents (h : place ≠ []) (contents? : Option ByteArray) :
    (disk.putContents place contents?).fileAt? place = contents?.or (disk.fileAt? place) := by
  cases contents? with
  | none => rfl
  | some contents =>
    unfold fileAt? putContents
    rw [nodeAt?_put_self h]
    rfl

/-- All that changed are files in a region of places: no directory was added either. -/
structure WrittenWithin (region : Place → Prop) (before after : Disk) : Prop extends
    ChangedWithin region before after where
  kept : KeepsDirectories after before

namespace WrittenWithin

variable {region wider : Place → Prop} {middle : Disk}

theorem refl (region : Place → Prop) (disk : Disk) : WrittenWithin region disk disk :=
  ⟨.refl region disk, .refl disk⟩

theorem trans (first : WrittenWithin region before middle)
    (second : WrittenWithin region middle after) : WrittenWithin region before after :=
  ⟨first.toChangedWithin.trans second.toChangedWithin, second.kept.trans first.kept⟩

theorem mono (written : WrittenWithin region before after)
    (h : ∀ place, region place → wider place) : WrittenWithin wider before after :=
  ⟨written.toChangedWithin.mono h, written.kept⟩

theorem nodeAt? (written : WrittenWithin region before after) (hplace : ¬ region place) :
    after.nodeAt? place = before.nodeAt? place := by
  apply Option.ext
  intro node
  cases node with
  | directory => exact ⟨written.kept.directory, written.keeps.directory⟩
  | file contents => rw [← fileAt?_eq_some_iff, ← fileAt?_eq_some_iff, written.file hplace]

/-- A path that does not lead into the region leads to what it led to, if it leads anywhere. -/
theorem find (written : WrittenWithin region before after)
    (hplace : ∀ place, before.locate path = .ok place → ¬ region place) :
    after.find path = before.find path ∨
      ∃ first second, before.locate path = .error first ∧ after.locate path = .error second := by
  cases hbefore : before.locate path with
  | ok place =>
    left
    rw [find_of_locate hbefore, find_of_locate (written.keeps.locate hbefore),
      written.nodeAt? (hplace place hbefore)]
  | error first =>
    cases hafter : after.locate path with
    | ok place =>
      rw [written.kept.locate hafter] at hbefore
      cases hbefore
    | error second => exact .inr ⟨first, second, rfl, rfl⟩

end WrittenWithin

/-- Contents put where no directory is change that one file. -/
theorem writtenWithin_putContents (h : disk.nodeAt? place ≠ some .directory)
    (contents? : Option ByteArray) :
    WrittenWithin (· = place) disk (disk.putContents place contents?) := by
  refine ⟨changedWithin_putContents h contents?, ?_⟩
  cases contents? with
  | none => exact .refl disk
  | some contents =>
    refine ⟨rfl, fun {other} hother ↦ ?_⟩
    change (disk.put place (.file contents)).nodeAt? other = some .directory at hother
    have hroot : place ≠ [] := by
      rintro rfl
      exact h (nodeAt?_root disk)
    have hne : other ≠ place := by
      rintro rfl
      rw [nodeAt?_put_self hroot] at hother
      cases hother
    rwa [nodeAt?_put_of_ne hne] at hother

end Phrasebook.Disk
