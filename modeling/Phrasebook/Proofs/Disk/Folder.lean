import Phrasebook.Proofs.Path.Parent

/-!
# The directory that a path leads to

A path is a folder of a disk when it leads to a directory there, the empty path being one for where
relative paths start. Whoever can look for something in a directory finds the directory in place,
and where a name in it leads depends on nothing else: not on what is in the directory, nor on
anything else on the disk.
-/

namespace Phrasebook.Disk

variable {disk before after : Disk} {place goal start folder : Place} {directory path : Path}
variable {node : Node} {name : String} {pieces front back : List Path.Piece} {piece : Path.Piece}

/-- Pieces of a path are followed one after the other. -/
theorem follow_append (place : Place) (front back : List Path.Piece) :
    disk.follow place (front ++ back) =
      (disk.follow place front).bind fun next ↦ disk.follow next back := by
  induction front generalizing place with
  | nil => rfl
  | cons piece rest ih =>
    rw [List.cons_append, follow, follow]
    cases disk.step place piece with
    | error fault => rfl
    | ok next => exact ih next

theorem follow_singleton (place : Place) (piece : Path.Piece) :
    disk.follow place [piece] = disk.step place piece := by
  rw [follow]
  cases disk.step place piece <;> rfl

theorem follow_append_ok (h : disk.follow place (front ++ back) = .ok goal) :
    ∃ next, disk.follow place front = .ok next ∧ disk.follow next back = .ok goal := by
  rw [follow_append] at h
  cases hfront : disk.follow place front with
  | error fault =>
    rw [hfront] at h
    cases h
  | ok next =>
    rw [hfront] at h
    exact ⟨next, rfl, h⟩

theorem trimPieces_append_silent (pieces : List Path.Piece) :
    ∃ silent, Path.trimPieces pieces ++ silent = pieces ∧
      ∀ piece ∈ silent, piece.component? = none := by
  refine ⟨pieces.rtakeWhile (·.component?.isNone), List.rdropWhile_append_rtakeWhile,
    fun piece hpiece ↦ ?_⟩
  have hsilent := List.mem_rtakeWhile_imp hpiece
  exact Option.isNone_iff_eq_none.1 hsilent

theorem follow_trimPieces (h : disk.follow place pieces = .ok goal) :
    disk.follow place (Path.trimPieces pieces) = .ok goal := by
  obtain ⟨silent, hpieces, hsilent⟩ := trimPieces_append_silent pieces
  rw [← hpieces] at h
  obtain ⟨next, hfront, hback⟩ := follow_append_ok h
  rw [hfront, follow_silent (List.filterMap_eq_nil_iff.2 hsilent) hback]

/-- Pieces that stand for nothing lead nowhere else from a directory. -/
theorem follow_of_silent (hgoal : disk.nodeAt? goal = some .directory)
    (h : ∀ piece ∈ pieces, piece.component? = none) : disk.follow goal pieces = .ok goal := by
  induction pieces with
  | nil => rfl
  | cons piece rest ih =>
    have hstep : disk.step goal piece = .ok goal := by
      simp only [step, hgoal, h piece List.mem_cons_self]
    rw [follow, hstep]
    exact ih fun other hother ↦ h other (List.mem_cons_of_mem piece hother)

theorem follow_of_trimPieces (hgoal : disk.nodeAt? goal = some .directory)
    (h : disk.follow place (Path.trimPieces pieces) = .ok goal) :
    disk.follow place pieces = .ok goal := by
  obtain ⟨silent, hpieces, hsilent⟩ := trimPieces_append_silent pieces
  rw [← hpieces, follow_append, h]
  exact follow_of_silent hgoal hsilent

def startOf (disk : Disk) (path : Path) : Place :=
  if path.isAbsolute then [] else disk.workingDirectory

theorem startOf_of_begins {parent : Path} (hne : parent.text.toList ≠ [])
    (h : parent.text.toList <+: path.text.toList) :
    disk.startOf path = disk.startOf parent := by
  obtain ⟨rest, hrest⟩ := h
  unfold startOf Path.isAbsolute
  rw [← hrest, List.head?_append_of_ne_nil _ hne]

theorem placeOf_eq (hplain : Char.ofNat 0 ∉ path.text.toList) (hne : path.text.toList ≠ [])
    (pieces : List Path.Piece) :
    disk.placeOf path pieces = disk.follow (disk.startOf path) pieces := by
  have hempty : path.text.isEmpty = false := by
    rw [Bool.eq_false_iff, ne_eq, String.isEmpty_iff, ← String.toList_eq_nil_iff]
    exact hne
  rw [placeOf, if_neg (by simpa using hplain), hempty, if_neg Bool.false_ne_true]
  rfl

def vacant (disk : Disk) (place : Place) : Except Fault Place :=
  match disk.nodeAt? place, disk.nodeAt? place.dropLast with
  | some _, _ => .error .alreadyExists
  | none, some .directory => .ok place
  | none, some (.file _) => .error .notADirectory
  | none, none => .error .missing

theorem creatable_eq (disk : Disk) (path : Path) :
    disk.creatable path = (disk.placeOf path (Path.trimPieces path.pieces)).bind disk.vacant := rfl

theorem creatable_of_mem (h : Char.ofNat 0 ∈ path.text.toList) :
    disk.creatable path = .error .zeroCharacter := by
  rw [creatable_eq, placeOf, if_pos (by simpa using h)]
  rfl

theorem placeOf_of_creatable (h : disk.creatable path = .ok place) :
    disk.placeOf path (Path.trimPieces path.pieces) = .ok place := by
  rw [creatable_eq] at h
  cases hplace : disk.placeOf path (Path.trimPieces path.pieces) with
  | error fault =>
    rw [hplace] at h
    cases h
  | ok found =>
    rw [hplace, Except.bind, vacant] at h
    split at h
    · cases h
    · rw [Except.ok.inj h]
    · cases h
    · cases h

theorem vacant_of_nodeAt? (h : disk.nodeAt? place = some node) :
    disk.vacant place = .error .alreadyExists := by
  rw [vacant, h]

theorem isDirectory_iff :
    disk.isDirectory path = true ↔
      ∃ place, disk.locate path = .ok place ∧ disk.nodeAt? place = some .directory := by
  rw [← find_eq_ok_iff]
  unfold isDirectory
  split
  · next hfind => simp [hfind]
  · next hother => simpa using hother

/-- A path without its end leads to a directory where the path does. -/
theorem isDirectory_of_trimPieces
    (hplace : disk.placeOf path (Path.trimPieces path.pieces) = .ok place)
    (hnode : disk.nodeAt? place = some .directory) : disk.isDirectory path = true := by
  obtain ⟨hzero, hempty, hfollow⟩ := placeOf_eq_ok_iff.1 hplace
  exact isDirectory_iff.2
    ⟨place, placeOf_eq_ok_iff.2 ⟨hzero, hempty, follow_of_trimPieces hnode hfollow⟩, hnode⟩

theorem creatable_of_isDirectory (h : disk.isDirectory path = true) :
    disk.creatable path = .error .alreadyExists := by
  obtain ⟨place, hlocate, hnode⟩ := isDirectory_iff.1 h
  obtain ⟨hzero, hempty, hfollow⟩ := placeOf_eq_ok_iff.1 hlocate
  have hplace := placeOf_eq_ok_iff.2 ⟨hzero, hempty, follow_trimPieces hfollow⟩
  rw [creatable_eq, hplace]
  exact vacant_of_nodeAt? hnode

/-- A path leads to a directory; the empty path stands for the one that relative paths start
from. -/
structure IsFolder (disk : Disk) (directory : Path) (folder : Place) : Prop where
  plain : Char.ofNat 0 ∉ directory.text.toList
  follow : disk.follow (disk.startOf directory) (Path.trimPieces directory.pieces) = .ok folder
  isDirectory : disk.nodeAt? folder = some .directory

namespace IsFolder

theorem keeps (h : IsFolder before directory folder) (keeps : KeepsDirectories before after) :
    IsFolder after directory folder := by
  refine ⟨h.plain, ?_, keeps.directory h.isDirectory⟩
  rw [startOf, keeps.workingDirectory]
  exact keeps.follow h.follow

/-- Where a name in a folder leads. -/
theorem locate_join (h : IsFolder disk directory folder) (hname : Path.IsName name) :
    disk.locate (directory.join ⟨name⟩) =
      if name.toList.contains (Char.ofNat 0) then .error .zeroCharacter
      else disk.step folder ⟨some (.name name), name.toList⟩ := by
  obtain ⟨before, hbefore, hpieces⟩ := Path.pieces_join_name directory hname
  have hmem : ∀ c, c ≠ '/' → (c ∈ (directory.join ⟨name⟩).text.toList ↔
      c ∈ directory.text.toList ∨ c ∈ name.toList) := fun c hc ↦
    Path.mem_join hc hname.not_isAbsolute
  have hzero : (directory.join ⟨name⟩).text.toList.contains (Char.ofNat 0) =
      name.toList.contains (Char.ofNat 0) := by
    simp only [List.contains_eq_mem, hmem _ (show Char.ofNat 0 ≠ '/' by decide), h.plain, false_or]
  have hempty : (directory.join ⟨name⟩).text.isEmpty = false := by
    rw [Bool.eq_false_iff, ne_eq, String.isEmpty_iff, ← String.toList_eq_nil_iff]
    intro hnil
    obtain ⟨c, hc⟩ := List.exists_mem_of_ne_nil _ hname.ne_empty
    have hslash : c ≠ '/' := fun hsame ↦ hname.no_slash (hsame ▸ hc)
    have hin := (hmem c hslash).2 (.inr hc)
    rw [hnil] at hin
    cases hin
  have hfollow : disk.follow (disk.startOf directory) before = .ok folder := by
    apply follow_of_trimPieces h.isDirectory
    rw [← hbefore.trimPieces]
    exact h.follow
  rw [locate, placeOf, hzero, hempty, if_neg Bool.false_ne_true, hpieces, follow_append,
    Path.isAbsolute_join hname.not_isAbsolute, ← startOf, hfollow, Except.bind, follow_singleton]

/-- A name in a folder that has a place has it right there. -/
theorem eq_of_locate_join (h : IsFolder disk directory folder) (hname : Path.IsName name)
    (hlocate : disk.locate (directory.join ⟨name⟩) = .ok place) : place = folder ++ [name] := by
  rw [h.locate_join hname] at hlocate
  split at hlocate
  · cases hlocate
  · exact step_name rfl hlocate

/-- Where a name in a folder leads does not depend on anything else than the folder. -/
theorem locate_join_congr (h : IsFolder before directory folder)
    (keeps : KeepsDirectories before after) (hname : Path.IsName name) :
    after.locate (directory.join ⟨name⟩) = before.locate (directory.join ⟨name⟩) := by
  have hafter := h.keeps keeps
  rw [h.locate_join hname, hafter.locate_join hname, step_congr h.isDirectory hafter.isDirectory]

/-- The path of a folder without its end is a directory that is there. -/
theorem isDirectory_trimmed (h : IsFolder disk directory folder)
    (hdirectory : directory.text.toList ≠ []) : disk.isDirectory directory.trimmed = true := by
  obtain ⟨hbegins, -, hne⟩ := Path.trimmed_begins hdirectory
  refine isDirectory_of_trimPieces ?_ h.isDirectory
  rw [placeOf_eq (fun hmem ↦ h.plain (hbegins.subset hmem)) hne, ← startOf_of_begins hne hbegins,
    Path.trimPieces_trimmed hdirectory]
  exact h.follow

end IsFolder

/-- A path that can be followed beyond a directory leads to a directory there. -/
theorem exists_isFolder_of_follow (hplain : Char.ofNat 0 ∉ directory.text.toList)
    (hfront : Path.UpToSlash front directory.pieces) (hne : back ≠ [])
    (h : disk.follow (disk.startOf directory) (front ++ back) = .ok goal) :
    ∃ folder, disk.IsFolder directory folder := by
  obtain ⟨folder, hfolder, hback⟩ := follow_append_ok h
  cases back with
  | nil => exact absurd rfl hne
  | cons piece rest =>
    obtain ⟨next, hstep, -⟩ := follow_cons_ok hback
    refine ⟨folder, hplain, ?_, step_eq_ok hstep⟩
    rw [hfront.trimPieces]
    exact follow_trimPieces hfolder

/-- A relative path in a directory has a place only where the directory is a folder. -/
theorem exists_isFolder_of_locate (hpath : path.isAbsolute = false)
    (h : disk.locate (directory.join path) = .ok place) :
    ∃ folder, disk.IsFolder directory folder := by
  obtain ⟨hzero, -, hfollow⟩ := placeOf_eq_ok_iff.1 h
  rw [Path.isAbsolute_join hpath, ← startOf] at hfollow
  have hplain : Char.ofNat 0 ∉ directory.text.toList := by
    rw [List.contains_eq_mem, decide_eq_false_iff_not,
      Path.mem_join (by decide) hpath, not_or] at hzero
    exact hzero.1
  by_cases hdirectory : directory.text.toList = []
  · have hpieces : directory.pieces = [Path.Piece.inner []] := by
      rw [Path.pieces_eq, hdirectory]
      rfl
    have hany : (directory.join path).pieces ≠ [] := by
      rw [Path.pieces_eq, ← List.length_pos_iff, Path.length_piecesOf, List.length_pos_iff]
      exact Text.fields_ne_nil '/' _
    have hfront : Path.UpToSlash [] directory.pieces := .inr hpieces
    exact exists_isFolder_of_follow hplain hfront hany hfollow
  · obtain ⟨front, hfront, hpieces, -⟩ := Path.pieces_join_of_relative hdirectory hpath
    rw [hpieces] at hfollow
    refine exists_isFolder_of_follow hplain hfront ?_ hfollow
    rw [ne_eq, List.map_eq_nil_iff]
    exact Text.fields_ne_nil '/' _

theorem exists_isFolder_of_isDirectory (h : disk.isDirectory directory = true) :
    ∃ folder, disk.IsFolder directory folder := by
  obtain ⟨folder, hlocate, hnode⟩ := isDirectory_iff.1 h
  obtain ⟨hzero, -, hfollow⟩ := placeOf_eq_ok_iff.1 hlocate
  rw [List.contains_eq_mem, decide_eq_false_iff_not] at hzero
  exact ⟨folder, hzero, follow_trimPieces hfollow, hnode⟩

end Phrasebook.Disk
