import Phrasebook.Proofs.Disk.Folder
import Phrasebook.Proofs.Session.Directories

/-!
# Paths down a tree of directories

Whatever is on a disk is in a directory. A path without a step upward therefore leads through
nothing that is missing to something that is there: where it stops at a missing directory, nothing
is behind it. So directories can be added on its way without making anything appear at its end, and
whether a directory can be created is settled by the directory above it.
-/

namespace Phrasebook

namespace Path

def Piece.name? (piece : Piece) : Option String :=
  match piece.component? with
  | some (.name text) => some text
  | _ => none

def namesOf (pieces : List Piece) : List String :=
  pieces.filterMap Piece.name?

/-- No piece leads upward. -/
def Descends (pieces : List Piece) : Prop :=
  ∀ piece ∈ pieces, piece.component? ≠ some .up

theorem Descends.of_begins {front pieces : List Piece} (h : Descends pieces)
    (hbegins : front <+: pieces) : Descends front :=
  fun piece hpiece ↦ h piece (hbegins.subset hpiece)

end Path

namespace Disk

variable {disk before after : Disk} {place goal next : Place} {node : Node} {piece : Path.Piece}
variable {pieces : List Path.Piece} {parent path : Path} {contents : ByteArray}

/-- Whatever is on a disk is in a directory. -/
structure IsTree (disk : Disk) : Prop where
  parent {place : Place} {node : Node} :
    disk.nodeAt? place = some node → disk.nodeAt? place.dropLast = some .directory

/-- All that is on the way to something is a directory. -/
theorem IsTree.directory (h : disk.IsTree) {rest : List String} (hrest : rest ≠ [])
    (hnode : disk.nodeAt? (place ++ rest) = some node) : disk.nodeAt? place = some .directory := by
  induction rest using List.reverseRecOn generalizing node with
  | nil => exact absurd rfl hrest
  | append_singleton front last ih =>
    have hparent := h.parent hnode
    rw [← List.append_assoc, List.dropLast_concat] at hparent
    by_cases hfront : front = []
    · rwa [hfront, List.append_nil] at hparent
    · exact ih hfront hparent

theorem IsTree.of_forall
    (h : ∀ entry ∈ disk.nodes, disk.nodeAt? entry.1.dropLast = some .directory) : disk.IsTree := by
  refine ⟨fun {place node} hnode ↦ ?_⟩
  cases place with
  | nil => rfl
  | cons name rest =>
    have hlookup : disk.nodes.lookup (name :: rest) = some node := hnode
    obtain ⟨earlier, later, hnodes, -⟩ := List.lookup_eq_some_iff.1 hlookup
    refine h (name :: rest, node) ?_
    rw [hnodes]
    exact List.mem_append_right earlier List.mem_cons_self

/-- A piece that does not lead upward adds its name, if it has one, to the place. -/
theorem step_eq_of_ne_up (hup : piece.component? ≠ some .up)
    (h : disk.step place piece = .ok next) : next = place ++ piece.name?.toList := by
  cases hname : piece.name? with
  | some text =>
    have hpiece : piece.component? = some (.name text) := by
      unfold Path.Piece.name? at hname
      split at hname
      · next heq =>
        cases hname
        exact heq
      · cases hname
    exact step_name hpiece h
  | none =>
    rw [Option.toList_none, List.append_nil]
    unfold step at h
    rw [step_eq_ok h] at h
    unfold Path.Piece.name? at hname
    dsimp only at h
    split at h
    · next heq => exact absurd heq hup
    · next heq =>
      rw [heq] at hname
      cases hname
    · exact (Except.ok.inj h).symm

/-- A path without a step upward leads to the names in it, one below the other. -/
theorem follow_eq_of_descends (hup : Path.Descends pieces)
    (h : disk.follow place pieces = .ok goal) : goal = place ++ Path.namesOf pieces := by
  induction pieces generalizing place with
  | nil => exact (Except.ok.inj h).symm.trans (List.append_nil place).symm
  | cons piece rest ih =>
    obtain ⟨next, hstep, hrest⟩ := follow_cons_ok h
    rw [ih (fun other hother ↦ hup other (List.mem_cons_of_mem piece hother)) hrest,
      step_eq_of_ne_up (hup piece List.mem_cons_self) hstep, List.append_assoc]
    unfold Path.namesOf
    rw [List.filterMap_cons]
    cases piece.name? <;> rfl

/-- What was on a disk already before directories were added can be reached without them. -/
theorem follow_of_grown (htree : before.IsTree) (grown : Grown before after)
    (hup : Path.Descends pieces) (h : after.follow place pieces = .ok goal)
    (hnode : before.nodeAt? goal = some node) : before.follow place pieces = .ok goal := by
  induction pieces generalizing place with
  | nil => exact h
  | cons piece rest ih =>
    obtain ⟨next, hstep, hrest⟩ := follow_cons_ok h
    have hafter := step_eq_ok hstep
    have hbefore : before.nodeAt? place = some .directory := by
      have hgoal := follow_eq_of_descends hup h
      by_cases hnames : Path.namesOf (piece :: rest) = []
      · rw [hnames, List.append_nil] at hgoal
        rw [hgoal] at hnode
        rw [hnode, ← grown.kept hnode, hafter]
      · exact htree.directory hnames (hgoal ▸ hnode)
    rw [step_congr hbefore hafter] at hstep
    rw [follow, hstep]
    exact ih (fun other hother ↦ hup other (List.mem_cons_of_mem piece hother)) hrest

/-- Where a path without a step upward leads, there is a directory, or there is one above. -/
theorem directory_of_follow (hup : Path.Descends pieces) (hne : pieces ≠ [])
    (h : disk.follow place pieces = .ok goal) :
    disk.nodeAt? goal = some .directory ∨ disk.nodeAt? goal.dropLast = some .directory := by
  obtain ⟨front, last, rfl⟩ := (List.eq_nil_or_concat' pieces).resolve_left hne
  obtain ⟨middle, -, hlast⟩ := follow_append_ok h
  rw [follow_singleton] at hlast
  have hgoal := step_eq_of_ne_up (hup last (by simp)) hlast
  cases hname : last.name? with
  | none =>
    rw [hname, Option.toList_none, List.append_nil] at hgoal
    exact .inl (hgoal ▸ step_eq_ok hlast)
  | some text =>
    rw [hname, Option.toList_some] at hgoal
    rw [hgoal, List.dropLast_concat]
    exact .inr (step_eq_ok hlast)

theorem follow_of_missing (h : disk.nodeAt? place = none) (hne : pieces ≠ []) :
    disk.follow place pieces = .error .missing := by
  cases pieces with
  | nil => exact absurd rfl hne
  | cons piece rest =>
    rw [follow, step, h]
    rfl

theorem follow_of_file (h : disk.nodeAt? place = some (.file contents)) (hne : pieces ≠ []) :
    disk.follow place pieces = .error .notADirectory := by
  cases pieces with
  | nil => exact absurd rfl hne
  | cons piece rest =>
    rw [follow, step, h]
    rfl

/-- Following a path never fails because something exists. -/
theorem follow_ne_alreadyExists (place : Place) (pieces : List Path.Piece) :
    disk.follow place pieces ≠ .error .alreadyExists := by
  induction pieces generalizing place with
  | nil => exact nofun
  | cons piece rest ih =>
    rw [follow]
    cases hstep : disk.step place piece with
    | ok next => exact ih next
    | error fault =>
      rintro ⟨⟩
      unfold step at hstep
      split at hstep
      · cases hstep
      · cases hstep
      · split at hstep
        · cases hstep
        · split at hstep <;> cases hstep
        · cases hstep

/-- Where a directory was created, there is one. -/
theorem isDirectory_put (h : disk.creatable path = .ok place) :
    (disk.put place .directory).isDirectory path = true := by
  have hnone := Run.creatable_eq_ok h
  have hroot : place ≠ [] := by
    rintro rfl
    cases hnone
  have hkeeps : KeepsDirectories disk (disk.put place .directory) :=
    (Grown.put_directory hnone).keepsDirectories
  exact isDirectory_of_trimPieces (hkeeps.placeOf (placeOf_of_creatable h)) (nodeAt?_put_self hroot)

/-- What keeps a directory from being created, besides a directory that is there already, is a
file. -/
theorem exists_file_of_creatable (h : disk.creatable path = .error .alreadyExists)
    (hdirectory : disk.isDirectory path = false) :
    ∃ place contents, disk.placeOf path (Path.trimPieces path.pieces) = .ok place ∧
      disk.nodeAt? place = some (.file contents) := by
  rw [creatable_eq] at h
  cases hplace : disk.placeOf path (Path.trimPieces path.pieces) with
  | error fault =>
    rw [hplace] at h
    cases h
    unfold placeOf at hplace
    split at hplace
    · cases hplace
    · split at hplace
      · cases hplace
      · exact absurd hplace (follow_ne_alreadyExists _ _)
  | ok place =>
    rw [hplace] at h
    cases hnode : disk.nodeAt? place with
    | none =>
      rw [Except.bind, vacant, hnode] at h
      split at h
      · next heq => cases heq
      · cases h
      · cases h
      · cases h
    | some node =>
      cases node with
      | file contents => exact ⟨place, contents, rfl, hnode⟩
      | directory =>
        rw [isDirectory_of_trimPieces hplace hnode] at hdirectory
        cases hdirectory

/-- A file on the way of a path that led to something missing was not added with directories. -/
theorem isDirectory_of_grown (htree : before.IsTree) (grown : Grown before after)
    (hup : Path.Descends (Path.trimPieces path.pieces))
    (hmissing : before.creatable path = .error .missing)
    (hafter : after.creatable path = .error .alreadyExists) : after.isDirectory path = true := by
  by_contra hdirectory
  rw [Bool.not_eq_true] at hdirectory
  obtain ⟨place, contents, hplace, hnode⟩ := exists_file_of_creatable hafter hdirectory
  have hbefore := grown.file hnode
  obtain ⟨hzero, hempty, hfollow⟩ := placeOf_eq_ok_iff.1 hplace
  rw [grown.workingDirectory] at hfollow
  have hagain := placeOf_eq_ok_iff.2
    ⟨hzero, hempty, follow_of_grown htree grown hup hfollow hbefore⟩
  rw [creatable_eq, hagain, Except.bind, vacant_of_nodeAt? hbefore] at hmissing
  cases hmissing

/-! ## The directory above -/

/-- Below a directory nothing is missing that a directory could not be created for. -/
theorem bind_vacant_ne_missing (hnode : disk.nodeAt? place = some .directory)
    (hup : piece.component? ≠ some .up) :
    (disk.step place piece).bind disk.vacant ≠ .error .missing := by
  cases hstep : disk.step place piece with
  | error fault =>
    rintro ⟨⟩
    rw [step, hnode] at hstep
    dsimp only at hstep
    split at hstep
    · cases hstep
    · split at hstep <;> cases hstep
    · cases hstep
  | ok next =>
    have hnext := step_eq_of_ne_up hup hstep
    change disk.vacant next ≠ .error .missing
    cases hname : piece.name? with
    | none =>
      rw [hname, Option.toList_none, List.append_nil] at hnext
      rw [hnext, vacant_of_nodeAt? hnode]
      rintro ⟨⟩
    | some text =>
      rw [hname, Option.toList_some] at hnext
      cases hbelow : disk.nodeAt? next with
      | some node =>
        rw [vacant_of_nodeAt? hbelow]
        rintro ⟨⟩
      | none =>
        rw [vacant, hbelow, hnext, List.dropLast_concat, hnode]
        rintro ⟨⟩

/-- How a directory that is to be created depends on the one above it. -/
inductive Below (disk : Disk) (parent path : Path) : Prop
  /-- What keeps the one above it from being created keeps it from being created. -/
  | blocked {fault : Fault} (above : disk.creatable parent = .error fault)
    (here : disk.creatable path = .error fault)
  /-- The one above it has to be created first. -/
  | pending {place : Place} (above : disk.creatable parent = .ok place)
    (here : disk.creatable path = .error .missing)
  /-- Something is in the place of the one above it. -/
  | present (above : disk.creatable parent = .error .alreadyExists)
    (here : disk.creatable path ≠ .error .missing)
    (directory : ∀ place, disk.creatable path = .ok place → disk.isDirectory parent = true)

/-- The pieces of a path and of the one above it. -/
theorem exists_pieces_of_parent? (h : path.parent? = some parent) (hne : parent.text.toList ≠ []) :
    ∃ front last, Path.trimPieces path.pieces = front ++ [last] ∧
      Path.trimPieces parent.pieces = Path.trimPieces front ∧ Path.trimPieces front ≠ [] ∧
      parent.text.toList <+: path.text.toList := by
  obtain ⟨front, last, hpieces, rfl⟩ := Path.exists_of_parent? h
  have hany : Path.trimPieces front ≠ [] := by
    intro hnil
    rw [hnil] at hne
    exact hne rfl
  have hfront : front <+: Path.trimPieces path.pieces := by
    rw [hpieces]
    exact List.prefix_append front [last]
  have hbegins : Path.trimPieces front <+: path.pieces :=
    (Path.trimPieces_begins front).trans (hfront.trans (Path.trimPieces_begins path.pieces))
  obtain ⟨htext, hslash⟩ := Path.ofPieces_begins hbegins hany
  refine ⟨front, last, hpieces, ?_, hany, htext⟩
  rw [hslash.trimPieces, Path.trimPieces_trimPieces]

/-- A directory can be created as soon as the one above it is there. -/
theorem below_of_parent? (disk : Disk) (h : path.parent? = some parent)
    (hne : parent.text.toList ≠ []) (hplain : Char.ofNat 0 ∉ path.text.toList)
    (hup : Path.Descends (Path.trimPieces path.pieces)) : disk.Below parent path := by
  obtain ⟨front, last, hpieces, hparent, hany, hbegins⟩ := exists_pieces_of_parent? h hne
  obtain ⟨silent, hsilent, hnothing⟩ := trimPieces_append_silent front
  have hplain' : Char.ofNat 0 ∉ parent.text.toList := fun hmem ↦ hplain (hbegins.subset hmem)
  have hne' : path.text.toList ≠ [] := by
    intro hnil
    rw [hnil] at hbegins
    exact hne (List.prefix_nil.1 hbegins)
  have habove : disk.creatable parent =
      (disk.follow (disk.startOf path) (Path.trimPieces front)).bind disk.vacant := by
    rw [creatable_eq, placeOf_eq hplain' hne, hparent, startOf_of_begins hne hbegins]
  have hhere : disk.creatable path = ((disk.follow (disk.startOf path) (Path.trimPieces front)).bind
      fun next ↦ disk.follow next (silent ++ [last])).bind disk.vacant := by
    rw [creatable_eq, placeOf_eq hplain hne', hpieces, ← follow_append, ← List.append_assoc,
      hsilent]
  rw [hpieces] at hup
  have hfront : Path.Descends (Path.trimPieces front) :=
    hup.of_begins ((Path.trimPieces_begins front).trans (List.prefix_append front [last]))
  cases hfollow : disk.follow (disk.startOf path) (Path.trimPieces front) with
  | error fault =>
    rw [hfollow] at habove hhere
    exact .blocked habove hhere
  | ok place =>
    rw [hfollow] at habove hhere
    change disk.creatable parent = disk.vacant place at habove
    change disk.creatable path = (disk.follow place (silent ++ [last])).bind disk.vacant at hhere
    have hlast : silent ++ [last] ≠ [] := by simp
    cases hnode : disk.nodeAt? place with
    | none =>
      rw [follow_of_missing hnode hlast] at hhere
      have hdirectory := (directory_of_follow hfront hany hfollow).resolve_left (by
        rw [hnode]
        rintro ⟨⟩)
      rw [vacant, hnode, hdirectory] at habove
      exact .pending habove hhere
    | some node =>
      rw [vacant_of_nodeAt? hnode] at habove
      cases node with
      | file contents =>
        rw [follow_of_file hnode hlast] at hhere
        refine .present habove ?_ fun next hok ↦ ?_
        · rw [hhere]
          rintro ⟨⟩
        · rw [hhere] at hok
          cases hok
      | directory =>
        have hplace : disk.placeOf parent (Path.trimPieces parent.pieces) = .ok place := by
          rw [placeOf_eq hplain' hne, hparent, ← startOf_of_begins hne hbegins, hfollow]
        refine .present habove ?_ fun _ _ ↦ isDirectory_of_trimPieces hplace hnode
        rw [hhere, follow_append, follow_of_silent hnode hnothing, Except.bind, follow_singleton]
        exact bind_vacant_ne_missing hnode (hup last (by simp))

end Disk

end Phrasebook
