import Phrasebook.Proofs.Disk.Tree

/-!
# How deep directories are created

When the directories of a path without a step upward are created, nothing is added that is deeper
than the path leads, whatever the host refuses, and a tree of directories stays one. So nothing
appears below the directory that is to be created.
-/

namespace Phrasebook

variable {host : Host} {session : Session} {path parent : Path} {before middle after disk : Disk}
variable {place : Disk.Place}

namespace Run

/-- The number of names on the way to where a path without a step upward leads. -/
def depth (disk : Disk) (path : Path) : Nat :=
  (disk.startOf path).length + (Path.namesOf (Path.trimPieces path.pieces)).length

theorem length_eq_depth (hup : Path.Descends (Path.trimPieces path.pieces))
    (h : disk.creatable path = .ok place) : place.length = depth disk path := by
  obtain ⟨-, -, hfollow⟩ := Disk.placeOf_eq_ok_iff.1 (Disk.placeOf_of_creatable h)
  rw [Disk.follow_eq_of_descends hup hfollow, List.length_append]
  rfl

theorem depth_le (hparent : path.parent? = some parent) (hne : parent.text.toList ≠ [])
    (disk : Disk) : depth disk parent ≤ depth disk path := by
  obtain ⟨front, last, hpieces, habove, -, hbegins⟩ := Disk.exists_pieces_of_parent? hparent hne
  have hfront : Path.trimPieces front <+: Path.trimPieces path.pieces := by
    rw [hpieces]
    exact (Path.trimPieces_begins front).trans (List.prefix_append front [last])
  unfold depth
  rw [Disk.startOf_of_begins hne hbegins, habove]
  exact Nat.add_le_add_left (hfront.filterMap _).length_le _

theorem depth_trimmed (hpath : path.text.toList ≠ []) (disk : Disk) :
    depth disk path.trimmed = depth disk path := by
  obtain ⟨hbegins, -, hne⟩ := Path.trimmed_begins hpath
  rw [depth, depth, ← Disk.startOf_of_begins hne hbegins, Path.trimPieces_trimmed hpath]

theorem descends_parent (hparent : path.parent? = some parent)
    (hup : Path.Descends (Path.trimPieces path.pieces)) :
    Path.Descends (Path.trimPieces parent.pieces) := by
  by_cases hne : parent.text.toList = []
  · rw [Path.pieces_eq, hne]
    exact nofun
  · obtain ⟨front, last, hpieces, habove, -, -⟩ := Disk.exists_pieces_of_parent? hparent hne
    rw [hpieces] at hup
    rw [habove]
    exact hup.of_begins ((Path.trimPieces_begins front).trans (List.prefix_append front [last]))

end Run

namespace Disk

/-- A directory that is created below another one leaves a tree. -/
theorem IsTree.put_directory (htree : disk.IsTree) (h : disk.creatable path = .ok place) :
    (disk.put place .directory).IsTree := by
  have hnone := Run.creatable_eq_ok h
  have hroot : place ≠ [] := by
    rintro rfl
    cases hnone
  have habove : disk.nodeAt? place.dropLast = some .directory := by
    rw [creatable_eq, placeOf_of_creatable h] at h
    change disk.vacant place = .ok place at h
    unfold vacant at h
    split at h
    · cases h
    · assumption
    · cases h
    · cases h
  have hgrown : Grown disk (disk.put place .directory) := .put_directory hnone
  refine ⟨fun {other node} hnode ↦ ?_⟩
  by_cases hsame : other = place
  · rw [hsame]
    exact hgrown.kept habove
  · rw [nodeAt?_put_of_ne hsame] at hnode
    exact hgrown.kept (htree.parent hnode)

/-- Directories were added, none of them deeper than a path leads. -/
structure GrownTo (path : Path) (before after : Disk) : Prop extends Grown before after where
  tree : before.IsTree → after.IsTree
  low {place : Place} : after.nodeAt? place ≠ before.nodeAt? place →
    place.length ≤ Run.depth before path

namespace GrownTo

theorem refl (path : Path) (disk : Disk) : GrownTo path disk disk :=
  ⟨.refl disk, id, fun hne ↦ absurd rfl hne⟩

theorem depth_eq (h : GrownTo path before after) (other : Path) :
    Run.depth after other = Run.depth before other := by
  unfold Run.depth startOf
  rw [h.workingDirectory]

theorem trans (first : GrownTo path before middle) (second : GrownTo path middle after) :
    GrownTo path before after := by
  refine ⟨first.toGrown.trans second.toGrown, fun htree ↦ second.tree (first.tree htree), ?_⟩
  intro place hne
  by_cases hsame : after.nodeAt? place = middle.nodeAt? place
  · exact first.low (hsame ▸ hne)
  · rw [← first.depth_eq path]
    exact second.low hsame

theorem of_depth_le {other : Path} (h : GrownTo other before after)
    (hle : Run.depth before other ≤ Run.depth before path) : GrownTo path before after :=
  ⟨h.toGrown, h.tree, fun hne ↦ (h.low hne).trans hle⟩

theorem put_directory (hup : Path.Descends (Path.trimPieces path.pieces))
    (h : disk.creatable path = .ok place) : GrownTo path disk (disk.put place .directory) := by
  refine ⟨.put_directory (Run.creatable_eq_ok h), fun htree ↦ htree.put_directory h, ?_⟩
  intro other hne
  by_cases hsame : other = place
  · rw [hsame, Run.length_eq_depth hup h]
  · exact absurd (nodeAt?_put_of_ne hsame) hne

end GrownTo

end Disk

/-- Between two sessions the disk grew by directories no deeper than a path leads. -/
def Session.GrownTo (path : Path) (before after : Session) : Prop :=
  before.disk.GrownTo path after.disk

instance (path : Path) : IsPreorder Session (Session.GrownTo path) where
  refl session := Disk.GrownTo.refl path session.disk
  trans _ _ _ := Disk.GrownTo.trans

namespace Run

/-- Creating the directory at a path that does not lead upward makes the disk grow only there. -/
theorem grownTo_createDirectory (hup : Path.Descends (Path.trimPieces path.pieces)) :
    Leads (Session.GrownTo path) (createDirectory path) := by
  intro host session
  cases hplace : session.disk.creatable path with
  | error fault =>
    simp only [createDirectory, start_bind, start_disk, start_ofExcept, hplace]
    exact .refl path session.disk
  | ok place =>
    simp only [createDirectory, start_bind, start_disk, start_ofExcept, hplace, start_tryChange]
    cases host.refusal? session.changes (.create place) with
    | some refusal => exact .refl path session.disk
    | none => exact .put_directory hup hplace

theorem grownTo_ensureDirectory (hup : Path.Descends (Path.trimPieces path.pieces)) :
    Leads (Session.GrownTo path) (ensureDirectory path) := by
  apply (grownTo_createDirectory hup).outcome.bind
  intro created
  cases created with
  | ok _ => exact leads_pure ()
  | error fault => exact leads_disk.bind fun disk ↦ leads_ite (leads_throw fault) (leads_pure ())

/-- The empty path has no directory that could be created. -/
theorem grownTo_ensureDirectoriesWithin_empty (room : Nat) (path : Path) :
    Leads (Session.GrownTo path) (ensureDirectoriesWithin room ⟨""⟩) := by
  cases room with
  | succ room => exact leads_pure ()
  | zero =>
    intro host session
    have hcreate : (createDirectory ⟨""⟩).start host session = (.error .missing, session) := rfl
    simp only [ensureDirectoriesWithin, ensureDirectory, start_bind, start_outcome, hcreate,
      start_disk]
    exact leads_ite (leads_throw _) (leads_pure ()) host session

/-- Creating the directories above a path and the one at it makes the disk grow only on the way to
it. -/
theorem grownTo_ensureDirectoriesWithin (room : Nat)
    (hup : Path.Descends (Path.trimPieces path.pieces)) :
    Leads (Session.GrownTo path) (ensureDirectoriesWithin room path) := by
  induction room generalizing path with
  | zero => exact grownTo_ensureDirectory hup
  | succ room ih =>
    rw [ensureDirectoriesWithin]
    refine leads_ite (leads_pure ()) ?_
    apply (grownTo_createDirectory hup).outcome.bind
    intro created
    split
    · exact leads_pure ()
    · split
      · next parent hparent =>
        refine Leads.bind ?_ fun _ ↦ grownTo_ensureDirectory hup
        by_cases hne : parent.text.toList = []
        · obtain ⟨text⟩ := parent
          obtain rfl : text = "" := String.toList_eq_nil_iff.1 hne
          exact grownTo_ensureDirectoriesWithin_empty room path
        · intro host session
          have hparent' := ih (descends_parent hparent hup) host session
          exact hparent'.of_depth_le (depth_le hparent hne session.disk)
      · exact leads_throw _
    · exact leads_disk.bind fun disk ↦ leads_ite (leads_throw _) (leads_pure ())

theorem grownTo_ensureDirectories (hup : Path.Descends (Path.trimPieces path.pieces)) :
    Leads (Session.GrownTo path) (ensureDirectories path) :=
  grownTo_ensureDirectoriesWithin _ hup

end Run

end Phrasebook
