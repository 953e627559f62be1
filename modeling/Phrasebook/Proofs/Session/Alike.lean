import Phrasebook.Proofs.Session.Step

/-!
# Steps that do the same to the files

What a step does to the disk can depend on the disk and on the changes that were tried before, for
the host decides by them what it refuses. Two steps are alike when they answer the same and leave
the same files behind, whatever warnings were given and whatever requests were sent. Pieces that are
alike make up steps that are alike, and creating a directory and writing a text are alike to
themselves: neither looks at a warning or at a request.
-/

namespace Phrasebook

/-- Two sessions have the same disk, and the same changes of it were tried. -/
structure Session.SameFiles (first second : Session) : Prop where
  disk : first.disk = second.disk
  changes : first.changes = second.changes

theorem Session.SameFiles.refl (session : Session) : session.SameFiles session := ⟨rfl, rfl⟩

namespace Run

variable {ε δ α β : Type}

/-- From sessions with the same files, two steps give the same answer and lead to sessions with the
same files. -/
def Alike (first second : Run ε α) : Prop :=
  ∀ host left right, Session.SameFiles left right →
    (first.start host left).1 = (second.start host right).1 ∧
      (first.start host left).2.SameFiles (second.start host right).2

theorem alike_pure (value : α) : Alike (pure value : Run ε α) (pure value) :=
  fun _ _ _ hsame ↦ ⟨rfl, hsame⟩

theorem alike_throw (fault : ε) : Alike (throw fault : Run ε α) (throw fault) :=
  fun _ _ _ hsame ↦ ⟨rfl, hsame⟩

theorem alike_disk : Alike (disk : Run ε Disk) disk :=
  fun _ _ _ hsame ↦ ⟨congrArg Except.ok hsame.disk, hsame⟩

theorem alike_warn (warning other : Warning) :
    Alike (warn warning : Run ε Unit) (warn other) :=
  fun _ _ _ hsame ↦ ⟨rfl, hsame.disk, hsame.changes⟩

theorem alike_ofExcept (value : Except ε α) : Alike (ofExcept value) (ofExcept value) := by
  cases value with
  | ok result => exact alike_pure result
  | error fault => exact alike_throw fault

theorem alike_tryChange (change : Change) :
    Alike (tryChange change : Run ε (Option Refusal)) (tryChange change) := by
  intro host left right hsame
  rw [start_tryChange, start_tryChange, hsame.changes]
  exact ⟨rfl, hsame.disk, rfl⟩

theorem alike_putNode (place : Disk.Place) (node : Disk.Node) :
    Alike (putNode place node : Run ε Unit) (putNode place node) := by
  intro host left right hsame
  rw [start_putNode, start_putNode, hsame.disk]
  exact ⟨rfl, rfl, hsame.changes⟩

/-- Steps that are alike, followed by steps that are alike for every value, are alike together. -/
theorem Alike.bind {first second : Run ε α} {next other : α → Run ε β} (h : Alike first second)
    (hnext : ∀ value, Alike (next value) (other value)) :
    Alike (first >>= next) (second >>= other) := by
  intro host left right hsame
  obtain ⟨hanswer, hafter⟩ := h host left right hsame
  rw [start_bind, start_bind]
  cases hfirst : first.start host left with
  | mk answer after =>
    cases hsecond : second.start host right with
    | mk again later =>
      rw [hfirst, hsecond] at hanswer hafter
      obtain rfl : answer = again := hanswer
      cases answer with
      | ok value => exact hnext value host after later hafter
      | error fault => exact ⟨rfl, hafter⟩

theorem Alike.outcome {first second : Run ε α} (h : Alike first second) :
    Alike (first.outcome : Run δ (Except ε α)) second.outcome := by
  intro host left right hsame
  obtain ⟨hanswer, hafter⟩ := h host left right hsame
  exact ⟨congrArg Except.ok hanswer, hafter⟩

theorem Alike.adapt {first second : Run ε α} (h : Alike first second) (f : ε → δ) :
    Alike (first.adapt f) (second.adapt f) := by
  intro host left right hsame
  obtain ⟨hanswer, hafter⟩ := h host left right hsame
  rw [start_adapt, start_adapt, hanswer]
  exact ⟨rfl, hafter⟩

theorem alike_ite {condition : Bool} {yes no other another : Run ε α} (hyes : Alike yes other)
    (hno : Alike no another) :
    Alike (if condition then yes else no) (if condition then other else another) := by
  cases condition
  · exact hno
  · exact hyes

theorem alike_writeText (path : Path) (text : String) :
    Alike (writeText path text) (writeText path text) := by
  refine alike_disk.bind fun disk ↦ (alike_ofExcept _).bind fun place ↦
    (alike_tryChange _).bind fun refusal? ↦ ?_
  cases refusal? with
  | none => exact alike_putNode _ _
  | some refusal =>
    obtain ⟨kept?, fault⟩ := refusal
    cases kept? with
    | none => exact alike_throw fault
    | some kept => exact (alike_putNode _ _).bind fun _ ↦ alike_throw fault

theorem alike_createDirectory (path : Path) :
    Alike (createDirectory path) (createDirectory path) := by
  refine alike_disk.bind fun disk ↦ (alike_ofExcept _).bind fun place ↦
    (alike_tryChange _).bind fun refusal? ↦ ?_
  cases refusal? with
  | none => exact alike_putNode _ _
  | some refusal => exact alike_throw _

theorem alike_ensureDirectory (path : Path) :
    Alike (ensureDirectory path) (ensureDirectory path) := by
  refine (alike_createDirectory path).outcome.bind fun created ↦ ?_
  cases created with
  | ok _ => exact alike_pure ()
  | error fault =>
    exact alike_disk.bind fun disk ↦ alike_ite (alike_throw fault) (alike_pure ())

/-- The files of a session alone decide what creating directories comes to. -/
theorem alike_ensureDirectoriesWithin (room : Nat) (path : Path) :
    Alike (ensureDirectoriesWithin room path) (ensureDirectoriesWithin room path) := by
  induction room generalizing path with
  | zero => exact alike_ensureDirectory path
  | succ room ih =>
    rw [ensureDirectoriesWithin]
    refine alike_ite (alike_pure ()) ?_
    refine (alike_createDirectory path).outcome.bind fun created ↦ ?_
    split
    · exact alike_pure ()
    · split
      · exact (ih _).bind fun _ ↦ alike_ensureDirectory path
      · exact alike_throw _
    · exact alike_disk.bind fun disk ↦ alike_ite (alike_throw _) (alike_pure ())

theorem alike_ensureDirectories (path : Path) :
    Alike (ensureDirectories path) (ensureDirectories path) :=
  alike_ensureDirectoriesWithin _ path

end Run

end Phrasebook
