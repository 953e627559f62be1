import Phrasebook.Proofs.Disk.Tree

/-!
# Steps on a steady host

A host is steady when what it refuses depends on the change alone, and not on the changes that were
tried before. On a steady host a step is a function of the disk: what it answers and which disk it
leaves behind depends on nothing that happened before. Creating the directories above a path is
moreover something that does not go on when it is tried again: the same answer is given, and the
disk stays, whether all directories were created or something kept one of them from being created.
-/

namespace Phrasebook

/-- Whether a change is refused does not depend on the changes that were tried before it. -/
def Host.IsSteady (host : Host) : Prop :=
  ∀ earlier change, host.refusal? earlier change = host.refusal? [] change

namespace Run

variable {ε δ α β : Type} {host : Host} {before middle after : Disk}

/-- On a disk, a step gives an answer and leaves a disk behind, whatever happened before. -/
def Does (host : Host) (run : Run ε α) (before : Disk) (answer : Except ε α) (after : Disk) :
    Prop :=
  ∀ session : Session, session.disk = before →
    (run.start host session).1 = answer ∧ (run.start host session).2.disk = after

theorem Does.unique {run : Run ε α} {answer other : Except ε α}
    (h : Does host run before answer after) (h' : Does host run before other middle) :
    answer = other ∧ after = middle := by
  obtain ⟨hanswer, hafter⟩ := h (.start before) rfl
  obtain ⟨hother, hmiddle⟩ := h' (.start before) rfl
  exact ⟨hanswer.symm.trans hother, hafter.symm.trans hmiddle⟩

theorem does_pure (value : α) : Does host (pure value : Run ε α) before (.ok value) before :=
  fun _ hdisk ↦ ⟨rfl, hdisk⟩

theorem does_throw (fault : ε) : Does host (throw fault : Run ε α) before (.error fault) before :=
  fun _ hdisk ↦ ⟨rfl, hdisk⟩

theorem does_disk : Does host (disk : Run ε Disk) before (.ok before) before :=
  fun _ hdisk ↦ ⟨congrArg Except.ok hdisk, hdisk⟩

theorem does_warn (warning : Warning) :
    Does host (warn warning : Run ε Unit) before (.ok ()) before :=
  fun _ hdisk ↦ ⟨rfl, hdisk⟩

theorem does_ofExcept {value answer : Except ε α} (h : value = answer) :
    Does host (ofExcept value) before answer before := by
  intro session hdisk
  rw [start_ofExcept, h]
  exact ⟨rfl, hdisk⟩

theorem does_putNode (place : Disk.Place) (node : Disk.Node) :
    Does host (putNode place node : Run ε Unit) before (.ok ()) (before.put place node) := by
  intro session hdisk
  rw [start_putNode, hdisk]
  exact ⟨rfl, rfl⟩

theorem does_tryChange (hhost : host.IsSteady) (change : Change) :
    Does host (tryChange change : Run ε (Option Refusal)) before
      (.ok (host.refusal? [] change)) before := by
  intro session hdisk
  rw [start_tryChange, hhost]
  exact ⟨rfl, hdisk⟩

/-- What two steps do, one after the other, is what the second does after the first has succeeded.
-/
theorem Does.bind {run : Run ε α} {next : α → Run ε β} {value : α} {answer : Except ε β}
    (h : Does host run before (.ok value) middle)
    (hnext : Does host (next value) middle answer after) :
    Does host (run >>= next) before answer after := by
  intro session hdisk
  obtain ⟨hanswer, hmiddle⟩ := h session hdisk
  rw [start_bind]
  cases hstart : run.start host session with
  | mk given left =>
    rw [hstart] at hanswer hmiddle
    obtain rfl : given = .ok value := hanswer
    exact hnext left hmiddle

/-- Nothing is done after a step that failed. -/
theorem Does.bind_error {run : Run ε α} {fault : ε} (h : Does host run before (.error fault) after)
    (next : α → Run ε β) : Does host (run >>= next) before (.error fault) after := by
  intro session hdisk
  obtain ⟨hanswer, hafter⟩ := h session hdisk
  rw [start_bind]
  cases hstart : run.start host session with
  | mk given left =>
    rw [hstart] at hanswer hafter
    obtain rfl : given = .error fault := hanswer
    exact ⟨rfl, hafter⟩

theorem Does.outcome {run : Run ε α} {answer : Except ε α} (h : Does host run before answer after) :
    Does host (run.outcome : Run δ (Except ε α)) before (.ok answer) after := by
  intro session hdisk
  obtain ⟨hanswer, hafter⟩ := h session hdisk
  rw [start_outcome, hanswer]
  exact ⟨rfl, hafter⟩

theorem Does.adapt {run : Run ε α} {answer : Except ε α} (h : Does host run before answer after)
    (f : ε → δ) : Does host (run.adapt f) before (answer.mapError f) after := by
  intro session hdisk
  obtain ⟨hanswer, hafter⟩ := h session hdisk
  rw [start_adapt, hanswer]
  exact ⟨rfl, hafter⟩

variable {path : Path} {text : String} {place : Disk.Place} {fault : Disk.Fault}

theorem does_writeText_unwritable (h : before.writable path = .error fault) :
    Does host (writeText path text) before (.error fault) before := by
  intro session hdisk
  rw [start_writeText_unwritable (hdisk ▸ h)]
  exact ⟨rfl, hdisk⟩

/-- What writing a text at a place answers, and what is in the file afterwards. -/
theorem exists_does_writeText (hhost : host.IsSteady) (text : String) (place : Disk.Place) :
    ∃ answer written?, ∀ {path : Path} {before : Disk}, before.writable path = .ok place →
      Does host (writeText path text) before answer (before.putContents place written?) := by
  cases hrefusal : host.refusal? [] (writeOf place text) with
  | none =>
    refine ⟨.ok (), some text.toUTF8, fun hwritable session hdisk ↦ ?_⟩
    rw [start_writeText_carriedOut (hdisk ▸ hwritable) ((hhost _ _).trans hrefusal), hdisk]
    exact ⟨rfl, rfl⟩
  | some refusal =>
    refine ⟨.error refusal.fault, refusal.written? text, fun hwritable session hdisk ↦ ?_⟩
    rw [start_writeText_refused (hdisk ▸ hwritable) ((hhost _ _).trans hrefusal), hdisk]
    exact ⟨rfl, rfl⟩

/-- How the attempt to create a directory ends. -/
inductive Attempt (disk : Disk) (path : Path) : Except Disk.Fault Unit → Disk → Prop
  | made {place : Disk.Place} (h : disk.creatable path = .ok place) :
    Attempt disk path (.ok ()) (disk.put place .directory)
  | refused {place : Disk.Place} (fault : Disk.Fault) (h : disk.creatable path = .ok place) :
    Attempt disk path (.error fault) disk
  | impossible {fault : Disk.Fault} (h : disk.creatable path = .error fault) :
    Attempt disk path (.error fault) disk

/-- On a host that always answers alike, creating a directory is an attempt with one outcome. -/
theorem exists_attempt (hhost : host.IsSteady) (disk : Disk) (path : Path) :
    ∃ answer after, Does host (createDirectory path) disk answer after ∧
      Attempt disk path answer after := by
  unfold createDirectory
  cases hplace : disk.creatable path with
  | error fault =>
    exact ⟨_, _, does_disk.bind ((does_ofExcept hplace).bind_error _), .impossible hplace⟩
  | ok place =>
    have htry : Does host (tryChange (.create place) : Run Disk.Fault _) disk _ disk :=
      does_tryChange hhost _
    cases hrefusal : host.refusal? [] (.create place) with
    | none =>
      rw [hrefusal] at htry
      exact ⟨_, _, does_disk.bind ((does_ofExcept hplace).bind
        (htry.bind (does_putNode place .directory))), .made hplace⟩
    | some refusal =>
      rw [hrefusal] at htry
      exact ⟨_, _, does_disk.bind ((does_ofExcept hplace).bind
        (htry.bind (does_throw refusal.fault))), .refused refusal.fault hplace⟩

theorem does_createDirectory_impossible (hhost : host.IsSteady) {disk : Disk}
    (h : disk.creatable path = .error fault) :
    Does host (createDirectory path) disk (.error fault) disk := by
  obtain ⟨answer, after, hdoes, hattempt⟩ := exists_attempt hhost disk path
  cases hattempt with
  | made hplace => cases h.symm.trans hplace
  | refused fault hplace => cases h.symm.trans hplace
  | impossible hfault =>
    cases h.symm.trans hfault
    exact hdoes

/-- A directory that could not be created may be there already. -/
def answerFor (disk : Disk) (path : Path) (fault : Disk.Fault) : Except Disk.Fault Unit :=
  if disk.isDirectory path then .ok () else .error fault

theorem does_answerFor (disk : Disk) (path : Path) (fault : Disk.Fault) :
    Does host (do if !(← Run.disk).isDirectory path then throw fault) disk
      (answerFor disk path fault) disk := by
  refine does_disk.bind ?_
  unfold answerFor
  cases disk.isDirectory path with
  | true => exact does_pure ()
  | false => exact does_throw fault

theorem Does.ensureDirectory (h : Does host (createDirectory path) before (.ok ()) after) :
    Does host (Run.ensureDirectory path) before (.ok ()) after :=
  h.outcome.bind (does_pure ())

theorem Does.ensureDirectory_error
    (h : Does host (createDirectory path) before (.error fault) before) :
    Does host (Run.ensureDirectory path) before (answerFor before path fault) before :=
  h.outcome.bind (does_answerFor before path fault)

variable {room : Nat} {parent : Path}

theorem does_within_empty (h : path.text.isEmpty = true) :
    Does host (ensureDirectoriesWithin (room + 1) path) before (.ok ()) before := by
  rw [ensureDirectoriesWithin, h]
  exact does_pure ()

theorem Does.within (hpath : path.text.isEmpty = false)
    (h : Does host (createDirectory path) before (.ok ()) after) :
    Does host (ensureDirectoriesWithin (room + 1) path) before (.ok ()) after := by
  rw [ensureDirectoriesWithin, hpath]
  exact h.outcome.bind (does_pure ())

theorem Does.within_error (hpath : path.text.isEmpty = false) (hfault : fault ≠ .missing)
    (h : Does host (createDirectory path) before (.error fault) before) :
    Does host (ensureDirectoriesWithin (room + 1) path) before (answerFor before path fault)
      before := by
  rw [ensureDirectoriesWithin, hpath]
  refine h.outcome.bind ?_
  cases fault with
  | missing => exact absurd rfl hfault
  | _ => exact does_answerFor before path _

theorem Does.within_orphan (hpath : path.text.isEmpty = false) (hparent : path.parent? = none)
    (h : Does host (createDirectory path) before (.error .missing) before) :
    Does host (ensureDirectoriesWithin (room + 1) path) before (.error .missing) before := by
  rw [ensureDirectoriesWithin, hpath, hparent]
  exact h.outcome.bind (does_throw _)

theorem Does.within_parent_error (hpath : path.text.isEmpty = false)
    (hparent : path.parent? = some parent)
    (h : Does host (createDirectory path) before (.error .missing) before)
    (habove : Does host (ensureDirectoriesWithin room parent) before (.error fault) after) :
    Does host (ensureDirectoriesWithin (room + 1) path) before (.error fault) after := by
  rw [ensureDirectoriesWithin, hpath, hparent]
  exact h.outcome.bind (habove.bind_error _)

theorem Does.within_parent (hpath : path.text.isEmpty = false)
    (hparent : path.parent? = some parent)
    (h : Does host (createDirectory path) before (.error .missing) before)
    (habove : Does host (ensureDirectoriesWithin room parent) before (.ok ()) middle)
    {answer : Except Disk.Fault Unit}
    (hhere : Does host (Run.ensureDirectory path) middle answer after) :
    Does host (ensureDirectoriesWithin (room + 1) path) before answer after := by
  rw [ensureDirectoriesWithin, hpath, hparent]
  exact h.outcome.bind (habove.bind hhere)

/-- Where the directory is, nothing is done. -/
theorem does_within_present (hhost : host.IsSteady) (h : before.isDirectory path = true) :
    Does host (ensureDirectoriesWithin room path) before (.ok ()) before := by
  have hanswer : answerFor before path .alreadyExists = .ok () := if_pos h
  have hcreate := does_createDirectory_impossible hhost (Disk.creatable_of_isDirectory h)
  cases room with
  | zero => exact hanswer ▸ hcreate.ensureDirectory_error
  | succ room =>
    cases hpath : path.text.isEmpty with
    | true => exact does_within_empty hpath
    | false => exact hanswer ▸ hcreate.within_error hpath (by decide)

end Run

end Phrasebook
