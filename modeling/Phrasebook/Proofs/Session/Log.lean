import Phrasebook.Proofs.Session.Alike
import Phrasebook.Proofs.Session.Directories

/-!
# What the changes that were tried leave behind

A session keeps the changes of the disk that were tried. A change that the host lets through leaves
its whole contents in the file at its place, and one that the host cuts short leaves some bytes of
them. Nothing else reaches a file: whatever a step does, each file is afterwards as the last of the
tried changes left it that left anything there, or else as it was.
-/

namespace Phrasebook

/-- The bytes that a change leaves in the file at a place, given how it was refused, if at all. -/
def Change.left? (place : Disk.Place) (refusal? : Option Refusal) : Change → Option ByteArray
  | .write goal contents =>
    if goal = place then
      match refusal? with
      | none => some contents
      | some refusal => refusal.kept?.map fun kept ↦ contents.extract 0 kept
    else none
  | .create _ => none

namespace Host

variable (host : Host) (place : Disk.Place)

/-- The bytes left in the file at a place by the last of some changes that left any there; `earlier`
were tried before them. -/
def lastLeft? (earlier : List Change) : List Change → Option ByteArray
  | [] => none
  | change :: rest =>
    (lastLeft? (earlier ++ [change]) rest).or (change.left? place (host.refusal? earlier change))

theorem lastLeft?_append (earlier first second : List Change) :
    host.lastLeft? place earlier (first ++ second) =
      (host.lastLeft? place (earlier ++ first) second).or
        (host.lastLeft? place earlier first) := by
  induction first generalizing earlier with
  | nil => simp [lastLeft?]
  | cons change rest ih =>
    rw [List.cons_append, lastLeft?, ih, lastLeft?, List.append_assoc, Option.or_assoc]
    rfl

/-- Creating directories leaves nothing in any file. -/
theorem lastLeft?_create (earlier : List Change) (places : List Disk.Place) :
    host.lastLeft? place earlier (places.map .create) = none := by
  induction places generalizing earlier with
  | nil => rfl
  | cons goal rest ih => rw [List.map_cons, lastLeft?, ih]; rfl

end Host

/-- Between two sessions, the files changed as the changes that were tried account for. -/
def Session.Accounts (host : Host) (before after : Session) : Prop :=
  ∃ log, after.changes = before.changes ++ log ∧ ∀ place,
    after.disk.fileAt? place =
      (host.lastLeft? place before.changes log).or (before.disk.fileAt? place)

namespace Session.Accounts

variable {host : Host} {before middle after : Session}

theorem trans (first : Accounts host before middle) (second : Accounts host middle after) :
    Accounts host before after := by
  obtain ⟨earlier, hearlier, hfirst⟩ := first
  obtain ⟨later, hlater, hsecond⟩ := second
  refine ⟨earlier ++ later, by rw [hlater, hearlier, List.append_assoc], fun place ↦ ?_⟩
  rw [hsecond, hfirst, hearlier, Host.lastLeft?_append, Option.or_assoc]

theorem of_sameFiles (host : Host) (h : before.SameFiles after) : Accounts host before after :=
  ⟨[], by rw [List.append_nil, h.changes], fun place ↦ by rw [h.disk]; rfl⟩

theorem of_builds (host : Host) (h : before.Builds after) : Accounts host before after := by
  obtain ⟨places, hchanges⟩ := h.changes
  refine ⟨places.map .create, hchanges, fun place ↦ ?_⟩
  rw [Host.lastLeft?_create, h.disk.fileAt?]
  rfl

end Session.Accounts

namespace Run

variable {ε δ α β : Type}

/-- However a step ends, the changes that it tried account for what it did to the files. -/
def Accounted (run : Run ε α) : Prop :=
  ∀ host session, Session.Accounts host session (run.start host session).2

theorem accounted_pure (value : α) : Accounted (pure value : Run ε α) :=
  fun host session ↦ .of_sameFiles host (.refl session)

theorem accounted_throw (fault : ε) : Accounted (throw fault : Run ε α) :=
  fun host session ↦ .of_sameFiles host (.refl session)

theorem Leads.accounted {run : Run ε α} (h : Leads Session.OnlyWarned run) : Accounted run :=
  fun host session ↦ .of_sameFiles host ⟨(h host session).disk.symm, (h host session).changes.symm⟩

theorem accounted_disk : Accounted (disk : Run ε Disk) :=
  fun host session ↦ .of_sameFiles host (.refl session)

theorem accounted_warn (warning : Warning) : Accounted (warn warning : Run ε Unit) :=
  (leads_warn warning).accounted

theorem accounted_warnAll (warnings : List Warning) :
    Accounted (warnAll warnings : Run ε Unit) :=
  fun host _ ↦ .of_sameFiles host ⟨rfl, rfl⟩

theorem accounted_ofExcept (value : Except ε α) : Accounted (ofExcept value) :=
  Leads.accounted (leads_ofExcept value)

/-- Two steps that put every change on record do so together. -/
theorem Accounted.bind {run : Run ε α} {next : α → Run ε β} (h : Accounted run)
    (hnext : ∀ value, Accounted (next value)) : Accounted (run >>= next) := by
  intro host session
  have hrun := h host session
  rw [start_bind]
  cases hstart : run.start host session with
  | mk answer after =>
    rw [hstart] at hrun
    cases answer with
    | ok value => exact hrun.trans (hnext value host after)
    | error fault => exact hrun

theorem Accounted.outcome {run : Run ε α} (h : Accounted run) :
    Accounted (run.outcome : Run δ (Except ε α)) := h

theorem Accounted.adapt {run : Run ε α} (h : Accounted run) (f : ε → δ) :
    Accounted (run.adapt f) := by
  intro host session
  rw [start_adapt]
  exact h host session

theorem accounted_ite {condition : Prop} [Decidable condition] {yes no : Run ε α}
    (hyes : Accounted yes) (hno : Accounted no) :
    Accounted (if condition then yes else no) := by
  split
  · exact hyes
  · exact hno

theorem accounted_ensureDirectories (path : Path) : Accounted (ensureDirectories path) :=
  fun host session ↦ .of_builds host (builds_ensureDirectories path host session)

/-- Writing a text leaves in its file what the change that it tries leaves there. -/
theorem accounted_writeText (path : Path) (text : String) : Accounted (writeText path text) := by
  intro host session
  cases hwritable : session.disk.writable path with
  | error fault =>
    rw [start_writeText_unwritable hwritable]
    exact .of_sameFiles host (.refl session)
  | ok goal =>
    obtain ⟨-, hroot, hnode⟩ := Disk.writable_eq_ok hwritable
    have hput (written? : Option ByteArray)
        (hleft : (writeOf goal text).left? goal
          (host.refusal? session.changes (writeOf goal text)) = written?) :
        Session.Accounts host session
          { session with
            disk := session.disk.putContents goal written?
            changes := session.changes ++ [writeOf goal text] } := by
      refine ⟨[writeOf goal text], rfl, fun place ↦ ?_⟩
      rw [Host.lastLeft?, Host.lastLeft?, Option.none_or]
      by_cases hplace : place = goal
      · rw [hplace, Disk.fileAt?_putContents hroot, hleft]
      · have hnone : (writeOf goal text).left? place
            (host.refusal? session.changes (writeOf goal text)) = none :=
          if_neg fun hsame ↦ hplace hsame.symm
        rw [hnone, (Disk.changedWithin_putContents hnode written?).file hplace]
        rfl
    have hgoal (refusal? : Option Refusal) : (writeOf goal text).left? goal refusal? =
        match refusal? with
        | none => some text.toUTF8
        | some refusal => refusal.written? text := if_pos rfl
    cases hrefusal : host.refusal? session.changes (writeOf goal text) with
    | none =>
      rw [start_writeText_carriedOut hwritable hrefusal]
      exact hput (some text.toUTF8) (by rw [hrefusal, hgoal])
    | some refusal =>
      rw [start_writeText_refused hwritable hrefusal]
      exact hput _ (by rw [hrefusal, hgoal])

end Run

end Phrasebook
