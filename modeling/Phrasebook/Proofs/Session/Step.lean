import Mathlib.Order.Defs.Unbundled
import Phrasebook.Proofs.Disk.Frame
import Phrasebook.Proofs.Path.Name
import Phrasebook.Session

/-!
# What one step of a command does

A command is a chain of steps. The equations here say, for each step that commands are built from,
what it answers and which session it leaves behind; a chain is then taken apart with `start_bind`.
Writing a text is the one step that can change the contents of a file: the equations for it tell
the three ways in which it ends apart.
-/

namespace Phrasebook

/-- Nothing but warnings came about between two sessions. -/
structure Session.OnlyWarned (before after : Session) : Prop where
  disk : after.disk = before.disk
  requests : after.requests = before.requests
  changes : after.changes = before.changes

theorem Session.OnlyWarned.refl (session : Session) : session.OnlyWarned session := ⟨rfl, rfl, rfl⟩

theorem Session.onlyWarned_warnings (session : Session) (warnings : List Warning) :
    session.OnlyWarned { session with warnings := warnings } := ⟨rfl, rfl, rfl⟩

theorem Session.OnlyWarned.trans {before middle after : Session} (first : before.OnlyWarned middle)
    (second : middle.OnlyWarned after) : before.OnlyWarned after :=
  ⟨second.disk.trans first.disk, second.requests.trans first.requests,
    second.changes.trans first.changes⟩

instance : IsPreorder Session Session.OnlyWarned where
  refl := .refl
  trans _ _ _ := .trans

/-- The bytes of a text that are in its file after writing it was refused; nothing when the file is
as it was. -/
def Refusal.written? (refusal : Refusal) (text : String) : Option ByteArray :=
  refusal.kept?.map fun kept ↦ text.toUTF8.extract 0 kept

namespace Run

variable {ε δ α β : Type} (host : Host) (session : Session)

/-- Pieces that do the same in every session are the same. -/
theorem ext {first second : Run ε α}
    (h : ∀ host session, first.start host session = second.start host session) :
    first = second := by
  funext host session
  exact h host session

@[simp] theorem start_pure (value : α) :
    (pure value : Run ε α).start host session = (.ok value, session) := rfl

@[simp] theorem start_throw (fault : ε) :
    (throw fault : Run ε α).start host session = (.error fault, session) := rfl

theorem start_bind (run : Run ε α) (next : α → Run ε β) :
    (run >>= next).start host session =
      match run.start host session with
      | (.ok value, after) => (next value).start host after
      | (.error fault, after) => (.error fault, after) := by
  simp only [start, bind, ExceptT.bind, ExceptT.mk, ExceptT.run, ReaderT.bind, ReaderT.run,
    StateT.bind, StateT.run]
  rcases run host session with ⟨_ | _, _⟩ <;> rfl

variable {host session} in
theorem start_bind_ok {run : Run ε α} {value : α} {after : Session}
    (h : run.start host session = (.ok value, after)) (next : α → Run ε β) :
    (run >>= next).start host session = (next value).start host after := by
  rw [start_bind, h]

variable {host session} in
theorem start_bind_error {run : Run ε α} {fault : ε} {after : Session}
    (h : run.start host session = (.error fault, after)) (next : α → Run ε β) :
    (run >>= next).start host session = (.error fault, after) := by
  rw [start_bind, h]

@[simp] theorem start_map (f : α → β) (run : Run ε α) :
    (f <$> run).start host session =
      ((run.start host session).1.map f, (run.start host session).2) := by
  rw [map_eq_pure_bind, start_bind]
  rcases run.start host session with ⟨_ | _, _⟩ <;> rfl

@[simp] theorem start_get : (get : Run ε Session).start host session = (.ok session, session) := rfl

@[simp] theorem start_modify (f : Session → Session) :
    (modify f : Run ε Unit).start host session = (.ok (), f session) := rfl

@[simp] theorem start_disk : (disk : Run ε Disk).start host session = (.ok session.disk, session) :=
  rfl

@[simp] theorem start_warn (warning : Warning) :
    (warn warning : Run ε Unit).start host session =
      (.ok (), { session with warnings := session.warnings ++ [warning] }) := rfl

@[simp] theorem start_warnAll (warnings : List Warning) :
    (warnAll warnings : Run ε Unit).start host session =
      (.ok (), { session with warnings := session.warnings ++ warnings }) := rfl

@[simp] theorem start_ofExcept (value : Except ε α) :
    (ofExcept value).start host session = (value, session) := by
  cases value <;> rfl

@[simp] theorem start_adapt (f : ε → δ) (run : Run ε α) :
    (run.adapt f).start host session =
      ((run.start host session).1.mapError f, (run.start host session).2) := by
  simp only [start, adapt, ExceptT.run, ReaderT.run, StateT.run]
  rfl

variable {host session} in
/-- An adapted step fails with an adapted fault only. -/
theorem exists_of_adapt_error {f : ε → δ} {run : Run ε α} {fault : δ} {after : Session}
    (h : (run.adapt f).start host session = (.error fault, after)) : ∃ cause, fault = f cause := by
  rw [start_adapt] at h
  have hanswer := (Prod.mk.inj h).1
  cases hrun : (run.start host session).1 with
  | ok value =>
    rw [hrun] at hanswer
    cases hanswer
  | error cause =>
    rw [hrun] at hanswer
    cases hanswer
    exact ⟨cause, rfl⟩

@[simp] theorem start_outcome (run : Run ε α) :
    (run.outcome : Run δ (Except ε α)).start host session =
      (.ok (run.start host session).1, (run.start host session).2) := rfl

@[simp] theorem start_tryChange (change : Change) :
    (tryChange change : Run ε (Option Refusal)).start host session =
      (.ok (host.refusal? session.changes change),
        { session with changes := session.changes ++ [change] }) := rfl

@[simp] theorem start_putNode (place : Disk.Place) (node : Disk.Node) :
    (putNode place node : Run ε Unit).start host session =
      (.ok (), { session with disk := session.disk.put place node }) := rfl

/-! ## What a step leads to -/

/-- However a step ends, the session that it leaves behind is in a relation to the one it began
in. -/
def Leads (relation : Session → Session → Prop) (run : Run ε α) : Prop :=
  ∀ host session, relation session (run.start host session).2

section Leads

variable {relation : Session → Session → Prop} [IsPreorder Session relation]

theorem leads_pure (value : α) : Leads relation (pure value : Run ε α) :=
  fun _ session ↦ refl_of relation session

theorem leads_throw (fault : ε) : Leads relation (throw fault : Run ε α) :=
  fun _ session ↦ refl_of relation session

theorem leads_disk : Leads relation (disk : Run ε Disk) :=
  fun _ session ↦ refl_of relation session

theorem leads_ofExcept (value : Except ε α) : Leads relation (ofExcept value) := by
  cases value with
  | ok result => exact leads_pure result
  | error fault => exact leads_throw fault

omit [IsPreorder Session relation] in
theorem Leads.outcome {run : Run ε α} (h : Leads relation run) :
    Leads relation (run.outcome : Run δ (Except ε α)) := h

omit [IsPreorder Session relation] in
theorem Leads.adapt {run : Run ε α} (h : Leads relation run) (f : ε → δ) :
    Leads relation (run.adapt f) := by
  intro host session
  rw [start_adapt]
  exact h host session

omit [IsPreorder Session relation] in
theorem leads_ite {condition : Bool} {yes no : Run ε α} (hyes : Leads relation yes)
    (hno : Leads relation no) : Leads relation (if condition then yes else no) := by
  cases condition
  · exact hno
  · exact hyes

end Leads

/-- However a step ends, the session that it leaves behind is in a relation to the one it began in,
and if it answers, the answer has a property. -/
def Ensures (relation : Session → Session → Prop) (property : α → Prop) (run : Run ε α) : Prop :=
  ∀ host session, relation session (run.start host session).2 ∧
    ∀ value, (run.start host session).1 = .ok value → property value

section Ensures

variable {relation : Session → Session → Prop} {property : α → Prop}

theorem Ensures.leads {run : Run ε α} (h : Ensures relation property run) : Leads relation run :=
  fun host session ↦ (h host session).1

theorem Leads.ensures {run : Run ε α} (h : Leads relation run) :
    Ensures relation (fun _ ↦ True) run :=
  fun host session ↦ ⟨h host session, fun _ _ ↦ trivial⟩

theorem Ensures.outcome {run : Run ε α} (h : Ensures relation property run) :
    Ensures relation (fun answer ↦ ∀ value, answer = .ok value → property value)
      (run.outcome : Run δ (Except ε α)) := by
  intro host session
  refine ⟨(h host session).1, fun answer hanswer ↦ ?_⟩
  cases hanswer
  exact (h host session).2

/-- What a step ensures does not depend on how its faults are put. -/
theorem Ensures.adapt {run : Run ε α} (h : Ensures relation property run) (f : ε → δ) :
    Ensures relation property (run.adapt f) := by
  intro host session
  obtain ⟨hrun, hanswer⟩ := h host session
  rw [start_adapt]
  refine ⟨hrun, fun value hvalue ↦ hanswer value ?_⟩
  cases hresult : (run.start host session).1 with
  | error fault =>
    rw [hresult] at hvalue
    cases hvalue
  | ok other =>
    rw [hresult] at hvalue
    cases hvalue
    rfl

variable [IsPreorder Session relation]

theorem ensures_pure {value : α} (h : property value) :
    Ensures relation property (pure value : Run ε α) := by
  intro host session
  refine ⟨refl_of relation session, fun other hother ↦ ?_⟩
  cases hother
  exact h

theorem ensures_throw (fault : ε) : Ensures relation property (throw fault : Run ε α) := by
  intro host session
  refine ⟨refl_of relation session, fun value hvalue ↦ ?_⟩
  cases hvalue

/-- What follows a step matters only after an answer that the step can give. -/
theorem Ensures.bind {run : Run ε α} {next : α → Run ε β} {result : β → Prop}
    (h : Ensures relation property run)
    (hnext : ∀ value, property value → Ensures relation result (next value)) :
    Ensures relation result (run >>= next) := by
  intro host session
  obtain ⟨hrun, hanswer⟩ := h host session
  rw [start_bind]
  cases hstart : run.start host session with
  | mk answer after =>
    rw [hstart] at hrun hanswer
    cases answer with
    | ok value =>
      obtain ⟨hafter, hresult⟩ := hnext value (hanswer value rfl) host after
      exact ⟨trans_of relation hrun hafter, hresult⟩
    | error fault =>
      refine ⟨hrun, fun value hvalue ↦ ?_⟩
      cases hvalue

theorem Ensures.bind_leads {run : Run ε α} {next : α → Run ε β} (h : Ensures relation property run)
    (hnext : ∀ value, property value → Leads relation (next value)) :
    Leads relation (run >>= next) :=
  (h.bind fun value hvalue ↦ (hnext value hvalue).ensures).leads

theorem Leads.bind {run : Run ε α} {next : α → Run ε β} (h : Leads relation run)
    (hnext : ∀ value, Leads relation (next value)) : Leads relation (run >>= next) :=
  h.ensures.bind_leads fun value _ ↦ hnext value

end Ensures

theorem leads_warn (warning : Warning) : Leads Session.OnlyWarned (warn warning : Run ε Unit) :=
  fun _ session ↦ session.onlyWarned_warnings _

/-- The change of the disk that writing a text tries. -/
def writeOf (place : Disk.Place) (text : String) : Change :=
  .write place text.toUTF8

variable {host session} {path : Path} {text : String} {place : Disk.Place}

theorem start_writeText_unwritable {fault : Disk.Fault}
    (h : session.disk.writable path = .error fault) :
    (writeText path text).start host session = (.error fault, session) := by
  simp only [writeText, start_bind, start_disk, start_ofExcept, h]

/-- A write that is not refused puts the text into the file and changes nothing else on the disk. -/
theorem start_writeText_carriedOut (h : session.disk.writable path = .ok place)
    (hr : host.refusal? session.changes (writeOf place text) = none) :
    (writeText path text).start host session =
      (.ok (),
        { session with
          disk := session.disk.put place (.file text.toUTF8)
          changes := session.changes ++ [writeOf place text] }) := by
  unfold writeOf at hr
  simp only [writeText, start_bind, start_disk, start_ofExcept, h, start_tryChange, hr,
    start_putNode, writeOf]

/-- A refused write leaves as much of the text in the file as the host says. -/
theorem start_writeText_refused {refusal : Refusal} (h : session.disk.writable path = .ok place)
    (hr : host.refusal? session.changes (writeOf place text) = some refusal) :
    (writeText path text).start host session =
      (.error refusal.fault,
        { session with
          disk := session.disk.putContents place (refusal.written? text)
          changes := session.changes ++ [writeOf place text] }) := by
  unfold writeOf at hr
  simp only [writeText, start_bind, start_disk, start_ofExcept, h, start_tryChange, hr, writeOf]
  unfold Refusal.written?
  cases refusal.kept? <;> rfl

/-- A text that was written stands at a place where a file can be. -/
theorem writeText_ok {after : Session}
    (h : (writeText path text).start host session = (.ok (), after)) :
    ∃ place, session.disk.writable path = .ok place ∧
      host.refusal? session.changes (writeOf place text) = none ∧
      after =
        { session with
          disk := session.disk.put place (.file text.toUTF8)
          changes := session.changes ++ [writeOf place text] } := by
  cases hw : session.disk.writable path with
  | error fault => simp [start_writeText_unwritable hw] at h
  | ok place =>
    cases hr : host.refusal? session.changes (writeOf place text) with
    | none =>
      rw [start_writeText_carriedOut hw hr] at h
      exact ⟨place, rfl, hr, (Prod.mk.inj h).2.symm⟩
    | some refusal => simp [start_writeText_refused hw hr] at h

/-- However writing a text ends, no more than the file at its place changes, and no request is
sent. -/
theorem writeText_cases (host : Host) (session : Session) (path : Path) (text : String) :
    (∃ fault, session.disk.writable path = .error fault ∧
        (writeText path text).start host session = (.error fault, session)) ∨
      ∃ place answer written?, session.disk.writable path = .ok place ∧
        (writeText path text).start host session =
          (answer,
            { session with
              disk := session.disk.putContents place written?
              changes := session.changes ++ [writeOf place text] }) := by
  cases hw : session.disk.writable path with
  | error fault => exact .inl ⟨fault, rfl, start_writeText_unwritable hw⟩
  | ok place =>
    refine .inr ⟨place, ?_⟩
    cases hr : host.refusal? session.changes (writeOf place text) with
    | none => exact ⟨_, some text.toUTF8, rfl, start_writeText_carriedOut hw hr⟩
    | some refusal => exact ⟨_, _, rfl, start_writeText_refused hw hr⟩

/-- Writing a text changes no more than the file that its path leads to. -/
theorem writtenWithin_writeText_place (host : Host) (session : Session) (path : Path)
    (text : String) :
    Disk.WrittenWithin (fun place ↦ session.disk.locate path = .ok place) session.disk
      ((writeText path text).start host session).2.disk := by
  rcases writeText_cases host session path text with
    ⟨fault, -, hstart⟩ | ⟨place, answer, written?, hwritable, hstart⟩
  · rw [hstart]
    exact .refl _ _
  · rw [hstart]
    obtain ⟨hlocate, -, hnode⟩ := Disk.writable_eq_ok hwritable
    refine (Disk.writtenWithin_putContents hnode written?).mono fun other hother ↦ ?_
    rw [hother]
    exact hlocate

theorem writtenWithin_writeText (host : Host) (session : Session) {name : String} (text : String)
    (hname : path.fileName? = some name) :
    Disk.WrittenWithin (fun place ↦ place.getLast? = some name) session.disk
      ((writeText path text).start host session).2.disk :=
  (writtenWithin_writeText_place host session path text).mono fun _ hlocate ↦
    Disk.locate_getLast hname hlocate

theorem changedWithin_writeText (host : Host) (session : Session) {name : String} (text : String)
    (hname : path.fileName? = some name) :
    Disk.ChangedWithin (fun place ↦ place.getLast? = some name) session.disk
      ((writeText path text).start host session).2.disk :=
  (writtenWithin_writeText host session text hname).toChangedWithin

theorem requests_writeText (host : Host) (session : Session) (path : Path) (text : String) :
    ((writeText path text).start host session).2.requests = session.requests := by
  rcases writeText_cases host session path text with ⟨fault, -, hstart⟩ | ⟨_, _, _, -, hstart⟩ <;>
    rw [hstart]

end Run

end Phrasebook
