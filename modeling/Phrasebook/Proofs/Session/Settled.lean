import Phrasebook.Proofs.Session.Depth
import Phrasebook.Proofs.Session.Steady

/-!
# Creating directories again

On a steady host, creating the directories above a file is settled with the first attempt: tried
again on the disk that it left behind, it answers the same and leaves the disk as it is. That is
clear where all directories were created. Where something kept one of them from being created, the
directories above that one are there, and everything below it waits for it, so that the next attempt
ends where the first one did.
-/

namespace Phrasebook.Run

variable {host : Host} {room : Nat} {path parent : Path} {before after middle disk : Disk}
variable {fault : Disk.Fault} {answer : Except Disk.Fault Unit} {place : Disk.Place}

/-- A directory waits for one that cannot be created, or cannot be created itself. -/
inductive Stuck (disk : Disk) (path : Path) (fault : Disk.Fault) : Prop
  | waiting (h : disk.creatable path = .error .missing)
  | refused {place : Disk.Place} (h : disk.creatable path = .ok place)
  | impossible (h : disk.creatable path = .error fault) (hmissing : fault ≠ .missing)
    (hexists : fault ≠ .alreadyExists)

/-- The directories of a path are created, or not, and that settles them: the next attempt answers
the same and changes nothing. -/
structure Settles (host : Host) (room : Nat) (path : Path) (before : Disk)
    (answer : Except Disk.Fault Unit) (after : Disk) : Prop where
  first : Does host (ensureDirectoriesWithin room path) before answer after
  again : Does host (ensureDirectoriesWithin room path) after answer after
  stuck {fault : Disk.Fault} : answer = .error fault →
    Stuck before path .missing → Stuck after path fault

namespace Settles

theorem grownTo (h : Settles host room path before answer after)
    (hup : Path.Descends (Path.trimPieces path.pieces)) : before.GrownTo path after := by
  have hgrown := grownTo_ensureDirectoriesWithin room hup host (.start before)
  rw [Session.GrownTo, (h.first (.start before) rfl).2] at hgrown
  exact hgrown

/-- Where nothing is changed, the next attempt is the same as the first one. -/
theorem of_same (h : Does host (ensureDirectoriesWithin room path) disk answer disk) :
    Settles host room path disk answer disk where
  first := h
  again := h
  stuck := by
    rintro fault - (hmissing | hplace | ⟨-, hmissing, -⟩)
    · exact .waiting hmissing
    · exact .refused hplace
    · exact absurd rfl hmissing

/-- After a directory was created, it is there. -/
theorem of_made (hhost : host.IsSteady) (hplace : middle.creatable path = .ok place)
    (h : Does host (ensureDirectoriesWithin room path) before (.ok ())
      (middle.put place .directory)) :
    Settles host room path before (.ok ()) (middle.put place .directory) where
  first := h
  again := does_within_present hhost (Disk.isDirectory_put hplace)
  stuck := nofun

end Settles

theorem plain_of_missing (h : disk.creatable path = .error .missing) :
    Char.ofNat 0 ∉ path.text.toList := by
  intro hmem
  cases h.symm.trans (Disk.creatable_of_mem hmem)

/-- What is below a directory that is stuck waits for it, or meets what keeps it from being
created. -/
theorem Stuck.below (h : Stuck disk parent fault) (hbelow : disk.Below parent path) :
    disk.creatable path = .error .missing ∨
      disk.creatable path = .error fault ∧ fault ≠ .missing ∧ fault ≠ .alreadyExists := by
  cases hbelow with
  | blocked above here =>
    cases h with
    | waiting hparent =>
      cases hparent.symm.trans above
      exact .inl here
    | refused hparent => cases hparent.symm.trans above
    | impossible hparent hmissing hexists =>
      cases hparent.symm.trans above
      exact .inr ⟨here, hmissing, hexists⟩
  | pending _ here => exact .inl here
  | present above =>
    cases h with
    | waiting hparent => cases hparent.symm.trans above
    | refused hparent => cases hparent.symm.trans above
    | impossible hparent _ hexists =>
      cases hparent.symm.trans above
      exact absurd rfl hexists

/-- A directory that waits has one above it that waits or can be created. -/
theorem stuck_above (h : disk.creatable path = .error .missing) (hbelow : disk.Below parent path) :
    Stuck disk parent .missing := by
  cases hbelow with
  | blocked above here =>
    cases h.symm.trans here
    exact .waiting above
  | pending above => exact .refused above
  | present _ here => exact absurd h here

/-- A directory that cannot be created, and is not there already, cannot be created again. -/
theorem answerFor_of_impossible (h : disk.creatable path = .error fault)
    (hexists : fault ≠ .alreadyExists) : answerFor disk path fault = .error fault := by
  refine if_neg fun hdirectory ↦ hexists ?_
  rw [Disk.creatable_of_isDirectory hdirectory] at h
  cases h
  rfl

/-- The directory above one that could be created is left as it is, and so is the empty path. -/
theorem unchanged_above (hhost : host.IsSteady) (hparent : path.parent? = some parent)
    (hup : Path.Descends (Path.trimPieces path.pieces))
    (hplace : parent.text.toList = [] ∨ ∃ place, disk.creatable path = .ok place)
    (h : Does host (ensureDirectoriesWithin room parent) disk answer after) : after = disk := by
  by_cases hne : parent.text.toList = []
  · obtain ⟨text⟩ := parent
    obtain rfl : text = "" := String.toList_eq_nil_iff.1 hne
    have hmissing : disk.creatable ⟨""⟩ = .error .missing := rfl
    cases room with
    | zero =>
      have hdoes := (does_createDirectory_impossible hhost hmissing).ensureDirectory_error
      exact (h.unique hdoes).2
    | succ room => exact (h.unique (does_within_empty rfl)).2
  · obtain ⟨place, hcreatable⟩ := hplace.resolve_left hne
    have hplain : Char.ofNat 0 ∉ path.text.toList := by
      intro hmem
      cases hcreatable.symm.trans (Disk.creatable_of_mem hmem)
    cases Disk.below_of_parent? disk hparent hne hplain hup with
    | blocked _ here => cases hcreatable.symm.trans here
    | pending _ here => cases hcreatable.symm.trans here
    | present _ _ directory =>
      exact (h.unique (does_within_present hhost (directory place hcreatable))).2

namespace Settles

/-- Where a directory above cannot be created, the one below it stays stuck. -/
theorem parent_error (hhost : host.IsSteady) (hpath : path.text.isEmpty = false)
    (hparent : path.parent? = some parent) (hne : parent.text.toList ≠ [])
    (hup : Path.Descends (Path.trimPieces path.pieces))
    (hmissing : before.creatable path = .error .missing)
    (h : Settles host room parent before (.error fault) after) :
    Settles host (room + 1) path before (.error fault) after := by
  have hbelow (disk : Disk) : disk.Below parent path :=
    Disk.below_of_parent? disk hparent hne (plain_of_missing hmissing) hup
  have hstuck := (h.stuck rfl (stuck_above hmissing (hbelow before))).below (hbelow after)
  refine ⟨?_, ?_, ?_⟩
  · exact (does_createDirectory_impossible hhost hmissing).within_parent_error hpath hparent h.first
  · rcases hstuck with hwaits | ⟨hfault, hmissing', hexists⟩
    · exact (does_createDirectory_impossible hhost hwaits).within_parent_error hpath hparent h.again
    · rw [← answerFor_of_impossible hfault hexists]
      exact (does_createDirectory_impossible hhost hfault).within_error hpath hmissing'
  · rintro other ⟨⟩ -
    rcases hstuck with hwaits | ⟨hfault, hmissing', hexists⟩
    · exact .waiting hwaits
    · exact .impossible hfault hmissing' hexists

/-- Where the directories above are there and the last one cannot be created, the next attempt
meets the same. -/
theorem parent_failed (hpath : path.text.isEmpty = false) (hparent : path.parent? = some parent)
    (hmissing : before.creatable path = .error .missing) (hhost : host.IsSteady)
    (h : Settles host room parent before (.ok ()) middle)
    (hdoes : Does host (createDirectory path) middle (.error fault) middle)
    (hstuck : middle.isDirectory path = false → Stuck middle path fault) :
    Settles host (room + 1) path before (answerFor middle path fault) middle := by
  have hwaits := does_createDirectory_impossible hhost hmissing
  refine ⟨hwaits.within_parent hpath hparent h.first hdoes.ensureDirectory_error, ?_, ?_⟩
  · by_cases hfault : fault = .missing
    · subst hfault
      exact hdoes.within_parent hpath hparent h.again hdoes.ensureDirectory_error
    · exact hdoes.within_error hpath hfault
  · rintro other hanswer -
    unfold answerFor at hanswer
    cases hdirectory : middle.isDirectory path with
    | true =>
      rw [hdirectory] at hanswer
      cases hanswer
    | false =>
      rw [hdirectory] at hanswer
      cases hanswer
      exact hstuck hdirectory

/-- Where the directories above are there, the last one is created or not. -/
theorem exists_parent (hhost : host.IsSteady) (htree : before.IsTree)
    (hpath : path.text.isEmpty = false) (hparent : path.parent? = some parent)
    (hup : Path.Descends (Path.trimPieces path.pieces))
    (hmissing : before.creatable path = .error .missing)
    (h : Settles host room parent before (.ok ()) middle) :
    ∃ answer after, Settles host (room + 1) path before answer after := by
  obtain ⟨answer, after, hdoes, hattempt⟩ := exists_attempt hhost middle path
  cases hattempt with
  | made hplace =>
    have hfirst := (does_createDirectory_impossible hhost hmissing).within_parent hpath hparent
      h.first hdoes.ensureDirectory
    exact ⟨_, _, of_made hhost hplace hfirst⟩
  | refused fault hplace =>
    exact ⟨_, _, h.parent_failed hpath hparent hmissing hhost hdoes fun _ ↦ .refused hplace⟩
  | @impossible fault hfault =>
    refine ⟨_, _, h.parent_failed hpath hparent hmissing hhost hdoes fun hdirectory ↦ ?_⟩
    by_cases hwaits : fault = .missing
    · exact .waiting (hwaits ▸ hfault)
    · refine .impossible hfault hwaits fun hexists ↦ ?_
      subst hexists
      have hgrown := h.grownTo (descends_parent hparent hup)
      rw [Disk.isDirectory_of_grown htree hgrown.toGrown hup hmissing hfault] at hdirectory
      cases hdirectory

end Settles

/-- On a steady host with a tree of directories, creating the directories of a path without a step
upward is settled with the first attempt. -/
theorem exists_settles (hhost : host.IsSteady) (htree : before.IsTree) (room : Nat)
    (hup : Path.Descends (Path.trimPieces path.pieces)) :
    ∃ answer after, Settles host room path before answer after := by
  induction room generalizing path with
  | zero =>
    obtain ⟨answer, after, hdoes, hattempt⟩ := exists_attempt hhost before path
    cases hattempt with
    | made hplace =>
      exact ⟨_, _, .of_made hhost hplace hdoes.ensureDirectory⟩
    | refused fault hplace => exact ⟨_, _, .of_same hdoes.ensureDirectory_error⟩
    | impossible hfault => exact ⟨_, _, .of_same hdoes.ensureDirectory_error⟩
  | succ room ih =>
    cases hpath : path.text.isEmpty with
    | true => exact ⟨_, _, .of_same (does_within_empty hpath)⟩
    | false =>
      obtain ⟨answer, after, hdoes, hattempt⟩ := exists_attempt hhost before path
      -- Something keeps the directory from being created; the ones above are tried if it waits.
      have hfailed : ∀ fault, Does host (createDirectory path) before (.error fault) before →
          before.creatable path = .error fault ∨ (∃ place, before.creatable path = .ok place) →
          ∃ answer after, Settles host (room + 1) path before answer after := by
        intro fault hdoes hcreatable
        by_cases hwaits : fault = .missing
        · subst hwaits
          cases hparent : path.parent? with
          | none => exact ⟨_, _, .of_same (hdoes.within_orphan hpath hparent)⟩
          | some parent =>
            obtain ⟨above, middle, habove⟩ := ih (descends_parent hparent hup)
            by_cases hsame : parent.text.toList = [] ∨ ∃ place, before.creatable path = .ok place
            · obtain rfl := unchanged_above hhost hparent hup hsame habove.first
              cases above with
              | error fault =>
                exact ⟨_, _, .of_same (hdoes.within_parent_error hpath hparent habove.first)⟩
              | ok _ =>
                exact ⟨_, _, .of_same (hdoes.within_parent hpath hparent habove.first
                  hdoes.ensureDirectory_error)⟩
            · rw [not_or] at hsame
              have hmissing := hcreatable.resolve_right hsame.2
              cases above with
              | error fault =>
                exact ⟨_, _, habove.parent_error hhost hpath hparent hsame.1 hup hmissing⟩
              | ok _ => exact habove.exists_parent hhost htree hpath hparent hup hmissing
        · exact ⟨_, _, .of_same (hdoes.within_error hpath hwaits)⟩
      cases hattempt with
      | made hplace =>
        exact ⟨_, _, .of_made hhost hplace (hdoes.within hpath)⟩
      | refused fault hplace => exact hfailed fault hdoes (.inr ⟨_, hplace⟩)
      | impossible hfault => exact hfailed _ hdoes (.inl hfault)

end Phrasebook.Run
