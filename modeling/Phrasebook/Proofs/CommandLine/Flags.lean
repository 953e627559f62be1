import Phrasebook.CommandLine

/-!
# Flags that stay

The arguments of a task are read from the first to the last. None of them takes a flag back or turns
the task into another one, so a flag that was given anywhere is there at the end. For a dry run this
says which task a command line asks for as soon as the option is among its arguments, wherever it
stands and whatever stands around it.
-/

namespace Phrasebook.CommandLine

variable {reading next last : Reading} {setting : Setting} {flag : Flag} {text value : String}
variable {arguments : List String} {environment : List (String × String)} {command : Command}

theorem exists_of_bind_eq_ok {α β : Type} {first : Except Stop α} {rest : α → Except Stop β}
    {result : β} (h : (first >>= rest) = .ok result) :
    ∃ middle, first = .ok middle ∧ rest middle = .ok result := by
  cases first with
  | error stop => cases h
  | ok middle => exact ⟨middle, rfl, h⟩

namespace Reading

/-- Reading has gone on from one point to another: the task is the same, and all flags are there. -/
structure GoesOn (before after : Reading) : Prop where
  verb : after.verb = before.verb
  flags : before.flags ⊆ after.flags

theorem GoesOn.refl (reading : Reading) : GoesOn reading reading :=
  ⟨rfl, List.Subset.refl _⟩

theorem GoesOn.trans (first : GoesOn reading next) (second : GoesOn next last) :
    GoesOn reading last :=
  ⟨second.verb.trans first.verb, List.Subset.trans first.flags second.flags⟩

theorem goesOn_store (h : reading.store setting value = .ok next) : GoesOn reading next := by
  unfold store at h
  split at h
  · cases h
  · split at h
    · cases h
    · cases h
      exact ⟨rfl, List.Subset.refl _⟩

theorem goesOn_settle (h : reading.settle = .ok next) : GoesOn reading next := by
  unfold settle at h
  split at h
  · cases h
    exact .refl _
  · cases h
  · have hstore := goesOn_store h
    exact ⟨hstore.verb, hstore.flags⟩

/-- A flag that is taken is there, next to those before it. -/
theorem goesOn_raise (h : reading.raise flag = .ok next) :
    GoesOn reading next ∧ flag ∈ next.flags := by
  obtain ⟨settled, hsettle, h⟩ := exists_of_bind_eq_ok h
  have hsettled := goesOn_settle hsettle
  dsimp only at h
  split at h
  · cases h
  · split at h
    · cases h
    · cases h
      refine ⟨hsettled.trans ⟨rfl, List.subset_append_left _ _⟩, ?_⟩
      exact List.mem_append_right _ (List.mem_singleton.2 rfl)

theorem goesOn_takeLong {name : String} {value? : Option String}
    (h : reading.takeLong name value? = .ok next) : GoesOn reading next := by
  unfold takeLong at h
  split at h
  · obtain ⟨settled, hsettle, hstore⟩ := exists_of_bind_eq_ok h
    exact (goesOn_settle hsettle).trans (goesOn_store hstore)
  · obtain ⟨settled, hsettle, hpending⟩ := exists_of_bind_eq_ok h
    cases hpending
    have hsettled := goesOn_settle hsettle
    exact ⟨hsettled.verb, hsettled.flags⟩
  · cases h
  · exact (goesOn_raise h).1
  · cases h

theorem goesOn_takeShort {letters : List Char} (h : reading.takeShort letters = .ok next) :
    GoesOn reading next := by
  induction letters generalizing reading with
  | nil =>
    cases h
    exact .refl _
  | cons letter rest ih =>
    unfold takeShort at h
    split at h
    · obtain ⟨raised, hraise, hrest⟩ := exists_of_bind_eq_ok h
      exact (goesOn_raise hraise).1.trans (ih hrest)
    · cases h

theorem goesOn_takePlain (h : reading.takePlain text = .ok next) : GoesOn reading next := by
  unfold takePlain at h
  split at h
  · cases h
    exact ⟨rfl, List.Subset.refl _⟩
  · cases h

/-- Taking an argument changes no task and loses no flag. -/
theorem goesOn_take (h : reading.take text = .ok next) : GoesOn reading next := by
  unfold take at h
  split at h
  · cases h
  · split at h
    · cases h
      exact ⟨rfl, List.Subset.refl _⟩
    · exact goesOn_takeLong h
    · exact goesOn_takeShort h
    · exact goesOn_takePlain h

theorem goesOn_foldlM (h : arguments.foldlM take reading = .ok last) : GoesOn reading last := by
  induction arguments generalizing reading with
  | nil =>
    cases h
    exact .refl _
  | cons text rest ih =>
    rw [List.foldlM_cons] at h
    obtain ⟨middle, htake, hrest⟩ := exists_of_bind_eq_ok h
    exact (goesOn_take htake).trans (ih hrest)

def dryRunOption : String :=
  "--" ++ Flag.dryRun.name

/-- The option for a dry run is no setting, and it raises no flag but its own. -/
theorem dryRun_of_take (h : reading.take dryRunOption = .ok next) : .dryRun ∈ next.flags := by
  have hshape : Shape.ofText dryRunOption = .long Flag.dryRun.name none := by decide
  have hsetting : reading.verb.settings.find? (fun setting ↦ setting.name == Flag.dryRun.name) =
      none := by
    cases reading.verb <;> decide
  unfold take at h
  split at h
  · cases h
  · rw [hshape] at h
    dsimp only at h
    unfold takeLong at h
    rw [hsetting] at h
    cases hflag : reading.verb.flags.find? fun flag ↦ flag.name == Flag.dryRun.name with
    | none =>
      rw [hflag] at h
      cases h
    | some flag =>
      rw [hflag] at h
      have hname : flag.name = Flag.dryRun.name := by simpa using List.find?_some hflag
      have hraised := (goesOn_raise h).2
      cases flag with
      | dryRun => exact hraised
      | _ => exact absurd hname (by decide)

/-- The option for a dry run raises its flag wherever it stands among the arguments. -/
theorem dryRun_of_foldlM (h : arguments.foldlM take reading = .ok last)
    (hmem : dryRunOption ∈ arguments) : .dryRun ∈ last.flags := by
  induction arguments generalizing reading with
  | nil => cases hmem
  | cons text rest ih =>
    rw [List.foldlM_cons] at h
    obtain ⟨middle, htake, hrest⟩ := exists_of_bind_eq_ok h
    rcases List.mem_cons.1 hmem with rfl | hmem
    · exact (goesOn_foldlM hrest).flags (dryRun_of_take htake)
    · exact ih hrest hmem

theorem goesOn_takeEnvironment (h : reading.takeEnvironment environment = .ok next) :
    GoesOn reading next := by
  unfold takeEnvironment at h
  split at h
  · cases h
    exact .refl _
  · split at h
    · exact goesOn_store h
    · cases h
      exact .refl _

end Reading

/-- A command that was read has the flags that were given, and a dry run is among them when asked
for. -/
theorem readOptions_ok {verb : Verb} (h : readOptions environment verb arguments = .ok command) :
    ∃ reading : Reading, reading.verb = verb ∧
      (Reading.dryRunOption ∈ arguments → .dryRun ∈ reading.flags) ∧
      command = ⟨reading.choice, reading.task⟩ := by
  obtain ⟨taken, htaken, h⟩ := exists_of_bind_eq_ok h
  obtain ⟨settled, hsettled, h⟩ := exists_of_bind_eq_ok h
  obtain ⟨reading, hreading, hcommand⟩ := exists_of_bind_eq_ok h
  have hrest : taken.GoesOn reading :=
    (Reading.goesOn_settle hsettled).trans (Reading.goesOn_takeEnvironment hreading)
  cases hcommand
  refine ⟨reading, ?_, fun hmem ↦ ?_, rfl⟩
  · exact ((Reading.goesOn_foldlM htaken).trans hrest).verb
  · exact hrest.flags (Reading.dryRun_of_foldlM htaken hmem)

/-- A command line begins with the word for its task. The option for a dry run is no such word, so
it is one of the arguments behind it. -/
theorem read_ok (h : read environment arguments = .ok command) :
    ∃ reading : Reading, arguments.head? = some reading.verb.word ∧
      (Reading.dryRunOption ∈ arguments → .dryRun ∈ reading.flags) ∧
      command = ⟨reading.choice, reading.task⟩ := by
  cases arguments with
  | nil => cases h
  | cons text rest =>
    simp only [read] at h
    cases hverb : Verb.ofWord? text with
    | none =>
      rw [hverb] at h
      cases hshape : Shape.ofText text <;> rw [hshape] at h <;> cases h
    | some verb =>
      rw [hverb] at h
      have hword : verb.word = text := by simpa using List.find?_some hverb
      obtain ⟨reading, rfl, hdry, hcommand⟩ := readOptions_ok h
      refine ⟨reading, by rw [List.head?_cons, hword], fun hmem ↦ ?_, hcommand⟩
      rcases List.mem_cons.1 hmem with hfirst | hrest
      · have hnoWord : Verb.ofWord? Reading.dryRunOption = none := by decide
        rw [← hfirst, hnoWord] at hverb
        cases hverb
      · exact hdry hrest

end Phrasebook.CommandLine
