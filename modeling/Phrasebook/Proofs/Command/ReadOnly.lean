import Phrasebook.Command.Run
import Phrasebook.Proofs.CommandLine.Flags
import Phrasebook.Proofs.Extraction.Dry

/-!
# Commands that only look

A check and every dry run leave the disk as it is and send no request, however they end. Each step
of such a command leads to nothing but warnings, and so does their chain. The one step in it that
writes whatever the command line says is the registration behind a synchronization: it takes place
only after a catalog was written, and without a provider no locale counts as written.
-/

namespace Phrasebook

open Run (Leads Ensures)

theorem CatalogFile.leads_read (path : Path) :
    Leads Session.OnlyWarned (CatalogFile.read path) := by
  intro host session
  obtain ⟨warnings, hread⟩ := CatalogFile.start_read host session path
  rw [hread]
  exact session.onlyWarned_warnings warnings

theorem CatalogFile.leads_locales (directory : Path) :
    Leads Session.OnlyWarned (CatalogFile.locales directory) := by
  unfold CatalogFile.locales
  refine Run.leads_disk.bind fun disk ↦ Run.leads_ite (Run.leads_pure []) ?_
  cases disk.list directory with
  | error cause => exact Run.leads_throw _
  | ok names => exact Run.leads_pure _

theorem Project.leads_scan (project : Project) : Leads Session.OnlyWarned project.scan := by
  intro host session
  obtain ⟨warned, hwarned, hscan⟩ := project.start_scan host session
  rw [hscan]
  exact hwarned

theorem Extraction.leads_run_dry (project : Project) :
    Leads Session.OnlyWarned (Extraction.run project true) := by
  intro host session
  obtain ⟨warned, hwarned, hstart⟩ := start_run_dry project host session
  rw [hstart]
  exact hwarned

theorem Check.leads_run (project : Project) : Leads Session.OnlyWarned (Check.run project) := by
  unfold run
  refine ((CatalogFile.leads_read _).adapt _).bind fun catalog ↦ ?_
  refine (project.leads_scan.adapt _).bind fun files ↦ ?_
  refine Run.leads_disk.bind fun disk ↦ ?_
  exact (Run.leads_ofExcept _).bind fun report ↦ Run.leads_pure _

/-- Registering locales leaves the disk alone when the run is dry. -/
theorem Entry.leads_register_dry (project : Project) (locales : List String) :
    Leads Session.OnlyWarned (Entry.register project locales true) := by
  unfold register
  refine Run.leads_disk.bind fun disk ↦ ?_
  cases project.entryFile? disk with
  | none => exact (Run.leads_warn _).bind fun _ ↦ Run.leads_pure _
  | some entry =>
    dsimp only
    cases disk.readText entry with
    | error cause => exact Run.leads_throw _
    | ok code =>
      dsimp only
      cases Registration.ofSource (planOf project entry locales) entry code with
      | error fault => cases fault <;> exact Run.leads_throw _
      | ok outcome =>
        have hrest : Leads Session.OnlyWarned
            (if outcome.output == code then (pure (.unchanged entry) : Run Fault Outcome)
            else pure (.updated entry outcome.locales)) :=
          Run.leads_ite (Run.leads_pure _) (Run.leads_pure _)
        exact Run.leads_ite ((Run.leads_warn _).bind fun _ ↦ hrest) hrest

namespace Sync

variable (options : SyncOptions) (source : Catalog)

/-- Without a provider no locale counts as written. -/
theorem ensures_syncLocale_dry (locale : String) :
    Ensures Session.OnlyWarned (fun outcome ↦ LocaleReport.isUpdated ⟨locale, outcome⟩ = false)
      (syncLocale options source none locale) := by
  unfold syncLocale
  refine (CatalogFile.leads_read _).ensures.bind fun target _ ↦ ?_
  dsimp only
  split
  · exact Run.ensures_pure rfl
  · exact Run.ensures_pure rfl

theorem ensures_outcomeOf_dry (locale : String) :
    Ensures Session.OnlyWarned (fun outcome ↦ LocaleReport.isUpdated ⟨locale, outcome⟩ = false)
      (outcomeOf options source none locale) := by
  unfold outcomeOf
  refine (ensures_syncLocale_dry options source locale).outcome.bind fun answer hanswer ↦ ?_
  cases answer with
  | ok outcome => exact Run.ensures_pure (hanswer outcome rfl)
  | error cause => exact (Run.leads_warn _).ensures.bind fun _ _ ↦ Run.ensures_pure rfl

/-- Without a provider, the turns of a synchronization write nothing and report no update. -/
theorem ensures_syncAll_dry (targets seen : List String) :
    Ensures Session.OnlyWarned (fun reports ↦ ∀ report ∈ reports, report.isUpdated = false)
      (syncAll options source none seen targets) := by
  induction targets generalizing seen with
  | nil => exact Run.ensures_pure (List.forall_mem_nil _)
  | cons locale rest ih =>
    unfold syncAll
    split
    · exact (Run.leads_warn _).ensures.bind fun _ _ ↦ ih seen
    · split
      · exact ih seen
      · refine (ensures_outcomeOf_dry options source locale).bind fun outcome houtcome ↦ ?_
        refine (ih (locale :: seen)).bind fun others hothers ↦ ?_
        exact Run.ensures_pure (List.forall_mem_cons.2 ⟨houtcome, hothers⟩)

/-- Without a provider, a synchronization writes nothing and reports no update. -/
theorem ensures_catalogs_dry (targets : List String) :
    Ensures Session.OnlyWarned (fun reports ↦ ∀ report ∈ reports, report.isUpdated = false)
      (catalogs options targets none) := by
  unfold catalogs
  refine Run.leads_disk.ensures.bind fun disk _ ↦ ?_
  dsimp only
  split
  · have hthrow (fault : Fault) : Ensures Session.OnlyWarned (fun _ : PUnit ↦ False)
        (throw fault : Run Fault PUnit) := Run.ensures_throw fault
    exact (hthrow _).bind fun _ habsurd ↦ habsurd.elim
  · refine ((CatalogFile.leads_read _).adapt _).ensures.bind fun source _ ↦ ?_
    exact ensures_syncAll_dry options source targets []

/-- Without a provider there is nothing to register, so the entry file is not reached. -/
theorem leads_run_dry (project : Project) (targets : List String) :
    Leads Session.OnlyWarned (run project targets none) := by
  unfold run
  refine ((ensures_catalogs_dry _ targets).adapt _).bind_leads fun reports hreports ↦ ?_
  have hnone : ({ locales := reports } : SyncReport).updatedLocales = [] := by
    unfold SyncReport.updatedLocales
    rw [List.filter_eq_nil_iff.2 fun report hreport ↦ by simp [hreports report hreport]]
    rfl
  simp only [hnone, List.isEmpty_nil, if_true]
  exact Run.leads_pure _

end Sync

def Task.onlyLooks : Task → Bool
  | .replace dryRun _ => dryRun
  | .translate _ dryRun _ => dryRun
  | .register _ dryRun => dryRun
  | .check => true

namespace Command

theorem leads_listedLocales (project : Project) :
    Leads Session.OnlyWarned (listedLocales project) :=
  (CatalogFile.leads_locales _).adapt _

theorem leads_replace_dry (project : Project) :
    Leads Session.OnlyWarned (replace project true) := by
  unfold replace
  refine ((Extraction.leads_run_dry project).adapt _).bind fun report ↦ ?_
  exact Run.leads_pure _

theorem leads_translate_dry (project : Project) (named : List String) (marking : Bool) :
    Leads Session.OnlyWarned (translate project named true marking) := by
  have htargets : Leads Session.OnlyWarned (targetsOf project named) := by
    unfold targetsOf
    refine Run.leads_ite ?_ (Run.leads_pure named)
    exact (leads_listedLocales project).bind fun locales ↦ Run.leads_pure _
  unfold translate
  refine htargets.bind fun targets ↦ Run.leads_ite (Run.leads_pure _) ?_
  refine (Sync.leads_run_dry project targets).outcome.bind fun answer ↦ ?_
  split
  · exact Run.leads_pure _
  · exact Run.leads_throw _
  · exact Run.leads_pure _

theorem leads_register_dry (project : Project) (others : List String) :
    Leads Session.OnlyWarned (register project others true) := by
  unfold register
  refine (leads_listedLocales project).bind fun locales ↦ ?_
  refine ((Entry.leads_register_dry project _).adapt _).bind fun outcome ↦ ?_
  cases outcome with
  | noEntryFile => exact Run.leads_pure _
  | unchanged path => exact Run.leads_pure _
  | updated path locales => exact Run.leads_pure _

theorem leads_check (project : Project) : Leads Session.OnlyWarned (check project) := by
  unfold check
  refine ((Check.leads_run project).adapt _).bind fun report ↦ ?_
  exact Run.leads_pure _

/-- A command that only looks leaves nothing but warnings behind. -/
theorem leads_run_onlyLooks {command : Command} (h : command.task.onlyLooks = true) :
    Leads Session.OnlyWarned command.run := by
  unfold run
  refine Run.leads_disk.bind fun disk ↦ ?_
  refine ((Run.leads_ofExcept _).adapt _).bind fun project ↦ ?_
  obtain ⟨choice, task⟩ := command
  cases task with
  | replace dryRun style? =>
    cases (h : dryRun = true)
    exact leads_replace_dry _
  | translate locales dryRun marking =>
    cases (h : dryRun = true)
    exact leads_translate_dry project locales marking
  | register locales dryRun =>
    cases (h : dryRun = true)
    exact leads_register_dry project locales
  | check => exact leads_check project

end Command

namespace CommandLine

/-- Arguments that ask for a check or for a dry run. -/
def AsksToLook (arguments : List String) : Prop :=
  arguments.head? = some Verb.check.word ∨ Reading.dryRunOption ∈ arguments

instance (arguments : List String) : Decidable (AsksToLook arguments) :=
  inferInstanceAs (Decidable (_ ∨ _))

variable {environment : List (String × String)} {arguments : List String} {command : Command}

/-- A command line that asks for a check or a dry run is read as a task that only looks. -/
theorem onlyLooks_of_read (hread : read environment arguments = .ok command)
    (hlooks : AsksToLook arguments) : command.task.onlyLooks = true := by
  obtain ⟨reading, hverb, hdry, rfl⟩ := read_ok hread
  rcases hlooks with hcheck | hoption
  · have hword : reading.verb.word = Verb.check.word := Option.some.inj (hverb.symm.trans hcheck)
    have hverb : reading.verb = .check := by
      cases hreading : reading.verb with
      | check => rfl
      | _ =>
        rw [hreading] at hword
        exact absurd hword (by decide)
    simp only [Reading.task, hverb, Task.onlyLooks]
  · have hflag : reading.has .dryRun = true := List.elem_iff.2 (hdry hoption)
    cases hverb : reading.verb <;> simp only [Reading.task, hverb, hflag, Task.onlyLooks]

/-- A command line that asks for a check or for a dry run changes nothing: wherever the command
ends, the disk is as it was, no change of it was tried and no request was sent. -/
theorem run_readOnly (hread : read environment arguments = .ok command)
    (hlooks : AsksToLook arguments) (host : Host) (session : Session) :
    session.OnlyWarned (command.run.start host session).2 :=
  Command.leads_run_onlyLooks (onlyLooks_of_read hread hlooks) host session

/-- A dry run of the conversion of a project that has something to convert. -/
theorem run_readOnly_greeting :
    let arguments := ["replace", "-v", "--dry-run", "--lookup-style", "hook"]
    let command : Command := ⟨{ verbose := true }, .replace true (some .hook)⟩
    let session := Session.start Extraction.greetingDisk
    read [] arguments = .ok command ∧ AsksToLook arguments ∧
      (command.run.start Extraction.quietHost session).1.toOption.isSome ∧
      session.OnlyWarned (command.run.start Extraction.quietHost session).2 := by
  intro arguments command session
  have hread : read [] arguments = .ok command := by decide
  have hlooks : AsksToLook arguments := by decide
  refine ⟨hread, hlooks, by decide +kernel, ?_⟩
  exact run_readOnly hread hlooks Extraction.quietHost session

end CommandLine

end Phrasebook
