import Phrasebook.Proofs.Command.ReadOnly
import Phrasebook.Proofs.Extraction.Writes
import Phrasebook.Proofs.Session.Log

/-!
# Files whose change failed

Texts are written into the files of a project in place. A source that could not be saved, a catalog
of a locale that failed and an entry file in which nothing could be registered are reported, and the
run goes on or ends; what is in such a file by then is what the host left in it. It is what was
there before only if no change reached the file, or the last one that did left just that.
-/

namespace Phrasebook

open Run (Accounted)

/-! ## The steps of a command -/

theorem CatalogFile.accounted_write (path : Path) (catalog : Catalog) :
    Accounted (CatalogFile.write path catalog) := by
  unfold CatalogFile.write
  have hwrite : Accounted ((Run.writeText path catalog.write).adapt (Fault.unwritable path)) :=
    (Run.accounted_writeText _ _).adapt _
  cases path.parent? with
  | none => exact hwrite
  | some parent => exact ((Run.accounted_ensureDirectories parent).adapt _).bind fun _ ↦ hwrite

namespace Extraction

/-- Every change that the visit of a source tries is on the record of the session. -/
theorem accounted_visit (project : Project) (dryRun : Bool) (progress : Progress) (path : Path) :
    Accounted (visit project dryRun progress path) := by
  unfold visit
  refine Run.accounted_disk.bind fun disk ↦ ?_
  dsimp only
  split
  · exact (Run.accounted_warn _).bind fun _ ↦ Run.accounted_pure _
  · split
    · exact (Run.accounted_warn _).bind fun _ ↦ Run.accounted_pure _
    · exact Run.accounted_throw _
    · refine Run.accounted_ite ((Run.accounted_warn _).bind fun _ ↦ ?rest) ?rest
      refine (Run.accounted_warnAll _).bind fun _ ↦ ?_
      refine (Run.accounted_ite (Run.accounted_writeText _ _) (Run.accounted_pure ())).outcome.bind
        fun saved ↦ ?_
      cases saved with
      | error cause => exact (Run.accounted_warn _).bind fun _ ↦ Run.accounted_pure _
      | ok _ => exact Run.accounted_pure _

theorem accounted_visitAll (project : Project) (dryRun : Bool) (progress : Progress)
    (files : List Path) : Accounted (visitAll project dryRun progress files) := by
  induction files generalizing progress with
  | nil => exact Run.accounted_pure _
  | cons path rest ih =>
    exact (accounted_visit project dryRun progress path).bind fun next ↦ ih next

theorem accounted_run (project : Project) (dryRun : Bool) : Accounted (run project dryRun) := by
  unfold run
  refine ((CatalogFile.leads_read _).accounted.adapt _).bind fun catalog ↦ ?_
  refine (project.leads_scan.accounted.adapt _).bind fun files ↦ ?_
  refine (accounted_visitAll project dryRun _ files).bind fun progress ↦ ?_
  cases dryRun with
  | true => exact Run.accounted_pure _
  | false =>
    exact ((CatalogFile.accounted_write _ _).adapt _).bind fun _ ↦ Run.accounted_pure _

end Extraction

theorem Entry.accounted_register (project : Project) (locales : List String) (dryRun : Bool) :
    Accounted (Entry.register project locales dryRun) := by
  unfold register
  refine Run.accounted_disk.bind fun disk ↦ ?_
  split
  · exact (Run.accounted_warn _).bind fun _ ↦ Run.accounted_pure _
  · next entry _ =>
    split
    · exact Run.accounted_throw _
    · next code _ =>
      split
      · exact Run.accounted_throw _
      · exact Run.accounted_throw _
      · next outcome _ =>
        refine Run.accounted_ite ((Run.accounted_warn _).bind fun _ ↦ ?rest) ?rest
        refine Run.accounted_ite (Run.accounted_pure _) ?_
        refine Run.accounted_ite ?_ (Run.accounted_pure _)
        exact ((Run.accounted_writeText _ _).adapt _).bind fun _ ↦ Run.accounted_pure _

namespace Sync

variable (options : SyncOptions) (source : Catalog) (provider? : Option Provider)

theorem accounted_ask (provider : Provider) (request : ProviderRequest) :
    Accounted (ask provider request) :=
  fun host _ ↦ .of_sameFiles host ⟨rfl, rfl⟩

theorem accounted_fillBatch (provider : Provider) (locale : String) (target : Catalog)
    (batch : List (String × String)) :
    Accounted (fillBatch options provider locale target batch) := by
  unfold fillBatch
  refine (accounted_ask provider _).bind fun answer ↦ ?_
  cases answer with
  | error fault => exact (Run.accounted_warn _).bind fun _ ↦ Run.accounted_pure _
  | ok answer =>
    exact Run.accounted_ite ((Run.accounted_warn _).bind fun _ ↦ Run.accounted_pure _)
      (Run.accounted_pure _)

theorem accounted_fill (provider : Provider) (locale : String) (target : Catalog)
    (batches : List (List (String × String))) :
    Accounted (fill options provider locale target batches) := by
  induction batches generalizing target with
  | nil => exact Run.accounted_pure _
  | cons batch rest ih =>
    exact (accounted_fillBatch options provider locale target batch).bind fun filled ↦
      (ih filled.1).bind fun others ↦ Run.accounted_pure _

theorem accounted_syncLocale (locale : String) :
    Accounted (syncLocale options source provider? locale) := by
  unfold syncLocale
  refine (CatalogFile.leads_read _).accounted.bind fun target ↦ ?_
  refine Run.accounted_ite (Run.accounted_pure _) ?_
  cases provider? with
  | none => exact Run.accounted_pure _
  | some provider =>
    refine (accounted_fill options provider locale target _).bind fun filled ↦ ?_
    exact Run.accounted_ite ((CatalogFile.accounted_write _ _).bind fun _ ↦ Run.accounted_pure _)
      (Run.accounted_pure _)

theorem accounted_outcomeOf (locale : String) :
    Accounted (outcomeOf options source provider? locale) := by
  unfold outcomeOf
  refine (accounted_syncLocale options source provider? locale).outcome.bind fun answer ↦ ?_
  cases answer with
  | ok outcome => exact Run.accounted_pure _
  | error cause => exact (Run.accounted_warn _).bind fun _ ↦ Run.accounted_pure _

theorem accounted_syncAll (targets seen : List String) :
    Accounted (syncAll options source provider? seen targets) := by
  induction targets generalizing seen with
  | nil => exact Run.accounted_pure _
  | cons locale rest ih =>
    unfold syncAll
    refine Run.accounted_ite ((Run.accounted_warn _).bind fun _ ↦ ih seen) ?_
    refine Run.accounted_ite (ih seen) ?_
    exact (accounted_outcomeOf options source provider? locale).bind fun outcome ↦
      (ih (locale :: seen)).bind fun others ↦ Run.accounted_pure _

theorem accounted_catalogs (targets : List String) :
    Accounted (catalogs options targets provider?) := by
  unfold catalogs
  refine Run.accounted_disk.bind fun disk ↦ ?_
  have hrest (path : Path) : Accounted ((CatalogFile.read path).adapt (Fault.unusable path) >>=
      fun source ↦ syncAll options source provider? [] targets) :=
    ((CatalogFile.leads_read path).accounted.adapt _).bind fun source ↦
      accounted_syncAll options source provider? targets []
  exact Run.accounted_ite ((Run.accounted_throw _).bind fun _ ↦ hrest _) (hrest _)

theorem accounted_run (project : Project) (targets : List String) :
    Accounted (run project targets provider?) := by
  unfold run
  refine ((accounted_catalogs _ provider? targets).adapt _).bind fun locales ↦ ?_
  refine Run.accounted_ite (Run.accounted_pure _) ?_
  unfold registerUpdated
  refine (Entry.accounted_register project _ false).outcome.bind fun answer ↦ ?_
  split
  · exact Run.accounted_pure _
  · exact Run.accounted_throw _
  · exact (Run.accounted_warn _).bind fun _ ↦ Run.accounted_pure _

end Sync

namespace Command

theorem accounted_replace (project : Project) (dryRun : Bool) :
    Accounted (replace project dryRun) := by
  unfold replace
  refine ((Extraction.accounted_run project dryRun).adapt _).bind fun report ↦ ?_
  refine Run.accounted_ite (Run.accounted_pure _) ?_
  refine (leads_listedLocales project).accounted.bind fun locales ↦ ?_
  refine (Entry.accounted_register project _ false).outcome.bind fun answer ↦ ?_
  split
  · exact Run.accounted_pure _
  · exact Run.accounted_throw _
  · exact (Run.accounted_warn _).bind fun _ ↦ Run.accounted_pure _

theorem accounted_translate (project : Project) (named : List String) (dryRun marking : Bool) :
    Accounted (translate project named dryRun marking) := by
  have hsync (targets : List String) (provider? : Option Provider) :
      Accounted (translateWith project targets provider?) := by
    refine (Sync.accounted_run provider? project targets).outcome.bind fun answer ↦ ?_
    split
    · exact Run.accounted_pure _
    · exact Run.accounted_throw _
    · exact Run.accounted_pure _
  have hprovider : Accounted (providerFor project marking) := by
    have hhost : Accounted (readThe Host : Run Fault Host) :=
      fun host session ↦ .of_sameFiles host (.refl session)
    refine Run.accounted_ite (Run.accounted_pure _) (hhost.bind fun host ↦ ?_)
    refine Run.accounted_disk.bind fun disk ↦ ?_
    split <;> exact Run.accounted_pure _
  have htargets : Accounted (targetsOf project named) :=
    Run.accounted_ite ((leads_listedLocales project).accounted.bind fun _ ↦ Run.accounted_pure _)
      (Run.accounted_pure _)
  unfold translate
  refine htargets.bind fun targets ↦ Run.accounted_ite (Run.accounted_pure _) ?_
  refine Run.accounted_ite (hsync targets none) (hprovider.bind fun provider ↦ ?_)
  cases provider with
  | error message => exact Run.accounted_pure _
  | ok provider => exact hsync targets (some provider)

theorem accounted_register (project : Project) (others : List String) (dryRun : Bool) :
    Accounted (register project others dryRun) := by
  unfold register
  refine (leads_listedLocales project).accounted.bind fun locales ↦ ?_
  refine ((Entry.accounted_register project _ dryRun).adapt _).bind fun outcome ↦ ?_
  cases outcome <;> exact Run.accounted_pure _

/-- The changes that a command tries account for what it does to the files. -/
theorem accounted_run (command : Command) : Accounted command.run := by
  unfold run
  refine Run.accounted_disk.bind fun disk ↦ ?_
  refine ((Run.accounted_ofExcept _).adapt _).bind fun project ↦ ?_
  cases command.task with
  | replace dryRun style? => exact accounted_replace _ dryRun
  | translate locales dryRun marking => exact accounted_translate project locales dryRun marking
  | register locales dryRun => exact accounted_register project locales dryRun
  | check => exact (leads_check project).accounted

end Command

/-- Why locales could not be registered at the end of a command. -/
def Summary.registrationError? : Summary → Option String
  | .replaced _ _ _ error? => error?
  | .translated report _ => report.registrationError?
  | _ => none

/-- The files of a project whose change failed by what a command answers, given the disks before and
after it. -/
inductive Project.FailedFile (project : Project) (before after : Disk) :
    Except Command.Fault Conclusion → Path → Prop
  /-- A source that could not be saved. -/
  | source {conclusion : Conclusion} {files : List Path} {path : Path} {reason : String}
      (hscanned : project.scanned before = .ok files) (hpath : path ∈ files)
      (hissue : .unwritable (project.shown path) reason ∈ conclusion.issues) :
      FailedFile project before after (.ok conclusion) path
  /-- The catalog of a locale that failed. -/
  | catalog {conclusion : Conclusion} {report : SyncReport} {dryRun : Bool}
      {locale reason : String} (hsummary : conclusion.summary = .translated report dryRun)
      (hlocale : ⟨locale, .failed reason⟩ ∈ report.locales) :
      FailedFile project before after (.ok conclusion) (project.catalogPath locale)
  /-- The entry file, when the conclusion says that nothing could be registered in it. -/
  | entry {conclusion : Conclusion} {reason : String} {path : Path}
      (hreason : conclusion.summary.registrationError? = some reason)
      (hentry : project.entryFile? after = some path) :
      FailedFile project before after (.ok conclusion) path
  /-- The entry file, when the command fails at it. Nothing is reported of one that is cut. -/
  | injection {cause : Entry.Fault} {path : Path} (huncut : ∀ path, cause ≠ .cutsCharacter path)
      (hentry : project.entryFile? after = some path) :
      FailedFile project before after (.error (.entry cause)) path

/-- The file that a path leads to is as it was. -/
def Disk.HoldsOld (before after : Disk) (path : Path) : Prop :=
  ∀ place, after.locate path = .ok place → after.fileAt? place = before.fileAt? place

/-- No change reached the file that a path leads to, or the last one that left anything in it left
what was there. -/
def Host.LeavesOld (host : Host) (before : Disk) (after : Session) (path : Path) : Prop :=
  ∀ place contents, after.disk.locate path = .ok place →
    host.lastLeft? place [] after.changes = some contents → before.fileAt? place = some contents

/-- What a session tried decides whether a file is as it was at its end. -/
theorem Session.Accounts.holdsOld_iff {host : Host} {before : Disk} {after : Session}
    (h : Session.Accounts host (.start before) after) (path : Path) :
    before.HoldsOld after.disk path ↔ host.LeavesOld before after path := by
  obtain ⟨log, hlog, hfiles⟩ := h
  obtain rfl : after.changes = log := hlog
  have hplace (place : Disk.Place) :
      after.disk.fileAt? place = before.fileAt? place ↔
        ∀ contents, host.lastLeft? place [] after.changes = some contents →
          before.fileAt? place = some contents := by
    have hfile : after.disk.fileAt? place =
        (host.lastLeft? place [] after.changes).or (before.fileAt? place) := hfiles place
    rw [hfile]
    cases host.lastLeft? place [] after.changes with
    | none => simp
    | some contents => simp [eq_comm]
  constructor
  · exact fun hold place contents hlocate ↦ (hplace place).1 (hold place hlocate) contents
  · exact fun hleft place hlocate ↦
      (hplace place).2 fun contents ↦ hleft place contents hlocate

namespace Command

/-- After a command, every file whose change failed is as it was. -/
def KeepsFailed (command : Command) (host : Host) (disk : Disk) : Prop :=
  ∀ project path, Project.open? disk command.choice = .ok project →
    project.FailedFile disk (command.run.start host (.start disk)).2.disk
      (command.run.start host (.start disk)).1 path →
    disk.HoldsOld (command.run.start host (.start disk)).2.disk path

/-- The files whose change failed are as they were exactly if, in each of them, the changes that the
command tried left nothing or at last what was there. -/
theorem keepsFailed_iff (command : Command) (host : Host) (disk : Disk) :
    command.KeepsFailed host disk ↔
      ∀ project path, Project.open? disk command.choice = .ok project →
        project.FailedFile disk (command.run.start host (.start disk)).2.disk
          (command.run.start host (.start disk)).1 path →
        host.LeavesOld disk (command.run.start host (.start disk)).2 path := by
  have haccounts := accounted_run command host (.start disk)
  exact forall₄_congr fun project path _ _ ↦ haccounts.holdsOld_iff path

/-- A host that lets no file grow beyond some bytes. -/
def cappedHost : Host where
  environment := []
  refusal? _ change :=
    match change with
    | .write _ contents => if 5 < contents.size then some ⟨some 5, .tooLarge⟩ else none
    | .create _ => none
  transport _ _ := .unreachable ""

/-- A source of which only a part could be saved has lost its text. -/
theorem not_keepsFailed_capped :
    ¬ KeepsFailed ⟨{}, .replace false none⟩ cappedHost Extraction.greetingDisk := by
  intro hkeeps
  have hopen : Project.open? Extraction.greetingDisk {} = .ok Extraction.plainProject := by
    decide +kernel
  have hscanned : Extraction.plainProject.scanned Extraction.greetingDisk =
      .ok [⟨"/p/src/a.tsx"⟩] := by decide +kernel
  have hshown : Extraction.plainProject.shown ⟨"/p/src/a.tsx"⟩ = "src/a.tsx" := by decide +kernel
  have hrun :
      let result := (run ⟨{}, .replace false none⟩).start cappedHost
        (.start Extraction.greetingDisk)
      result.1.toOption.map (·.issues) =
          some [.unwritable "src/a.tsx" Disk.Fault.tooLarge.describe] ∧
        result.2.disk.locate ⟨"/p/src/a.tsx"⟩ = .ok ["p", "src", "a.tsx"] ∧
        result.2.disk.fileAt? ["p", "src", "a.tsx"] ≠
          Extraction.greetingDisk.fileAt? ["p", "src", "a.tsx"] := by decide +kernel
  have hfailed := hkeeps Extraction.plainProject ⟨"/p/src/a.tsx"⟩ hopen
  revert hrun hfailed
  generalize (run ⟨{}, .replace false none⟩).start cappedHost (.start Extraction.greetingDisk) =
    result
  obtain ⟨answer, final⟩ := result
  rintro ⟨hissues, hlocate, hchanged⟩ hfailed
  cases answer with
  | error fault => cases hissues
  | ok conclusion =>
    have hsame : conclusion.issues = [_] := Option.some.inj hissues
    have hissue : .unwritable (Extraction.plainProject.shown ⟨"/p/src/a.tsx"⟩)
        Disk.Fault.tooLarge.describe ∈ conclusion.issues := by
      rw [hsame, hshown]
      exact List.mem_singleton.2 rfl
    exact hchanged (hfailed (.source hscanned (List.mem_singleton.2 rfl) hissue) _ hlocate)

end Command

end Phrasebook
