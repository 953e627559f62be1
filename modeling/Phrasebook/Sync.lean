import Phrasebook.Entry
import Phrasebook.Plural.Normalize

/-!
# Synchronizing catalogs

The catalogs of target locales are filled from the source catalog: a key that a target lacks, or
has without a text, is translated by a provider. Keys are sent in batches, in the order of the
source catalog. A batch that fails leaves its keys as they were, and a locale that fails leaves the
others alone. A dry run only counts.
-/

namespace Phrasebook

/-- Where the catalogs are and how they are filled. -/
structure SyncOptions where
  catalogDir : Path
  sourceLocale : String
  batchSize : Nat
deriving DecidableEq, Repr

/-- What came of one locale. -/
inductive LocaleOutcome where
  | upToDate
  | wouldTranslate (missing : Nat)
  | translated (translated failed : Nat)
  | failed (reason : String)
deriving DecidableEq, Repr

/-- A locale with what came of it. -/
structure LocaleReport where
  locale : String
  outcome : LocaleOutcome
deriving DecidableEq, Repr

/-- What came of a synchronization. -/
structure SyncReport where
  locales : List LocaleReport := []
  registration? : Option Entry.Outcome := none
  registrationError? : Option String := none
deriving DecidableEq, Repr

def LocaleReport.isUpdated (report : LocaleReport) : Bool :=
  match report.outcome with
  | .translated translated _ => 0 < translated
  | _ => false

/-- Whether a locale failed as a whole or in part. -/
def LocaleReport.hasFailures (report : LocaleReport) : Bool :=
  match report.outcome with
  | .failed _ => true
  | .translated _ failed => 0 < failed
  | _ => false

namespace SyncReport

def updatedLocales (report : SyncReport) : List String :=
  (report.locales.filter LocaleReport.isUpdated).map (·.locale)

/-- Whether some locale failed as a whole or in part. -/
def hasFailures (report : SyncReport) : Bool :=
  report.locales.any LocaleReport.hasFailures

end SyncReport

namespace Sync

/-- Why nothing could be synchronized. -/
inductive Fault where
  | sourceMissing (path : Path)
  | unusable (path : Path) (cause : CatalogFile.Fault)
deriving DecidableEq, Repr

def Fault.describe : Fault → String
  | sourceMissing path =>
    "source catalog not found: " ++ path.text ++ " (run \x60localise replace\x60 first)"
  | unusable path cause =>
    "failed to load catalog " ++ path.text ++ ": " ++ ": ".intercalate cause.messages

def lacks (target : Catalog) (key : String) : Bool :=
  ((target.get? key).map Text.isBlankText).getD true

/-- The entries of the source catalog for which a target has no text. -/
def missing (source target : Catalog) : List (String × String) :=
  source.entries.filter fun (key, _) ↦ lacks target key

/-- The text that an answer gives for a key, unless it is blank. -/
def answerFor? (answer : Catalog) (key : String) : Option String :=
  ((answer.get? key).map Plural.normalize).filter fun text ↦ !Text.isBlankText text

/-- A target with the answers for the keys of a batch, and the number of keys that were filled. -/
def merge (answer : Catalog) : Catalog → List (String × String) → Catalog × Nat
  | target, [] => (target, 0)
  | target, (key, _) :: rest =>
    match answerFor? answer key with
    | some text =>
      let (target, count) := merge answer (target.set key text) rest
      (target, count + 1)
    | none => merge answer target rest

/-- A list cut into pieces of a size that is not zero. -/
def batches {α : Type} (size : Nat) (items : List α) : List (List α) :=
  if h : items = [] then []
  else
    have : (items.drop (size - 1 + 1)).length < items.length := by
      have := List.length_pos_iff.2 h
      rw [List.length_drop]
      omega
    items.take (size - 1 + 1) :: batches size (items.drop (size - 1 + 1))
termination_by items.length

/-- Sends a request to a provider. -/
def ask (provider : Provider) (request : ProviderRequest) :
    Run CatalogFile.Fault (Except ProviderFault Catalog) := do
  let earlier := (← get).requests
  modify fun session ↦ { session with requests := earlier ++ [request] }
  return provider earlier request

/-- A target with what a provider answers for one batch, and the number of keys that were
filled. -/
def fillBatch (options : SyncOptions) (provider : Provider) (locale : String)
    (target : Catalog) (batch : List (String × String)) :
    Run CatalogFile.Fault (Catalog × Nat) := do
  match ← ask provider ⟨options.sourceLocale, locale, .ofList batch⟩ with
  | .error fault =>
    Run.warn (.batchFailed locale batch.length fault.describe)
    return (target, 0)
  | .ok answer =>
    let (target, count) := merge answer target batch
    if count < batch.length then Run.warn (.answersMissing locale (batch.length - count))
    return (target, count)

/-- A target with what a provider answers for batches, and the number of keys that were filled. -/
def fill (options : SyncOptions) (provider : Provider) (locale : String) :
    Catalog → List (List (String × String)) → Run CatalogFile.Fault (Catalog × Nat)
  | target, [] => return (target, 0)
  | target, batch :: rest => do
    let (target, count) ← fillBatch options provider locale target batch
    let (target, others) ← fill options provider locale target rest
    return (target, count + others)

/-- Fills the catalog of one locale; without a provider its missing keys are only counted. -/
def syncLocale (options : SyncOptions) (source : Catalog) (provider? : Option Provider)
    (locale : String) : Run CatalogFile.Fault LocaleOutcome := do
  let path := CatalogFile.pathOf options.catalogDir locale
  let target ← CatalogFile.read path
  let keys := missing source target
  if keys.isEmpty then return .upToDate
  match provider? with
  | none => return .wouldTranslate keys.length
  | some provider =>
    let (target, count) ← fill options provider locale target (batches options.batchSize keys)
    if 0 < count then CatalogFile.write path target
    return .translated count (keys.length - count)

/-- The outcome for a locale, which a fault does not keep from the others. -/
def outcomeOf (options : SyncOptions) (source : Catalog) (provider? : Option Provider)
    (locale : String) : Run Fault LocaleOutcome := do
  match ← Run.outcome (syncLocale options source provider? locale) with
  | .ok outcome => return outcome
  | .error cause =>
    let reason := ": ".intercalate cause.messages
    Run.warn (.localeFailed locale reason)
    return .failed reason

/-- Fills the catalogs of locales, each once and not that of the source locale. `seen` are the
locales before them. -/
def syncAll (options : SyncOptions) (source : Catalog) (provider? : Option Provider) :
    List String → List String → Run Fault (List LocaleReport)
  | _, [] => return []
  | seen, locale :: rest => do
    if locale == options.sourceLocale then
      Run.warn (.sourceLocaleSkipped locale)
      syncAll options source provider? seen rest
    else if seen.contains locale then syncAll options source provider? seen rest
    else
      let outcome ← outcomeOf options source provider? locale
      let others ← syncAll options source provider? (locale :: seen) rest
      return ⟨locale, outcome⟩ :: others

/-- Fills the catalogs of target locales. -/
def catalogs (options : SyncOptions) (targets : List String) (provider? : Option Provider) :
    Run Fault (List LocaleReport) := do
  let path := CatalogFile.pathOf options.catalogDir options.sourceLocale
  if !(← Run.disk).isFile path then throw (.sourceMissing path)
  let source ← (CatalogFile.read path).adapt (.unusable path)
  syncAll options source provider? [] targets

/-- Where the catalogs of a project are and how they are filled. -/
def optionsOf (project : Project) : SyncOptions where
  catalogDir := project.catalogDir
  sourceLocale := project.sourceLocale
  batchSize := project.config.batchSize

/-- Why a synchronization came to no report. -/
inductive RunFault where
  | catalogs (cause : Fault)
  /-- A character of the entry file would be cut in two, which ends the program. -/
  | cutsCharacter (path : Path)
deriving DecidableEq, Repr

/-- Registers locales in the entry file and notes what came of it. -/
def registerUpdated (project : Project) (report : SyncReport) : Run RunFault SyncReport := do
  match ← Run.outcome (Entry.register project report.updatedLocales false) with
  | .ok outcome => return { report with registration? := some outcome }
  | .error (.cutsCharacter path) => throw (.cutsCharacter path)
  | .error cause =>
    let reason := ": ".intercalate cause.messages
    Run.warn (.registrationFailed reason)
    return { report with registrationError? := some reason }

/-- Fills the catalogs of target locales and registers those that were written. -/
def run (project : Project) (targets : List String) (provider? : Option Provider) :
    Run RunFault SyncReport := do
  let reports ← (catalogs (optionsOf project) targets provider?).adapt .catalogs
  let report : SyncReport := { locales := reports }
  if report.updatedLocales.isEmpty then return report
  else registerUpdated project report

end Sync

end Phrasebook
