import Phrasebook.Command.Basic
import Phrasebook.Conclusion
import Phrasebook.Credentials

/-!
# Running commands

A command opens its project, does its task and comes to a conclusion. What the user has to provide
and did not (credentials, a source catalog, target locales, an entry file) ends a command with a
conclusion that says so. Settings, catalogs and directories that cannot be used make it fail. A
character that would be cut in two ends the program, whatever else would have been done.
-/

namespace Phrasebook.Command

/-- Why a command came to no conclusion. -/
inductive Fault where
  | settings (cause : Config.Fault)
  | pass (cause : PassFault)
  | catalogs (cause : CatalogFile.Fault)
  | entry (cause : Entry.Fault)
deriving DecidableEq, Repr

/-- The messages for a fault, from what was tried to what went wrong. -/
def Fault.messages : Fault → List String
  | settings cause => cause.messages
  | pass cause => cause.messages
  | catalogs cause => cause.messages
  | entry cause => cause.messages

def Fault.describe (fault : Fault) : String :=
  ": ".intercalate fault.messages

/-- Whether the program ends where it stands: a character of a source would be cut in two. -/
def Fault.isPanic : Fault → Bool
  | pass (.cutsCharacter _) => true
  | entry (.cutsCharacter _) => true
  | _ => false

/-- What is said when there is no locale to translate to. -/
def noTargets : String :=
  "No target locales. Pass --lang (e.g. --lang fr,de) or add <locale>.json catalogs."

def noEntryFile (candidates : List String) : String :=
  "No entry file found (looked for " ++ ", ".intercalate candidates ++
    "). Set \"entryCandidates\" in " ++ Config.fileName ++ "."

def listedLocales (project : Project) : Run Fault (List String) :=
  (CatalogFile.locales project.catalogDir).adapt .catalogs

def withoutSource (project : Project) (locales : List String) : List String :=
  locales.filter (· != project.sourceLocale)

/-- Converts the sources, and registers the locales that have a catalog unless the run is dry. -/
def replace (project : Project) (dryRun : Bool) : Run Fault Conclusion := do
  let report ← (Extraction.run project dryRun).adapt .pass
  let finish (registration? : Option Entry.Outcome) (error? : Option String) : Conclusion :=
    .of (.replaced report dryRun registration? error?) report.issues false
  if dryRun then return finish none none
  let locales := withoutSource project (← listedLocales project)
  match ← Run.outcome (Entry.register project locales false) with
  | .ok outcome => return finish (some outcome) none
  | .error (.cutsCharacter path) => throw (.entry (.cutsCharacter path))
  | .error cause =>
    let reason := ": ".intercalate cause.messages
    Run.warn (.registrationFailed reason)
    return finish none (some reason)

/-- The provider for a run that is not dry, or what keeps it from being had. -/
def providerFor (project : Project) (marking : Bool) : Run Fault (Except String Provider) := do
  if marking then return .ok Provider.marking
  let host ← readThe Host
  match Credentials.load (← Run.disk) host.environment project.root with
  | .error cause => return .error cause.describe
  | .ok account => return .ok (Provider.service account host.transport)

/-- Fills the catalogs of locales with what a provider answers. -/
def translateWith (project : Project) (targets : List String) (provider? : Option Provider) :
    Run Fault Conclusion := do
  match ← Run.outcome (Sync.run project targets provider?) with
  | .error (.catalogs cause) => return .aborted cause.describe
  | .error (.cutsCharacter path) => throw (.entry (.cutsCharacter path))
  | .ok report => return .of (.translated report provider?.isNone) [] true

/-- The locales that are named, or all other locales that have a catalog. -/
def targetsOf (project : Project) (named : List String) : Run Fault (List String) := do
  if named.isEmpty then return withoutSource project (← listedLocales project)
  return named

/-- Fills the catalogs of the locales that are named, or else of all other locales. -/
def translate (project : Project) (named : List String) (dryRun marking : Bool) :
    Run Fault Conclusion := do
  let targets ← targetsOf project named
  if targets.isEmpty then return .aborted noTargets
  if dryRun then translateWith project targets none
  else
    match ← providerFor project marking with
    | .error message => return .aborted message
    | .ok provider => translateWith project targets (some provider)

/-- A list with another item at its end unless it has the item. -/
def addNew (items : List String) (item : String) : List String :=
  if items.contains item then items else items ++ [item]

/-- Registers the locales that have a catalog, and others, in the entry file. -/
def register (project : Project) (others : List String) (dryRun : Bool) :
    Run Fault Conclusion := do
  let locales := withoutSource project (others.foldl addNew (← listedLocales project))
  match ← (Entry.register project locales dryRun).adapt .entry with
  | .noEntryFile => return .aborted (noEntryFile project.config.entryCandidates)
  | outcome => return .of (.registered outcome dryRun) [] true

/-- Checks the sources; here a warning counts as an error. -/
def check (project : Project) : Run Fault Conclusion := do
  let report ← (Check.run project).adapt .pass
  return (Conclusion.of (.checked report) report.issues true).strict

def withStyle (project : Project) (style? : Option LookupStyle) : Project :=
  { project with
    config := { project.config with lookupStyle := style?.getD project.config.lookupStyle } }

/-- Does what a command asks for. -/
def run (command : Command) : Run Fault Conclusion := do
  let project ← (Run.ofExcept (Project.open? (← Run.disk) command.choice)).adapt .settings
  match command.task with
  | .replace dryRun style? => replace (withStyle project style?) dryRun
  | .translate locales dryRun marking => translate project locales dryRun marking
  | .register locales dryRun => register project locales dryRun
  | .check => check project

end Phrasebook.Command
