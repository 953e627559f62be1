import Phrasebook.Project

/-!
# Commands

What the program can be asked to do in a project: replace the texts of its sources by lookups, fill
the catalogs of other locales, register locales in the entry file, or check the sources.
-/

namespace Phrasebook

/-- What is to be done in a project. -/
inductive Task where
  /-- Replace the texts of the sources; a style of lookups may be chosen. -/
  | replace (dryRun : Bool) (style? : Option LookupStyle)
  /-- Fill the catalogs of locales, or of all other locales when none is named. `marking` asks for
  marked templates instead of texts in the other language. -/
  | translate (locales : List String) (dryRun marking : Bool)
  /-- Register the locales that have a catalog, and others, in the entry file. -/
  | register (locales : List String) (dryRun : Bool)
  | check
deriving DecidableEq, Repr

/-- A task with what the command line says about the project. -/
structure Command where
  choice : ProjectChoice
  task : Task
deriving DecidableEq, Repr

end Phrasebook
