import Phrasebook.Check
import Phrasebook.Sync

/-!
# Conclusions

What a command ends with: a summary of its work, the issues in order, and the numbers of errors and
warnings, which decide whether the command succeeded.
-/

namespace Phrasebook

/-- What a command says about its work. -/
inductive Summary where
  /-- Sources were converted; after that the locales may have been registered. -/
  | replaced (report : ExtractionReport) (dryRun : Bool) (registration? : Option Entry.Outcome)
      (registrationError? : Option String)
  | translated (report : SyncReport) (dryRun : Bool)
  | registered (outcome : Entry.Outcome) (dryRun : Bool)
  | checked (report : CheckReport)
  /-- Something that the command needs is missing, and nothing was done. -/
  | aborted (message : String)
deriving DecidableEq, Repr

def Summary.isAborted : Summary → Bool
  | aborted _ => true
  | _ => false

/-- What a command ends with. -/
structure Conclusion where
  summary : Summary
  issues : List Issue
  errors : Nat
  warnings : Nat
  /-- Whether errors make the command fail. -/
  failsOnErrors : Bool
deriving DecidableEq, Repr

namespace Conclusion

/-- The conclusion of a command that found issues. A command that did nothing counts as an error of
its own. -/
def of (summary : Summary) (issues : List Issue) (failsOnErrors : Bool) : Conclusion :=
  let errors := issues.countP Issue.isError
  { summary := summary
    issues := issues.mergeSort Issue.precedes
    errors := errors + if summary.isAborted then 1 else 0
    warnings := issues.length - errors
    failsOnErrors := failsOnErrors }

def aborted (message : String) : Conclusion :=
  of (.aborted message) [] true

/-- The conclusion with its warnings counted as errors as well. -/
def strict (conclusion : Conclusion) : Conclusion :=
  { conclusion with errors := conclusion.errors + conclusion.warnings }

def isFailure (conclusion : Conclusion) : Bool :=
  conclusion.failsOnErrors && 0 < conclusion.errors

def exitCode (conclusion : Conclusion) : Nat :=
  if conclusion.isFailure then 1 else 0

end Conclusion

end Phrasebook
