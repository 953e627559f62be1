import Phrasebook.CommandLine

/-!
# Help

What the program says about itself.
-/

namespace Phrasebook.Help

def programName : String :=
  "localise"

def version : String :=
  "0.1.0"

open CommandLine

def purpose : Verb → String
  | .replace => "Replace hardcoded text with t(...) calls and update the source catalog"
  | .translate => "Translate keys missing from target-locale catalogs"
  | .inject => "Import every locale catalog in the entry file and register it with initLocalisation"
  | .check => "Report t(...) keys missing from the source catalog and files that fail to parse"

def settingPurpose : Setting → String
  | .projectRoot => "Project root (default: directory of the settings, or the working directory)"
  | .sourceRoot => "Source code root directory"
  | .catalogDir => "Directory holding <locale>.json catalogs"
  | .sourceLocale => "Source locale"
  | .lookupStyle => "How converted files obtain t: global or hook"
  | .locales => "Locales, comma separated"

def flagPurpose : Flag → String
  | .verbose => "Enable verbose output"
  | .dryRun => "Report what would change without writing any file"
  | .marking => "Mark texts with the locale instead of translating them"
  | .help => "Print help"

def taskLines (verb : Verb) : List String :=
  ["", verb.word ++ ": " ++ purpose verb] ++
    verb.settings.map (fun setting ↦ "  --" ++ setting.name ++ " <VALUE>  " ++
      settingPurpose setting) ++
    verb.flags.map (fun flag ↦ "  --" ++ flag.name ++ "  " ++ flagPurpose flag)

def text : String :=
  "\n".intercalate
    (["Usage: " ++ programName ++ " <COMMAND> [OPTIONS]"] ++ Verb.all.flatMap taskLines)

end Phrasebook.Help
