import Phrasebook.Catalog.Keyed
import Phrasebook.Catalog.Text
import Phrasebook.Session

/-!
# Catalog files

The catalog of a locale is the file with the name of the locale in one directory. A locale without
a file has an empty catalog. Writing a catalog creates the directory when it is missing.
-/

namespace Phrasebook.CatalogFile

/-- Why a catalog file cannot be used. -/
inductive Fault where
  | unreadable (path : Path) (cause : Disk.Fault)
  /-- The text is no catalog. -/
  | malformed (path : Path) (text : String) (cause : Catalog.TextFault)
  | noDirectory (path : Path) (cause : Disk.Fault)
  | unwritable (path : Path) (cause : Disk.Fault)
  | unlistable (path : Path) (cause : Disk.Fault)
deriving DecidableEq, Repr

/-- The messages for a fault, from what was tried to what went wrong. -/
def Fault.messages : Fault → List String
  | unreadable path cause => ["Failed to read JSON file: " ++ path.quoted, cause.describe]
  | malformed path text cause =>
    ["Failed to parse JSON file: " ++ path.quoted, cause.describe text]
  | noDirectory path cause => ["Failed to create directory: " ++ path.text, cause.describe]
  | unwritable path cause => ["Failed to write file: " ++ path.text, cause.describe]
  | unlistable path cause => ["Failed to read directory: " ++ path.quoted, cause.describe]

def extension : String :=
  "json"

def pathOf (directory : Path) (locale : String) : Path :=
  directory.join ⟨locale ++ "." ++ extension⟩

/-- The catalog in a file. Values passed over give warnings. -/
def read (path : Path) : Run Fault Catalog := do
  let disk ← Run.disk
  if !disk.contains path then return .empty
  match disk.readText path with
  | .error cause => throw (.unreadable path cause)
  | .ok text =>
    match Catalog.read text with
    | .error cause => throw (.malformed path text cause)
    | .ok (catalog, passedOver) =>
      Run.warnAll (passedOver.map fun value ↦ .valuePassedOver value.key value.value)
      return catalog

def write (path : Path) (catalog : Catalog) : Run Fault Unit := do
  match path.parent? with
  | some parent => (Run.ensureDirectories parent).adapt (.noDirectory parent)
  | none => pure ()
  (Run.writeText path catalog.write).adapt (.unwritable path)

def locales (directory : Path) : Run Fault (List String) := do
  let disk ← Run.disk
  if !disk.contains directory then return []
  match disk.list directory with
  | .error cause => throw (.unlistable directory cause)
  | .ok names =>
    let files := (names.map fun name ↦ directory.join ⟨name⟩).filter fun path ↦
      disk.isFile path && path.extension? == some extension
    return (files.filterMap Path.stem?).mergeSort fun first second ↦ first ≤ second

end Phrasebook.CatalogFile
