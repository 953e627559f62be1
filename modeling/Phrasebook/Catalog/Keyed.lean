import Phrasebook.Catalog.Basic
import Phrasebook.Text.Line

/-!
# Catalogs that find keys by text

The catalog of the source locale also answers the question under which key a text is stored, so
that a text that is met again gets the same key. Texts are compared without the blanks at their
edges, and of several keys with the same text the first one counts. A key is never given another
template.
-/

namespace Phrasebook

/-- A catalog with an index from texts to keys. -/
structure KeyedCatalog where
  entries : Catalog
  /-- The key of every text that is not blank, without the blanks at its edges. -/
  byText : List (String × String)
deriving DecidableEq

namespace KeyedCatalog

def empty : KeyedCatalog :=
  ⟨.empty, []⟩

instance : Inhabited KeyedCatalog := ⟨empty⟩

/-- An index that also knows a key for a text. A text that is known keeps its key, and a blank
text has none. -/
def addText (index : List (String × String)) (key template : String) : List (String × String) :=
  let text := Text.trim template
  if text.isEmpty || (index.lookup text).isSome then index else index ++ [(text, key)]

def ofCatalog (catalog : Catalog) : KeyedCatalog where
  entries := catalog
  byText := catalog.entries.foldl (fun index entry ↦ addText index entry.1 entry.2) []

def keyOf? (catalog : KeyedCatalog) (text : String) : Option String :=
  catalog.byText.lookup (Text.trim text)

def contains (catalog : KeyedCatalog) (key : String) : Bool :=
  catalog.entries.contains key

def get? (catalog : KeyedCatalog) (key : String) : Option String :=
  catalog.entries.get? key

def size (catalog : KeyedCatalog) : Nat :=
  catalog.entries.size

/-- The catalog with an entry added, unless its key is there already. -/
def insert (catalog : KeyedCatalog) (key template : String) : KeyedCatalog :=
  if catalog.contains key then catalog
  else ⟨catalog.entries.set key template, addText catalog.byText key template⟩

end KeyedCatalog

end Phrasebook
