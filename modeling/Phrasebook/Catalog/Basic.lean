/-!
# Catalogs

A catalog maps keys to templates and keeps the order in which its keys were added. No key occurs
twice: a value that is set for a key that is there replaces the old value in its place.
-/

namespace Phrasebook

/-- The keys and templates of one locale, in order. -/
structure Catalog where
  entries : List (String × String)
  keys_nodup : (entries.map Prod.fst).Nodup
deriving DecidableEq

namespace Catalog

/-- Entries with the value of a key set: in place when the key is there, else at the end. -/
def setEntry (key value : String) : List (String × String) → List (String × String)
  | [] => [(key, value)]
  | entry :: rest =>
    if entry.1 = key then (key, value) :: rest else entry :: setEntry key value rest

theorem keys_setEntry (key value : String) (entries : List (String × String)) :
    (setEntry key value entries).map Prod.fst =
      if key ∈ entries.map Prod.fst then entries.map Prod.fst
      else entries.map Prod.fst ++ [key] := by
  induction entries with
  | nil => simp [setEntry]
  | cons entry rest ih =>
    by_cases h : entry.1 = key
    · simp [setEntry, h]
    · have h' : ¬ key = entry.1 := fun e ↦ h e.symm
      simp only [setEntry, h, if_false, List.map_cons, ih, List.mem_cons, h', false_or]
      split <;> simp

theorem nodup_setEntry {key value : String} {entries : List (String × String)}
    (h : (entries.map Prod.fst).Nodup) : ((setEntry key value entries).map Prod.fst).Nodup := by
  rw [keys_setEntry]
  split
  · exact h
  · next hk =>
    refine List.nodup_append.2 ⟨h, by simp, ?_⟩
    intro a ha b hb e
    rw [List.mem_singleton] at hb
    exact hk (hb ▸ e ▸ ha)

def empty : Catalog :=
  ⟨[], List.nodup_nil⟩

instance : Inhabited Catalog := ⟨empty⟩

instance : EmptyCollection Catalog := ⟨empty⟩

def keys (catalog : Catalog) : List String :=
  catalog.entries.map Prod.fst

def size (catalog : Catalog) : Nat :=
  catalog.entries.length

def isEmpty (catalog : Catalog) : Bool :=
  catalog.entries.isEmpty

def get? (catalog : Catalog) (key : String) : Option String :=
  catalog.entries.lookup key

def contains (catalog : Catalog) (key : String) : Bool :=
  (catalog.get? key).isSome

def set (catalog : Catalog) (key template : String) : Catalog :=
  ⟨setEntry key template catalog.entries, nodup_setEntry catalog.keys_nodup⟩

/-- The catalog of a list of entries. A later entry replaces the value of an earlier one. -/
def ofList (entries : List (String × String)) : Catalog :=
  entries.foldl (fun catalog entry ↦ catalog.set entry.1 entry.2) empty

/-- Whether two catalogs have the same entries, in whatever order. -/
def sameEntries (first second : Catalog) : Bool :=
  first.size == second.size &&
    first.entries.all fun (key, template) ↦ second.get? key == some template

end Catalog

end Phrasebook
