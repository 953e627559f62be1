import Mathlib.Data.List.Dedup
import Phrasebook.Proofs.Catalog.File
import Phrasebook.Proofs.Json.Blank

/-!
# Catalogs that are written flat

A catalog file may nest objects. Reading it joins the names on the way to a text by dots, and the
file is written again with one member for each text. What is no text has no entry, and texts whose
joined names are the same share one.
-/

namespace Phrasebook

namespace Json

/-- A value inside an object that is no object itself, with the names on the way to it. -/
structure Leaf where
  path : List String
  value : Value

mutual

def Value.leaves : Value → List Leaf
  | .object members => leavesAmong members
  | value => [⟨[], value⟩]

def leavesAmong : List (String × Value) → List Leaf
  | [] => []
  | (name, value) :: rest =>
    value.leaves.map (fun leaf ↦ ⟨name :: leaf.path, leaf.value⟩) ++ leavesAmong rest

end

namespace Leaf

/-- The names on the way to a leaf, joined by dots. -/
def dotted (leaf : Leaf) : String :=
  ".".intercalate leaf.path

/-- Whether a leaf is a text; `null` counts as an empty one. -/
def isText (leaf : Leaf) : Bool :=
  match leaf.value with
  | .text _ => true
  | .null => true
  | _ => false

/-- Whether a leaf stands below no empty name of the outermost object. -/
def isNamed (leaf : Leaf) : Bool :=
  match leaf.path with
  | name :: _ :: _ => name != ""
  | _ => true

end Leaf

end Json

namespace Catalog

variable {key name : String} {path : List String} {members : List (String × Json.Value)}
variable {leaf : Json.Leaf} {entries : List (String × String)}

mutual

theorem leavesOfValue_eq (key : String) (value : Json.Value) :
    leavesOfValue key value =
      value.leaves.flatMap fun leaf ↦ leavesOfValue (leaf.path.foldl keyBelow key) leaf.value := by
  cases value with
  | object members =>
    rw [leavesOfValue, Json.Value.leaves]
    exact leavesOfMembers_eq key members
  | _ => exact (List.flatMap_singleton ..).symm

/-- A catalog reads the leaves of an object, each under the key that its names give. -/
theorem leavesOfMembers_eq (key : String) (members : List (String × Json.Value)) :
    leavesOfMembers key members =
      (Json.leavesAmong members).flatMap fun leaf ↦
        leavesOfValue (leaf.path.foldl keyBelow key) leaf.value := by
  match members with
  | [] => rfl
  | (name, value) :: rest =>
    rw [leavesOfMembers, Json.leavesAmong, List.flatMap_append, List.flatMap_map,
      leavesOfMembers_eq key rest, leavesOfValue_eq (keyBelow key name) value]
    rfl

end

theorem keyBelow_of_ne (h : key ≠ "") (name : String) : keyBelow key name = key ++ "." ++ name := by
  have hempty : key.isEmpty = false := Bool.eq_false_iff.2 fun he ↦ h (String.isEmpty_iff.1 he)
  rw [keyBelow, hempty, if_neg Bool.false_ne_true]

/-- The key that is built up on the way to a leaf is the names on that way, joined by dots. -/
theorem foldl_keyBelow (h : key ≠ "") (path : List String) :
    path.foldl keyBelow key = ".".intercalate (key :: path) := by
  induction path generalizing key with
  | nil => exact (String.intercalate_singleton ..).symm
  | cons name rest ih =>
    have hjoined : key ++ "." ++ name ≠ "" := fun hempty ↦ by
      rw [String.append_assoc] at hempty
      exact h (String.append_eq_empty_iff.1 hempty).1
    rw [List.foldl_cons, keyBelow_of_ne h, ih hjoined, String.intercalate_cons_cons]
    cases rest with
    | nil => rw [String.intercalate_singleton, String.intercalate_singleton]
    | cons next rest =>
      rw [String.intercalate_cons_cons, String.intercalate_cons_cons]
      simp only [String.append_assoc]

/-- The key of a leaf that stands below no empty name is its names joined by dots. -/
theorem foldl_keyBelow_of_isNamed (h : leaf.isNamed = true) :
    leaf.path.foldl keyBelow "" = leaf.dotted := by
  obtain ⟨path, value⟩ := leaf
  match path with
  | [] => rfl
  | [name] => exact (String.intercalate_singleton ..).symm
  | name :: next :: rest =>
    have hname : name ≠ "" := bne_iff_ne.1 h
    exact foldl_keyBelow hname (next :: rest)

theorem exists_entry_of_isText (h : leaf.isText = true) (key : String) :
    ∃ template, leavesOfValue key leaf.value = [.entry key template] := by
  obtain ⟨path, value⟩ := leaf
  cases value with
  | text value => exact ⟨value, rfl⟩
  | null => exact ⟨"", rfl⟩
  | _ => cases h

theorem mem_keys_setAll {catalog : Catalog} {updates : List (String × String)} :
    key ∈ (catalog.setAll updates).keys ↔ key ∈ catalog.keys ∨ key ∈ updates.map Prod.fst := by
  induction updates generalizing catalog with
  | nil => simp
  | cons update rest ih =>
    rw [setAll_cons, ih, mem_keys_set, List.map_cons, List.mem_cons]
    tauto

theorem mem_keys_ofList : key ∈ (ofList entries).keys ↔ key ∈ entries.map Prod.fst := by
  have hkeys := @mem_keys_setAll key empty entries
  rw [or_iff_right (by exact List.not_mem_nil)] at hkeys
  exact hkeys

/-- A text of an object has an entry in the catalog that the object is read as. -/
theorem dotted_mem_keys (hleaf : leaf ∈ Json.leavesAmong members) (htext : leaf.isText = true)
    (hnamed : leaf.isNamed = true) :
    leaf.dotted ∈ (ofList ((leavesOfMembers "" members).filterMap Leaf.entry?)).keys := by
  obtain ⟨template, hentry⟩ := exists_entry_of_isText htext leaf.dotted
  have hread : Leaf.entry leaf.dotted template ∈ leavesOfMembers "" members := by
    rw [leavesOfMembers_eq]
    refine List.mem_flatMap.2 ⟨leaf, hleaf, ?_⟩
    rw [foldl_keyBelow_of_isNamed hnamed, hentry]
    exact List.mem_cons_self
  refine mem_keys_ofList.2 (List.mem_map.2 ⟨(leaf.dotted, template), ?_, rfl⟩)
  exact List.mem_filterMap.2 ⟨_, hread, rfl⟩

end Catalog

end Phrasebook
