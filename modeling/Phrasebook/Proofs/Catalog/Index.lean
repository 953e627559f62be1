import Mathlib.Data.List.Induction
import Phrasebook.Catalog.Keyed
import Phrasebook.Proofs.Catalog.Entries
import Phrasebook.Proofs.Text.Blank

/-!
# The index of a keyed catalog

The index of a catalog that was loaded, and then only grew by insertions, is the index of its
entries: it knows, for every text that is not blank, the first key that has this text. The two are
kept by different means, since loading builds the index at once and an insertion extends it by one
text. A key found by a text therefore leads back to that text, up to the blanks at its edges, and
a catalog that is built from the entries of another one answers as that one does.
-/

namespace Phrasebook.KeyedCatalog

variable {catalog : KeyedCatalog} {entries : List (String × String)} {key template text : String}

def indexOf (entries : List (String × String)) : List (String × String) :=
  entries.foldl (fun index entry ↦ addText index entry.1 entry.2) []

theorem indexOf_concat (entries : List (String × String)) (entry : String × String) :
    indexOf (entries ++ [entry]) = addText (indexOf entries) entry.1 entry.2 := by
  unfold indexOf
  rw [List.foldl_append, List.foldl_cons, List.foldl_nil]

/-- In an index to which a template was added, a text has the key it had, or else that of the
template if it is the trimmed template and not empty. -/
theorem lookup_addText (index : List (String × String)) (key template text : String) :
    (addText index key template).lookup text =
      (index.lookup text).or
        (if text.isEmpty || Text.trim template != text then none else some key) := by
  unfold addText
  dsimp only
  by_cases hsame : Text.trim template = text
  · rw [hsame]
    cases hempty : text.isEmpty with
    | true => simp
    | false =>
      cases hknown : index.lookup text with
      | some known => simp [hknown]
      | none =>
        rw [Option.isSome_none, Bool.or_self, if_neg Bool.false_ne_true, List.lookup_append, hknown]
        simp
  · have hne : (Text.trim template != text) = true := bne_iff_ne.2 hsame
    have hother : [(Text.trim template, key)].lookup text = none := by
      rw [Catalog.lookup_cons, if_neg (Ne.symm hsame)]
      rfl
    rw [hne, Bool.or_true, if_pos rfl, Option.or_none]
    split
    · rfl
    · rw [List.lookup_append, hother, Option.or_none]

/-- The index knows the first key whose template is a text up to blanks, unless that is blank. -/
theorem lookup_indexOf (entries : List (String × String)) (text : String) :
    (indexOf entries).lookup text =
      if text.isEmpty then none
      else (entries.find? fun entry ↦ Text.trim entry.2 == text).map Prod.fst := by
  induction entries using List.reverseRecOn with
  | nil => simp [indexOf]
  | append_singleton entries entry ih =>
    rw [indexOf_concat, lookup_addText, ih, List.find?_append]
    cases htext : text.isEmpty with
    | true => simp
    | false =>
      cases hfind : entries.find? fun entry ↦ Text.trim entry.2 == text with
      | some found => simp
      | none =>
        by_cases hsame : Text.trim entry.2 = text
        · simp [hsame]
        · have hne : (Text.trim entry.2 == text) = false := beq_eq_false_iff_ne.2 hsame
          simp [hne, bne]

/-- A catalog whose index is the index of its entries. -/
def Indexed (catalog : KeyedCatalog) : Prop :=
  catalog.byText = indexOf catalog.entries.entries

theorem indexed_ofCatalog (entries : Catalog) : Indexed (ofCatalog entries) := rfl

theorem insert_of_contains (h : catalog.contains key = true) :
    catalog.insert key template = catalog := if_pos h

theorem entries_insert (h : catalog.contains key = false) :
    (catalog.insert key template).entries.entries =
      catalog.entries.entries ++ [(key, template)] := by
  unfold insert
  rw [if_neg (by simp [h])]
  exact Catalog.entries_set_of_not_contains h

theorem Indexed.insert (hindexed : Indexed catalog) (key template : String) :
    Indexed (catalog.insert key template) := by
  cases h : catalog.contains key with
  | true => rwa [insert_of_contains h]
  | false =>
    unfold Indexed
    rw [entries_insert h, indexOf_concat, ← hindexed]
    unfold KeyedCatalog.insert
    rw [if_neg (by simp [h])]

def insertAll (catalog : KeyedCatalog) (entries : List (String × String)) : KeyedCatalog :=
  entries.foldl (fun catalog entry ↦ catalog.insert entry.1 entry.2) catalog

theorem Indexed.insertAll (hindexed : catalog.Indexed) (entries : List (String × String)) :
    (catalog.insertAll entries).Indexed := by
  induction entries generalizing catalog with
  | nil => exact hindexed
  | cons entry rest ih => exact ih (hindexed.insert entry.1 entry.2)

theorem Indexed.ofCatalog_entries (hindexed : catalog.Indexed) :
    ofCatalog catalog.entries = catalog := by
  cases catalog with
  | mk entries byText => exact congrArg (KeyedCatalog.mk entries) hindexed.symm

/-- A key is the first one in a list of entries that has a text, up to the blanks at the edges, and
the text is not blank. -/
def FirstKey (entries : List (String × String)) (text key : String) : Prop :=
  Text.isBlankText text = false ∧ ∃ earlier template later,
    entries = earlier ++ (key, template) :: later ∧ Text.trim template = Text.trim text ∧
      ∀ entry ∈ earlier, Text.trim entry.2 ≠ Text.trim text

theorem FirstKey.append (h : FirstKey entries text key) (added : List (String × String)) :
    FirstKey (entries ++ added) text key := by
  obtain ⟨hvisible, earlier, template, later, rfl, hfirst⟩ := h
  refine ⟨hvisible, earlier, template, later ++ added, ?_, hfirst⟩
  rw [List.append_assoc, List.cons_append]

theorem Indexed.keyOf?_of_isBlankText (hindexed : catalog.Indexed)
    (hblank : Text.isBlankText text = true) : catalog.keyOf? text = none := by
  unfold keyOf?
  rw [hindexed, lookup_indexOf, Text.trim_eq_empty_iff.2 hblank]
  rfl

/-- In a catalog with a true index, a visible text is found under the first entry that shows it. -/
theorem Indexed.keyOf?_of_visible (hindexed : catalog.Indexed)
    (hvisible : Text.isBlankText text = false) :
    catalog.keyOf? text =
      (catalog.entries.entries.find? fun entry ↦ Text.trim entry.2 == Text.trim text).map
        Prod.fst := by
  have hfilled : ¬ (Text.trim text).isEmpty = true := by
    rw [String.isEmpty_iff, Text.trim_eq_empty_iff, hvisible]
    exact Bool.false_ne_true
  unfold keyOf?
  rw [hindexed, lookup_indexOf, if_neg hfilled]

theorem Indexed.keyOf?_eq_some_iff (hindexed : catalog.Indexed) :
    catalog.keyOf? text = some key ↔ FirstKey catalog.entries.entries text key := by
  unfold FirstKey
  cases hblank : Text.isBlankText text with
  | true => simp [hindexed.keyOf?_of_isBlankText hblank]
  | false =>
    rw [hindexed.keyOf?_of_visible hblank, Option.map_eq_some_iff]
    constructor
    · rintro ⟨⟨first, template⟩, hfind, rfl⟩
      obtain ⟨hsame, earlier, later, hentries, hearlier⟩ := List.find?_eq_some_iff_append.1 hfind
      refine ⟨rfl, earlier, template, later, hentries, beq_iff_eq.1 hsame, fun entry hentry ↦ ?_⟩
      simpa using hearlier entry hentry
    · rintro ⟨-, earlier, template, later, hentries, hsame, hearlier⟩
      refine ⟨(key, template), List.find?_eq_some_iff_append.2 ?_, rfl⟩
      refine ⟨beq_iff_eq.2 hsame, earlier, later, hentries, fun entry hentry ↦ ?_⟩
      simpa using hearlier entry hentry

theorem Indexed.keyOf?_eq_none_iff (hindexed : catalog.Indexed) :
    catalog.keyOf? text = none ↔ Text.isBlankText text = true ∨
      ∀ entry ∈ catalog.entries.entries, Text.trim entry.2 ≠ Text.trim text := by
  cases hblank : Text.isBlankText text with
  | true => simp [hindexed.keyOf?_of_isBlankText hblank]
  | false =>
    rw [hindexed.keyOf?_of_visible hblank, Option.map_eq_none_iff, List.find?_eq_none]
    simp

/-- A key found by a text has that text, up to blanks at the edges. -/
theorem Indexed.get?_of_keyOf? (hindexed : Indexed catalog) (h : catalog.keyOf? text = some key) :
    ∃ template, catalog.get? key = some template ∧ Text.trim template = Text.trim text := by
  obtain ⟨-, earlier, template, later, hentries, hsame, -⟩ := hindexed.keyOf?_eq_some_iff.1 h
  refine ⟨template, Catalog.get?_eq_some_iff.2 ?_, hsame⟩
  rw [hentries]
  exact List.mem_append_right _ List.mem_cons_self

/-- Whatever is inserted into a catalog after it was loaded, it finds for a text the first key that
has the text, and none for a blank text or one that no key has; and the catalog of its entries gives
the same answers. -/
theorem insertAll_answers (loaded : Catalog) (inserted : List (String × String)) :
    let catalog := (ofCatalog loaded).insertAll inserted
    let again := ofCatalog catalog.entries
    (∀ text key, catalog.keyOf? text = some key ↔ FirstKey catalog.entries.entries text key) ∧
      (∀ text, catalog.keyOf? text = none ↔ Text.isBlankText text = true ∨
        ∀ entry ∈ catalog.entries.entries, Text.trim entry.2 ≠ Text.trim text) ∧
      (∀ text, again.keyOf? text = catalog.keyOf? text) ∧
      ∀ key, again.contains key = catalog.contains key ∧ again.get? key = catalog.get? key := by
  intro catalog again
  have hindexed : catalog.Indexed := (indexed_ofCatalog loaded).insertAll inserted
  have hagain : again = catalog := hindexed.ofCatalog_entries
  refine ⟨fun text key ↦ hindexed.keyOf?_eq_some_iff, fun text ↦ hindexed.keyOf?_eq_none_iff, ?_⟩
  rw [hagain]
  exact ⟨fun _ ↦ rfl, fun _ ↦ ⟨rfl, rfl⟩⟩

end Phrasebook.KeyedCatalog
