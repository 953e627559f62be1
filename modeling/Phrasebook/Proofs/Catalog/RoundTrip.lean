import Phrasebook.Catalog.Text
import Phrasebook.Proofs.Catalog.Entries
import Phrasebook.Proofs.Json.Members

/-!
# Reading a catalog that was written

The text of a catalog is read as that catalog, whatever its keys and templates are made of: no
entry is lost, changed or moved, and nothing is passed over.
-/

namespace Phrasebook.Catalog

variable {entries : List (String × String)}

theorem toList_writeEntry (entry : String × String) :
    (writeEntry entry).toList =
      ' ' :: ' ' :: (Json.quote entry.1).toList ++ ':' :: ' ' :: (Json.quote entry.2).toList := by
  unfold writeEntry
  rw [String.toList_append, String.toList_append, String.toList_append, List.append_assoc]
  rfl

theorem memberLines_false (entry : String × String) (rest : List (String × String)) :
    Json.memberLines false (entry :: rest) = ',' :: Json.memberLines true (entry :: rest) := rfl

/-- The lines of the entries, divided by commas, are the lines of the members. -/
theorem cons_toList_intercalate (entry : String × String) (rest : List (String × String)) :
    '\n' :: (",\n".intercalate ((entry :: rest).map writeEntry)).toList =
      Json.memberLines true (entry :: rest) := by
  induction rest generalizing entry with
  | nil =>
    rw [List.map_cons, List.map_nil, String.intercalate_singleton, toList_writeEntry]
    exact (List.append_nil _).symm
  | cons next rest ih =>
    have hrest : Json.memberLines false (next :: rest) =
        ",\n".toList ++ (",\n".intercalate ((next :: rest).map writeEntry)).toList := by
      rw [memberLines_false, ← ih]
      rfl
    rw [Json.memberLines, hrest, List.map_cons, List.map_cons, String.intercalate_cons_cons,
      String.toList_append, String.toList_append, toList_writeEntry, List.append_assoc]
    rfl

/-- The text of a catalog is the lines of its members between braces, with a line feed at the end.
-/
theorem exists_write_eq (catalog : Catalog) :
    ∃ blanks, (∀ b ∈ blanks, Json.Reader.isBlank b = true) ∧
      catalog.write =
        String.ofList ('\x7b' :: Json.memberLines true catalog.entries ++
          (blanks ++ '\x7d' :: ['\n'])) := by
  unfold write isEmpty
  cases hentries : catalog.entries with
  | nil => exact ⟨[], by simp, rfl⟩
  | cons entry rest =>
    refine ⟨['\n'], List.all_eq_true.1 rfl, String.toList_inj.1 ?_⟩
    rw [String.toList_ofList, ← cons_toList_intercalate, List.isEmpty_cons,
      if_neg Bool.false_ne_true, String.toList_append, String.toList_append, List.append_assoc]
    rfl

theorem entries_leavesOfMembers (entries : List (String × String)) :
    leavesOfMembers "" (entries.map Json.textMember) =
      entries.map fun entry ↦ .entry entry.1 entry.2 := by
  induction entries with
  | nil => rfl
  | cons entry rest ih =>
    rw [List.map_cons, List.map_cons, Json.textMember, leavesOfMembers, ih]
    rfl

theorem entries_ofList (hnodup : (entries.map Prod.fst).Nodup) :
    (ofList entries).entries = entries := by
  have hentries := @entries_setAll empty entries hnodup
  have hnew : (entries.filter fun update ↦ !empty.contains update.1) = entries :=
    List.filter_eq_self.2 fun _ _ ↦ rfl
  rw [hnew] at hentries
  exact hentries

theorem isBlankText_eq_false {text : String} {c : Char} (hc : c ∈ text.toList)
    (hblank : Text.isBlank c = false) : Text.isBlankText text = false := by
  refine Bool.eq_false_iff.2 fun hall ↦ ?_
  rw [List.all_eq_true.1 hall c hc] at hblank
  cases hblank

theorem isBlankText_write (catalog : Catalog) : Text.isBlankText catalog.write = false := by
  obtain ⟨blanks, -, hwrite⟩ := exists_write_eq catalog
  have hbrace : '\x7b' ∈ catalog.write.toList := by
    rw [hwrite, String.toList_ofList]
    exact List.mem_cons_self
  exact isBlankText_eq_false hbrace (by decide)

/-- The text of a catalog denotes the object with its entries. -/
theorem parse_write (catalog : Catalog) :
    Json.parse catalog.write = .ok (.object (catalog.entries.map Json.textMember)) := by
  obtain ⟨blanks, hblanks, hwrite⟩ := exists_write_eq catalog
  have hlineEnd : ∀ b ∈ ['\n'], Json.Reader.isBlank b = true := List.all_eq_true.1 rfl
  rw [hwrite]
  exact Json.parse_object catalog.keys_nodup hblanks hlineEnd

/-- The text of a catalog is read as the catalog. -/
theorem read_write (catalog : Catalog) : read catalog.write = .ok (catalog, []) := by
  have hentries : (catalog.entries.map fun entry ↦ Leaf.entry entry.1 entry.2).filterMap
      Leaf.entry? = catalog.entries := by
    rw [List.filterMap_map]
    exact List.filterMap_some
  have hpassed : (catalog.entries.map fun entry ↦ Leaf.entry entry.1 entry.2).filterMap
      Leaf.passedOver? = [] := by
    rw [List.filterMap_map, List.filterMap_eq_nil_iff]
    exact fun _ _ ↦ rfl
  have hcatalog : ofList catalog.entries = catalog := by
    cases catalog with
    | mk entries hnodup =>
      have hsame := entries_ofList hnodup
      cases hlist : ofList entries with
      | mk others _ =>
        rw [hlist] at hsame
        cases hsame
        rfl
  unfold read
  rw [isBlankText_write, if_neg Bool.false_ne_true, parse_write]
  dsimp only
  rw [entries_leavesOfMembers, hentries, hpassed, hcatalog]

end Phrasebook.Catalog
