import Mathlib.Data.List.Basic
import Phrasebook.Catalog.Basic

/-!
# The entries of a catalog after values were set

A value that is set replaces the value of its key in place, or stands behind all others when the
key is new. For a list of values with different keys the result can be written down at once: the
old entries in their order, each with its new value if there is one, and behind them the new keys
in the order in which they were set.
-/

namespace Phrasebook.Catalog

variable {key other value text : String} {entries : List (String × String)} {catalog : Catalog}

theorem lookup_cons (entry : String × String) :
    (entry :: entries).lookup key =
      if key = entry.1 then some entry.2 else entries.lookup key := by
  obtain ⟨name, text⟩ := entry
  rw [List.lookup_cons]
  by_cases h : key = name
  · simp [h]
  · have hne : (key == name) = false := beq_eq_false_iff_ne.2 h
    rw [hne, if_neg h]

theorem lookup_isSome_iff :
    (entries.lookup key).isSome ↔ key ∈ entries.map Prod.fst := by
  induction entries with
  | nil => simp
  | cons entry rest ih =>
    rw [lookup_cons, List.map_cons, List.mem_cons]
    by_cases h : key = entry.1
    · simp [h]
    · rw [if_neg h, ih, or_iff_right h]

theorem lookup_eq_none_iff :
    entries.lookup key = none ↔ key ∉ entries.map Prod.fst := by
  rw [← lookup_isSome_iff, Bool.not_eq_true, Option.isSome_eq_false_iff, Option.isNone_iff_eq_none]

theorem contains_iff : catalog.contains key = true ↔ key ∈ catalog.keys :=
  lookup_isSome_iff

theorem contains_eq_false_iff : catalog.contains key = false ↔ key ∉ catalog.keys := by
  rw [← contains_iff, Bool.not_eq_true]

/-- Where no key occurs twice, every entry is found under its key. -/
theorem lookup_eq_some_of_mem (hnodup : (entries.map Prod.fst).Nodup)
    (h : (key, value) ∈ entries) : entries.lookup key = some value := by
  induction entries with
  | nil => cases h
  | cons entry rest ih =>
    obtain ⟨hnotin, hrest⟩ := List.nodup_cons.1 hnodup
    rw [lookup_cons]
    rcases List.mem_cons.1 h with rfl | hmem
    · exact if_pos rfl
    · have hne : key ≠ entry.1 := by
        rintro rfl
        exact hnotin (List.mem_map.2 ⟨_, hmem, rfl⟩)
      rw [if_neg hne, ih hrest hmem]

theorem mem_of_lookup_eq_some (h : entries.lookup key = some value) : (key, value) ∈ entries := by
  induction entries with
  | nil => cases h
  | cons entry rest ih =>
    rw [lookup_cons] at h
    by_cases he : key = entry.1
    · rw [if_pos he] at h
      cases h
      rw [he]
      exact List.mem_cons_self
    · rw [if_neg he] at h
      exact List.mem_cons_of_mem _ (ih h)

theorem get?_eq_some_iff : catalog.get? key = some value ↔ (key, value) ∈ catalog.entries :=
  ⟨mem_of_lookup_eq_some, lookup_eq_some_of_mem catalog.keys_nodup⟩

/-- Setting the value of a key that is there changes that value and leaves every entry in its place.
-/
theorem setEntry_of_mem (hnodup : (entries.map Prod.fst).Nodup) (h : key ∈ entries.map Prod.fst) :
    setEntry key value entries =
      entries.map fun entry ↦ (entry.1, if entry.1 = key then value else entry.2) := by
  induction entries with
  | nil => cases h
  | cons entry rest ih =>
    obtain ⟨hnotin, hrest⟩ := List.nodup_cons.1 hnodup
    by_cases he : entry.1 = key
    · have hkeep : rest.map (fun entry ↦ (entry.1, if entry.1 = key then value else entry.2)) =
          rest := by
        refine (List.map_congr_left fun other hother ↦ ?_).trans (List.map_id rest)
        rw [if_neg]
        · rfl
        · rintro hsame
          exact hnotin (he.trans hsame.symm ▸ List.mem_map_of_mem hother)
      rw [setEntry, if_pos he, List.map_cons, hkeep, if_pos he, he]
    · have hmem : key ∈ rest.map Prod.fst := by
        rcases List.mem_cons.1 h with heq | hmem
        · exact absurd heq.symm he
        · exact hmem
      rw [setEntry, if_neg he, List.map_cons, if_neg he, ih hrest hmem]

theorem setEntry_of_not_mem (h : key ∉ entries.map Prod.fst) :
    setEntry key value entries = entries ++ [(key, value)] := by
  induction entries with
  | nil => rfl
  | cons entry rest ih =>
    rw [List.map_cons, List.mem_cons, not_or] at h
    rw [setEntry, if_neg (Ne.symm h.1), ih h.2, List.cons_append]

theorem entries_set_of_contains (h : catalog.contains key = true) :
    (catalog.set key value).entries =
      catalog.entries.map fun entry ↦ (entry.1, if entry.1 = key then value else entry.2) :=
  setEntry_of_mem catalog.keys_nodup (contains_iff.1 h)

theorem entries_set_of_not_contains (h : catalog.contains key = false) :
    (catalog.set key value).entries = catalog.entries ++ [(key, value)] :=
  setEntry_of_not_mem (contains_eq_false_iff.1 h)

theorem mem_keys_set :
    other ∈ (catalog.set key value).keys ↔ other = key ∨ other ∈ catalog.keys := by
  have hkeys := keys_setEntry key value catalog.entries
  unfold keys set
  rw [hkeys]
  split
  · next h =>
    constructor
    · exact Or.inr
    · rintro (rfl | hmem)
      · exact h
      · exact hmem
  · rw [List.mem_append, List.mem_singleton, or_comm]

theorem contains_set :
    (catalog.set key value).contains other = (decide (other = key) || catalog.contains other) := by
  rw [Bool.eq_iff_iff, contains_iff, mem_keys_set, Bool.or_eq_true, decide_eq_true_iff,
    contains_iff]

/-- After an entry was set its key has the new value, and every other key the value it had. -/
theorem lookup_setEntry :
    (setEntry key value entries).lookup other =
      if other = key then some value else entries.lookup other := by
  induction entries with
  | nil => exact lookup_cons (key, value)
  | cons entry rest ih =>
    rw [setEntry]
    by_cases he : entry.1 = key
    · rw [if_pos he, lookup_cons, lookup_cons, he]
      split <;> rfl
    · rw [if_neg he, lookup_cons, lookup_cons, ih]
      by_cases ho : other = entry.1
      · rw [if_pos ho, if_pos ho, if_neg (ho ▸ he)]
      · rw [if_neg ho, if_neg ho]

/-- A catalog with the values of a list of entries set, one after the other. -/
def setAll (catalog : Catalog) (updates : List (String × String)) : Catalog :=
  updates.foldl (fun catalog update ↦ catalog.set update.1 update.2) catalog

@[simp] theorem setAll_nil : catalog.setAll [] = catalog := rfl

@[simp] theorem setAll_cons (update : String × String) (updates : List (String × String)) :
    catalog.setAll (update :: updates) = (catalog.set update.1 update.2).setAll updates := rfl

theorem setAll_append (first second : List (String × String)) :
    catalog.setAll (first ++ second) = (catalog.setAll first).setAll second :=
  List.foldl_append

/-- Setting values for keys that are there adds no key. -/
theorem keys_setAll_of_subset {updates : List (String × String)}
    (h : updates.map Prod.fst ⊆ catalog.keys) : (catalog.setAll updates).keys = catalog.keys := by
  induction updates generalizing catalog with
  | nil => rfl
  | cons update rest ih =>
    rw [List.map_cons, List.cons_subset] at h
    obtain ⟨hfirst, hrest⟩ := h
    have hkeys : (catalog.set update.1 update.2).keys = catalog.keys := by
      rw [keys, entries_set_of_contains (contains_iff.2 hfirst), List.map_map]
      rfl
    rw [setAll_cons, ih (hkeys.symm ▸ hrest), hkeys]

/-- Where no key occurs twice, the value of a key is the one that was set, if there is one. -/
theorem get?_setAll {updates : List (String × String)} (h : (updates.map Prod.fst).Nodup) :
    (catalog.setAll updates).get? key = (updates.lookup key).or (catalog.get? key) := by
  induction updates generalizing catalog with
  | nil => rfl
  | cons update rest ih =>
    obtain ⟨hnotin, hrest⟩ := List.nodup_cons.1 h
    have hset : (catalog.set update.1 update.2).get? key =
        if key = update.1 then some update.2 else catalog.get? key := lookup_setEntry
    rw [setAll_cons, ih hrest, hset, lookup_cons]
    by_cases he : key = update.1
    · rw [if_pos he, if_pos he, he, lookup_eq_none_iff.2 hnotin]
      rfl
    · rw [if_neg he, if_neg he]

/-- Old keys stay where they are, with the new value if there is one; new keys follow in the order
of the list. -/
theorem entries_setAll {updates : List (String × String)} (h : (updates.map Prod.fst).Nodup) :
    (catalog.setAll updates).entries =
      catalog.entries.map (fun entry ↦ (entry.1, (updates.lookup entry.1).getD entry.2)) ++
        updates.filter fun update ↦ !catalog.contains update.1 := by
  induction updates generalizing catalog with
  | nil => simp
  | cons update rest ih =>
    obtain ⟨hnotin, hrest⟩ := List.nodup_cons.1 h
    have hlookup : rest.lookup update.1 = none := lookup_eq_none_iff.2 hnotin
    have hfilter : (rest.filter fun later ↦ !(catalog.set update.1 update.2).contains later.1) =
        rest.filter fun later ↦ !catalog.contains later.1 := by
      apply List.filter_congr
      intro later hlater
      have hne : later.1 ≠ update.1 := by
        rintro heq
        exact hnotin (heq ▸ List.mem_map_of_mem hlater)
      rw [contains_set, decide_eq_false hne, Bool.false_or]
    rw [setAll_cons, ih hrest, hfilter]
    cases hcontains : catalog.contains update.1 with
    | true =>
      rw [entries_set_of_contains hcontains, List.map_map,
        List.filter_cons_of_neg (by simp [hcontains])]
      congr 1
      apply List.map_congr_left
      intro entry _
      simp only [Function.comp_apply, lookup_cons]
      by_cases he : entry.1 = update.1
      · rw [if_pos he, if_pos he, he, hlookup]
        rfl
      · rw [if_neg he, if_neg he]
    | false =>
      rw [entries_set_of_not_contains hcontains, List.map_append,
        List.filter_cons_of_pos (by simp [hcontains]), List.append_assoc]
      congr 1
      · apply List.map_congr_left
        intro entry hentry
        have hne : entry.1 ≠ update.1 := by
          intro heq
          exact contains_eq_false_iff.1 hcontains (heq ▸ List.mem_map_of_mem hentry)
        rw [lookup_cons, if_neg hne]
      · simp [hlookup]

end Phrasebook.Catalog
