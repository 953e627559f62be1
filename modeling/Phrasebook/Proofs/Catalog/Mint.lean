import Mathlib.Data.List.Nodup
import Mathlib.Order.Bounds.Defs
import Phrasebook.Catalog.Mint
import Phrasebook.Proofs.Catalog.Entries

/-!
# Minted keys are new

A key can be taken apart again: the ordinal stands behind its last low line, and the two words for a
kind end in different letters. So keys are the same only if their scopes, kinds and ordinals are. A
catalog cannot hold all of one more keys than it has entries, so among as many candidates there is a
key that is not taken: the search for one ends, though it goes on as long as keys are taken. It
finds the least free ordinal, and as the next search for that kind starts behind it, no minter gives
out a key twice.

Ordinals are counted without a bound. A program that counts them in 64 bits does the same as long as
none of them reaches 2 ^ 64.
-/

namespace Phrasebook.Minter

variable {catalog : KeyedCatalog} {scope key : String} {kind : KeyKind}
variable {start tries ordinal found : Nat}

/-- Two texts with a separator in them are the same only if they are so before and behind it, when
it does not occur behind. -/
theorem append_cons_inj_of_not_mem {separator : Char} {front other back last : List Char}
    (hback : separator ∉ back) (hlast : separator ∉ last) :
    front ++ separator :: back = other ++ separator :: last ↔ front = other ∧ back = last := by
  have hnil : ∀ {more first second : List Char}, separator ∉ first →
      separator :: first = more ++ separator :: second → more = [] ∧ first = second := by
    intro more first second hfirst h
    cases more with
    | nil => exact ⟨rfl, (List.cons.inj h).2⟩
    | cons c rest =>
      refine absurd ?_ hfirst
      rw [(List.cons.inj h).2]
      exact List.mem_append_right _ List.mem_cons_self
  constructor
  · intro h
    rcases List.append_eq_append_iff.1 h with ⟨more, rfl, hmore⟩ | ⟨more, rfl, hmore⟩
    · obtain ⟨rfl, hsame⟩ := hnil hback hmore
      exact ⟨(List.append_nil _).symm, hsame⟩
    · obtain ⟨rfl, hsame⟩ := hnil hlast hmore
      exact ⟨List.append_nil _, hsame.symm⟩
  · rintro ⟨rfl, rfl⟩
    rfl

theorem toList_keyAt (scope : String) (kind : KeyKind) (ordinal : Nat) :
    (keyAt scope kind ordinal).toList =
      (scope ++ "." ++ kind.word).toList ++ '_' :: Nat.toDigits 10 ordinal := by
  unfold keyAt
  rw [String.toList_append, String.toList_append, List.append_assoc]
  exact congrArg (_ ++ '_' :: ·) Nat.toList_repr

theorem toDigits_injective : Function.Injective (Nat.toDigits 10) := by
  intro first second h
  rw [← Nat.ofDigitChars_ten_toDigits (n := first), h, Nat.ofDigitChars_ten_toDigits]

/-- The words for the two kinds end in different letters. -/
theorem getLast?_append_word (scope : String) (kind : KeyKind) :
    (scope ++ "." ++ kind.word).toList.getLast? =
      match kind with
      | .text => some 't'
      | .plural => some 'l' := by
  rw [String.toList_append]
  cases kind <;> exact List.getLast?_append_of_ne_nil _ (List.cons_ne_nil _ _)

/-- The scope and the kind can be read off the beginning of a key. -/
theorem append_word_inj {first second : String} {kind other : KeyKind} :
    first ++ "." ++ kind.word = second ++ "." ++ other.word ↔ first = second ∧ kind = other := by
  constructor
  · intro h
    have hletter := congrArg (fun text : String ↦ text.toList.getLast?) h
    simp only [getLast?_append_word] at hletter
    obtain rfl : kind = other := by cases kind <;> cases other <;> first | rfl | cases hletter
    exact ⟨(String.append_left_inj _).1 ((String.append_left_inj _).1 h), rfl⟩
  · rintro ⟨rfl, rfl⟩
    rfl

/-- Keys are the same only if they are made of the same scope, kind and ordinal. -/
theorem keyAt_inj {first second : String} {kind other : KeyKind} {ordinal last : Nat} :
    keyAt first kind ordinal = keyAt second other last ↔
      first = second ∧ kind = other ∧ ordinal = last := by
  rw [← String.toList_inj, toList_keyAt, toList_keyAt,
    append_cons_inj_of_not_mem Nat.underscore_not_in_toDigits Nat.underscore_not_in_toDigits,
    String.toList_inj, append_word_inj, toDigits_injective.eq_iff, and_assoc]

theorem keyAt_injective (scope : String) (kind : KeyKind) :
    Function.Injective (keyAt scope kind) := fun _ _ h ↦ (keyAt_inj.1 h).2.2

/-- Among one more ordinals than the catalog has keys, the key of one is not taken. -/
theorem exists_free_ordinal (catalog : KeyedCatalog) (scope : String) (kind : KeyKind)
    (start : Nat) :
    ∃ ordinal ∈ List.range' start (catalog.size + 1),
      catalog.contains (keyAt scope kind ordinal) = false := by
  by_contra hnone
  have htaken : ∀ ordinal ∈ List.range' start (catalog.size + 1),
      catalog.contains (keyAt scope kind ordinal) = true := by
    intro ordinal hordinal
    by_contra hfree
    exact hnone ⟨ordinal, hordinal, Bool.eq_false_iff.2 hfree⟩
  have hnodup : ((List.range' start (catalog.size + 1)).map (keyAt scope kind)).Nodup :=
    List.Nodup.map (keyAt_injective scope kind) (List.nodup_range' ..)
  have hsubset : (List.range' start (catalog.size + 1)).map (keyAt scope kind) ⊆
      catalog.entries.keys := by
    intro key hkey
    obtain ⟨ordinal, hordinal, rfl⟩ := List.mem_map.1 hkey
    exact Catalog.contains_iff.1 (htaken ordinal hordinal)
  have hlength := hnodup.length_le_of_subset hsubset
  have hkeys : catalog.entries.keys.length = catalog.size := List.length_map _
  rw [List.length_map, List.length_range', hkeys] at hlength
  omega

/-- The free ordinal is among the candidates, its key is not taken, and those of the candidates
before it are. -/
theorem freeOrdinal_spec (catalog : KeyedCatalog) (scope : String) (kind : KeyKind) (start : Nat) :
    catalog.contains (keyAt scope kind (freeOrdinal catalog scope kind start)) = false ∧
      freeOrdinal catalog scope kind start ∈ List.range' start (catalog.size + 1) ∧
      ∀ ordinal, start ≤ ordinal → ordinal < freeOrdinal catalog scope kind start →
        catalog.contains (keyAt scope kind ordinal) = true := by
  obtain ⟨ordinal, hordinal, hfree⟩ := exists_free_ordinal catalog scope kind start
  cases hfind : (List.range' start (catalog.size + 1)).find? fun ordinal ↦
      !catalog.contains (keyAt scope kind ordinal) with
  | none =>
    have htaken := List.find?_eq_none.1 hfind ordinal hordinal
    rw [hfree] at htaken
    exact absurd rfl htaken
  | some found =>
    have hfound : freeOrdinal catalog scope kind start = found := by
      unfold freeOrdinal
      simp only [hfind, Option.getD_some]
    rw [hfound]
    simpa using List.find?_range'_eq_some.1 hfind

/-- The search for a key that is not taken, from an ordinal on: how many ordinals are tried, and the
one that is found. -/
inductive Finds (catalog : KeyedCatalog) (scope : String) (kind : KeyKind) : Nat → Nat → Nat → Prop
  | free {ordinal : Nat} (absent : catalog.contains (keyAt scope kind ordinal) = false) :
      Finds catalog scope kind ordinal 1 ordinal
  | taken {ordinal tries found : Nat} (present : catalog.contains (keyAt scope kind ordinal) = true)
      (later : Finds catalog scope kind (ordinal + 1) tries found) :
      Finds catalog scope kind ordinal (tries + 1) found

/-- A search goes through all ordinals whose keys are taken. -/
theorem finds_of_taken {count : Nat}
    (htaken : ∀ ordinal, start ≤ ordinal → ordinal < start + count →
      catalog.contains (keyAt scope kind ordinal) = true)
    (hfree : catalog.contains (keyAt scope kind (start + count)) = false) :
    Finds catalog scope kind start (count + 1) (start + count) := by
  induction count generalizing start with
  | zero => exact .free hfree
  | succ count ih =>
    have hnext : start + (count + 1) = start + 1 + count := by omega
    refine .taken (htaken start (by omega) (by omega)) ?_
    rw [hnext] at htaken hfree ⊢
    exact ih (fun ordinal hstart hstop ↦ htaken ordinal (by omega) hstop) hfree

/-- The search ends after at most one more try than the catalog has entries. -/
theorem exists_finds_freeOrdinal (catalog : KeyedCatalog) (scope : String) (kind : KeyKind)
    (start : Nat) :
    ∃ tries, tries ≤ catalog.size + 1 ∧
      Finds catalog scope kind start tries (freeOrdinal catalog scope kind start) := by
  obtain ⟨hfree, hmem, htaken⟩ := freeOrdinal_spec catalog scope kind start
  obtain ⟨hstart, hstop⟩ := List.mem_range'_1.1 hmem
  obtain ⟨count, hcount⟩ := Nat.exists_eq_add_of_le hstart
  rw [hcount] at hfree htaken hstop ⊢
  exact ⟨count + 1, by omega, finds_of_taken htaken hfree⟩

/-- What a search finds is the least ordinal from its start on whose key is not taken. -/
theorem Finds.isLeast (h : Finds catalog scope kind start tries found) :
    IsLeast {ordinal | start ≤ ordinal ∧ catalog.contains (keyAt scope kind ordinal) = false}
      found := by
  induction h with
  | free absent => exact ⟨⟨Nat.le_refl _, absent⟩, fun other hother ↦ hother.1⟩
  | @taken ordinal tries found present later ih =>
    obtain ⟨⟨hstart, hfree⟩, hleast⟩ := ih
    refine ⟨⟨by omega, hfree⟩, fun other hother ↦ hleast ⟨?_, hother.2⟩⟩
    have hne : ordinal ≠ other := by
      rintro rfl
      exact Bool.false_ne_true (hother.2.symm.trans present)
    exact Nat.lt_of_le_of_ne hother.1 hne

/-- The ordinal of the key that a minter gives out next for a kind. -/
def ordinalFor (minter : Minter) (kind : KeyKind) (catalog : KeyedCatalog) : Nat :=
  freeOrdinal catalog minter.scope kind (minter.next kind)

theorem mint_eq (minter : Minter) (kind : KeyKind) (catalog : KeyedCatalog) :
    minter.mint kind catalog =
      (keyAt minter.scope kind (minter.ordinalFor kind catalog),
        minter.goOn kind (minter.ordinalFor kind catalog)) := rfl

/-- A minted key is not in the catalog. -/
theorem mint_fresh (minter : Minter) (kind : KeyKind) (catalog : KeyedCatalog) :
    catalog.contains (minter.mint kind catalog).1 = false :=
  (freeOrdinal_spec catalog minter.scope kind _).1

theorem next_le_ordinalFor (minter : Minter) (kind : KeyKind) (catalog : KeyedCatalog) :
    minter.next kind ≤ minter.ordinalFor kind catalog :=
  (List.mem_range'_1.1 (freeOrdinal_spec catalog minter.scope kind _).2.1).1

@[simp]
theorem scope_goOn (minter : Minter) (kind : KeyKind) (ordinal : Nat) :
    (minter.goOn kind ordinal).scope = minter.scope := by
  cases kind <;> rfl

@[simp]
theorem scope_mint (minter : Minter) (kind : KeyKind) (catalog : KeyedCatalog) :
    (minter.mint kind catalog).2.scope = minter.scope :=
  scope_goOn ..

/-- Behind a key its kind goes on with the next ordinal, and the other kind where it was. -/
theorem next_goOn (minter : Minter) (kind other : KeyKind) (ordinal : Nat) :
    (minter.goOn kind ordinal).next other =
      if other = kind then ordinal + 1 else minter.next other := by
  cases kind <;> cases other <;> rfl

/-- The keys that a minter gives out one after the other, each for a kind and with the catalog of
that moment. -/
def mintAll (minter : Minter) : List (KeyKind × KeyedCatalog) → List String
  | [] => []
  | (kind, catalog) :: rest =>
    let (key, next) := minter.mint kind catalog
    key :: mintAll next rest

theorem mintAll_cons (minter : Minter) (kind : KeyKind) (catalog : KeyedCatalog)
    (rest : List (KeyKind × KeyedCatalog)) :
    minter.mintAll ((kind, catalog) :: rest) =
      keyAt minter.scope kind (minter.ordinalFor kind catalog) ::
        (minter.goOn kind (minter.ordinalFor kind catalog)).mintAll rest := rfl

/-- No key that a minter will give out has an ordinal that its kind has passed. -/
theorem exists_of_mem_mintAll {minter : Minter} {requests : List (KeyKind × KeyedCatalog)}
    (h : key ∈ minter.mintAll requests) :
    ∃ kind ordinal, key = keyAt minter.scope kind ordinal ∧ minter.next kind ≤ ordinal := by
  induction requests generalizing minter with
  | nil => cases h
  | cons request rest ih =>
    obtain ⟨kind, catalog⟩ := request
    rw [mintAll_cons] at h
    have hpassed := minter.next_le_ordinalFor kind catalog
    rcases List.mem_cons.1 h with rfl | hlater
    · exact ⟨kind, _, rfl, hpassed⟩
    · obtain ⟨other, ordinal, hkey, hnext⟩ := ih hlater
      rw [scope_goOn] at hkey
      rw [next_goOn] at hnext
      refine ⟨other, ordinal, hkey, ?_⟩
      split at hnext
      · next hsame =>
        rw [hsame]
        omega
      · exact hnext

/-- No key is given out twice, whatever the catalogs of the moment hold. -/
theorem nodup_mintAll (minter : Minter) (requests : List (KeyKind × KeyedCatalog)) :
    (minter.mintAll requests).Nodup := by
  induction requests generalizing minter with
  | nil => exact List.nodup_nil
  | cons request rest ih =>
    obtain ⟨kind, catalog⟩ := request
    rw [mintAll_cons]
    refine List.nodup_cons.2 ⟨fun hagain ↦ ?_, ih _⟩
    obtain ⟨other, ordinal, hkey, hnext⟩ := exists_of_mem_mintAll hagain
    obtain ⟨-, rfl, rfl⟩ := keyAt_inj.1 hkey
    rw [next_goOn, if_pos rfl] at hnext
    omega

/-- Minting ends, after at most one more try than the catalog has entries, with the key of the least
ordinal from the next one on that is not taken. Whatever catalogs it is asked with, no minter gives
out a key twice; and two minters give out the same key only for the same scope, kind and
ordinal. -/
theorem mint_ends_distinct :
    (∀ (minter : Minter) kind catalog, ∃ tries ordinal, tries ≤ catalog.size + 1 ∧
        Finds catalog minter.scope kind (minter.next kind) tries ordinal ∧
        IsLeast {free | minter.next kind ≤ free ∧
          catalog.contains (keyAt minter.scope kind free) = false} ordinal ∧
        minter.mint kind catalog =
          (keyAt minter.scope kind ordinal, minter.goOn kind ordinal)) ∧
      (∀ (minter : Minter) requests, (minter.mintAll requests).Nodup) ∧
      ∀ (first second : Minter) kind other catalog last,
        (first.mint kind catalog).1 = (second.mint other last).1 ↔
          first.scope = second.scope ∧ kind = other ∧
            first.ordinalFor kind catalog = second.ordinalFor other last := by
  refine ⟨fun minter kind catalog ↦ ?_, nodup_mintAll,
    fun first second kind other catalog last ↦ ?_⟩
  · obtain ⟨tries, htries, hfinds⟩ :=
      exists_finds_freeOrdinal catalog minter.scope kind (minter.next kind)
    exact ⟨tries, _, htries, hfinds, hfinds.isLeast, minter.mint_eq kind catalog⟩
  · rw [mint_eq, mint_eq]
    exact keyAt_inj

end Phrasebook.Minter
