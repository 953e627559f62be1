import Phrasebook.Proofs.Source.Again
import Phrasebook.Proofs.Source.Assignment
import Phrasebook.Proofs.Source.Untouched

/-!
# Lookups whose key a catalog lacks

A conversion reports the lookups of a source whose key the catalog lacks when it begins. New keys
are kept apart from the keys of the catalog, and from nothing else: what a lookup names that was
there before the conversion plays no part in minting. So a key that was reported can be in the
catalog afterwards, and this happens in exactly one way, when the conversion minted it for a new
text of the same source. Every other reported key stays out of the catalog, and whatever source
still looks it up is reported again.
-/

namespace Phrasebook.Conversion

open Syntax

variable {options : ConversionOptions} {path : Path} {scope code key : String}
variable {before after : KeyedCatalog} {conversion : Conversion}

/-- No key that a conversion reports as missing is in the catalog that it leaves behind. -/
def LeavesMissing (options : ConversionOptions) (path : Path) (scope code : String)
    (before : KeyedCatalog) : Prop :=
  ∀ conversion after, ofSource options path scope code before = .ok (conversion, after) →
    ∀ reference ∈ conversion.unknownKeys, after.contains reference.key = false

/-- A key was minted for a call between two catalogs: it is made of the scope, the kind of the text
and an ordinal, the text had no key before, and it is stored under this one. -/
structure MintedFor (scope : String) (before after : KeyedCatalog) (key : String)
    (call : KeyedSite) : Prop where
  given : call.key = key
  made : ∃ ordinal, key = Minter.keyAt scope call.site.found.kind ordinal
  fresh : before.contains key = false
  unstored : before.keyOf? call.site.found.template = none
  stored : after.get? key = some call.site.found.template

theorem MintedFor.contains {call : KeyedSite} (h : MintedFor scope before after key call) :
    after.contains key = true := by
  have hstored := h.stored
  unfold KeyedCatalog.get? at hstored
  rw [KeyedCatalog.contains, Catalog.contains, hstored, Option.isSome_some]

/-- A text that no entry of a catalog has is stored under no key. -/
theorem keyOf?_eq_none_of_foreign {template : String} (hindexed : before.Indexed)
    (h : ∀ old ∈ before.entries.entries, Text.trim old.2 ≠ Text.trim template) :
    before.keyOf? template = none := by
  cases hkey : before.keyOf? template with
  | none => rfl
  | some key =>
    obtain ⟨stored, hget, hsame⟩ := hindexed.get?_of_keyOf? hkey
    exact absurd hsame (h (key, stored) (Catalog.get?_eq_some_iff.1 hget))

/-- A key that a catalog did not have is there after giving keys to sites exactly when it was minted
for one of them. -/
theorem contains_assignKeys_iff {sites : List Site} (hindexed : before.Indexed)
    (hvisible : ∀ site ∈ sites, Text.trim site.found.template ≠ "")
    (hkey : before.contains key = false) :
    let assigned := assignKeys (.start scope) before sites
    assigned.2.1.contains key = true ↔
      ∃ call ∈ assigned.1, MintedFor scope before assigned.2.1 key call := by
  intro assigned
  obtain ⟨added, hassigned, -⟩ := assigned_assignKeys hindexed (.start scope) sites
  have hminted := minted_assignKeys hindexed hvisible hassigned
  constructor
  · intro hcontains
    have hmem : key ∈ assigned.2.1.entries.keys := Catalog.contains_iff.1 hcontains
    rw [hassigned.grown.keys] at hmem
    have hadded : key ∈ added.map Prod.fst :=
      (List.mem_append.1 hmem).resolve_left (Catalog.contains_eq_false_iff.1 hkey)
    obtain ⟨entry, hentry, rfl⟩ := List.mem_map.1 hadded
    obtain ⟨earlier, call, later, ordinal, hcalls, rfl, -, hmade⟩ := hminted.origin entry hentry
    refine ⟨call, ?_, rfl, ⟨ordinal, hmade⟩, hkey, ?_, ?_⟩
    · rw [show assigned.1 = earlier ++ call :: later from hcalls]
      exact List.mem_append_right _ List.mem_cons_self
    · exact keyOf?_eq_none_of_foreign hindexed fun old hold ↦
        hminted.foreign old hold (call.key, call.site.found.template) hentry
    · refine Catalog.get?_eq_some_iff.2 ?_
      rw [hassigned.grown]
      exact List.mem_append_right _ hentry
  · rintro ⟨call, -, hcall⟩
    exact hcall.contains

/-- A key that a conversion reports as missing is in the catalog afterwards exactly when the
conversion minted it for a new text of the same source. Otherwise every later conversion of a source
that looks it up reports it again. -/
theorem contains_missing_iff (loaded : Catalog) (inserted : List (String × String))
    (options : ConversionOptions) (path : Path) (scope code : String) (conversion : Conversion)
    (after : KeyedCatalog)
    (h : ofSource options path scope code ((KeyedCatalog.ofCatalog loaded).insertAll inserted) =
      .ok (conversion, after)) :
    let before := (KeyedCatalog.ofCatalog loaded).insertAll inserted
    ∃ module, Module.parse? path.hasMarkup code = some module ∧
      ∀ reference ∈ conversion.unknownKeys,
        (after.contains reference.key = true ↔
          ∃ call ∈ callsOf options scope module before,
            MintedFor scope before after reference.key call) ∧
        (after.contains reference.key = false →
          ∀ options path scope code again last,
            ofSource options path scope code after = .ok (again, last) →
            ∃ module, Module.parse? path.hasMarkup code = some module ∧
              ∀ other ∈ (Collection.ofModule options.excluded module).references,
                other.key = reference.key → other ∈ again.unknownKeys) := by
  intro before
  have hindexed : before.Indexed := (KeyedCatalog.indexed_ofCatalog loaded).insertAll inserted
  obtain ⟨module, hmodule, houtcome⟩ := ofSource_eq_ok_iff.1 h
  obtain ⟨output, -, houtput⟩ := Option.map_eq_some_iff.1 (ofModule?_eq_some_iff.1 houtcome).2
  cases houtput
  refine ⟨module, hmodule, fun reference hreference ↦ ⟨?_, fun habsent ↦ ?_⟩⟩
  · obtain ⟨-, hmissing⟩ := List.mem_filter.1 hreference
    exact contains_assignKeys_iff hindexed
      (fun site hsite ↦ Collection.trim_ne_empty_of_mem_sites hsite) (by simpa using hmissing)
  · intro options path scope code again last hagain
    obtain ⟨other, hother, -, hunknown⟩ := found_of_ofSource hagain
    refine ⟨other, hother, fun found hfound hsame ↦ ?_⟩
    rw [hunknown, List.mem_filter, hsame, habsent]
    exact ⟨hfound, rfl⟩

/-- A source with a lookup whose text was lost, and with a text that is not stored. -/
def halfLost : String :=
  "import \x7b t \x7d from \"localise-ai-sdk\";\n" ++
    "const a = <p>\x7bt(\"a.text_1\")\x7d<b>Hello</b></p>;\n"

/-- The text gets the very key of the lookup. -/
theorem exists_ofSource_halfLost :
    ∃ conversion after,
      ofSource plainOptions ⟨"a.tsx"⟩ "a" halfLost (.ofCatalog .empty) = .ok (conversion, after) ∧
      ∃ reference ∈ conversion.unknownKeys, after.contains reference.key = true := by
  have hevaluated :
      (ofSource plainOptions ⟨"a.tsx"⟩ "a" halfLost (.ofCatalog .empty)).toOption.map
        (fun outcome ↦ (outcome.1.unknownKeys.map KeyReference.key,
          outcome.2.contains "a.text_1")) = some (["a.text_1"], true) := by
    decide +kernel
  cases hconverted : ofSource plainOptions ⟨"a.tsx"⟩ "a" halfLost (.ofCatalog .empty) with
  | error fault =>
    rw [hconverted] at hevaluated
    cases hevaluated
  | ok outcome =>
    rw [hconverted] at hevaluated
    obtain ⟨hkeys, hcontains⟩ := Prod.mk.inj (Option.some.inj hevaluated)
    obtain ⟨reference, hreference, hkey⟩ := List.mem_map.1 (hkeys ▸ List.mem_cons_self)
    exact ⟨outcome.1, outcome.2, rfl, reference, hreference, hkey ▸ hcontains⟩

theorem not_leavesMissing_halfLost :
    ¬ LeavesMissing plainOptions ⟨"a.tsx"⟩ "a" halfLost (.ofCatalog .empty) := by
  intro hleaves
  obtain ⟨conversion, after, hconverted, reference, hreference, hcontains⟩ :=
    exists_ofSource_halfLost
  rw [hleaves conversion after hconverted reference hreference] at hcontains
  cases hcontains

theorem contains_missing_halfLost :
    ∃ conversion after module,
      ofSource plainOptions ⟨"a.tsx"⟩ "a" halfLost (.ofCatalog .empty) = .ok (conversion, after) ∧
      Module.parse? true halfLost = some module ∧
      ∃ reference ∈ conversion.unknownKeys,
        ∃ call ∈ callsOf plainOptions "a" module (.ofCatalog .empty),
          MintedFor "a" (.ofCatalog .empty) after reference.key call := by
  obtain ⟨conversion, after, hconverted, reference, hreference, hcontains⟩ :=
    exists_ofSource_halfLost
  obtain ⟨module, hmodule, hmissing⟩ :=
    contains_missing_iff .empty [] plainOptions ⟨"a.tsx"⟩ "a" halfLost conversion after hconverted
  exact ⟨conversion, after, module, hconverted, hmodule, reference, hreference,
    (hmissing reference hreference).1.1 hcontains⟩

end Phrasebook.Conversion
