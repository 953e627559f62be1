import Phrasebook.Proofs.Source.Assignment
import Phrasebook.Proofs.Text.Relaid

/-!
# Reformatted texts keep their keys

Once a site has got a key, the catalog leads from its text to this key, and goes on to do so. A text
between two tags that was only laid out anew is found to be the same text, so it gets the key that
it had, whatever else has changed in its source.
-/

namespace Phrasebook

namespace KeyedCatalog

variable {catalog : KeyedCatalog} {key text : String}

/-- A text that is inserted under a new key is found under it, if it was not found before. -/
theorem Indexed.keyOf?_insert (hindexed : catalog.Indexed) (hfresh : catalog.contains key = false)
    (hvisible : Text.isBlankText text = false) (hunknown : catalog.keyOf? text = none) :
    (catalog.insert key text).keyOf? text = some key := by
  have hforeign := (hindexed.keyOf?_eq_none_iff.1 hunknown).resolve_left (by simp [hvisible])
  refine (hindexed.insert key text).keyOf?_eq_some_iff.2 ⟨hvisible, catalog.entries.entries, text,
    [], entries_insert hfresh, rfl, hforeign⟩

end KeyedCatalog

namespace Conversion

variable {minter later : Minter} {catalog : KeyedCatalog} {sites others : List Site}
variable {call again : KeyedSite} {first second : String}

/-- Once keys were given to sites, the text of each site leads to its key. -/
theorem keyOf?_of_mem_assignKeys (hindexed : catalog.Indexed)
    (hcall : call ∈ (assignKeys minter catalog sites).1)
    (hvisible : Text.isBlankText call.site.found.template = false) :
    (assignKeys minter catalog sites).2.1.keyOf? call.site.found.template = some call.key := by
  induction sites generalizing minter catalog with
  | nil => cases hcall
  | cons site rest ih =>
    cases hkey : catalog.keyOf? site.found.template with
    | some key =>
      rw [assignKeys_known hkey] at hcall ⊢
      rcases List.mem_cons.1 hcall with rfl | hlater
      · obtain ⟨added, hassigned, -⟩ := assigned_assignKeys hindexed minter rest
        exact hassigned.grown.keyOf? hindexed hassigned.indexed hkey
      · exact ih hindexed hlater
    | none =>
      rw [assignKeys_new hkey] at hcall ⊢
      have hfresh := Minter.mint_fresh minter site.found.kind catalog
      have hinsert := hindexed.insert (minter.mint site.found.kind catalog).1 site.found.template
      rcases List.mem_cons.1 hcall with rfl | hlater
      · obtain ⟨added, hassigned, -⟩ :=
          assigned_assignKeys hinsert (minter.mint site.found.kind catalog).2 rest
        exact hassigned.grown.keyOf? hinsert hassigned.indexed
          (hindexed.keyOf?_insert hfresh hvisible hkey)
      · exact ih hinsert hlater

/-- A site gets the key that a site with the same text got before. -/
theorem key_eq_of_assignKeys (hindexed : catalog.Indexed)
    (hcall : call ∈ (assignKeys minter catalog sites).1)
    (hagain : again ∈ (assignKeys later (assignKeys minter catalog sites).2.1 others).1)
    (hvisible : Text.isBlankText call.site.found.template = false)
    (hsame : again.site.found.template = call.site.found.template) : again.key = call.key := by
  obtain ⟨_, hgiven, -⟩ := assigned_assignKeys hindexed minter sites
  obtain ⟨_, hfinal, -⟩ := assigned_assignKeys hgiven.indexed later others
  have hfirst := keyOf?_of_mem_assignKeys hindexed hcall hvisible
  have hsecond := keyOf?_of_mem_assignKeys hgiven.indexed hagain (hsame ▸ hvisible)
  have hkept := hfinal.grown.keyOf? hgiven.indexed hfinal.indexed hfirst
  rw [hsame, hkept] at hsecond
  exact (Option.some.inj hsecond).symm

/-- Two texts between tags are stored in the same form and found to be the same text, and where a
site with the one has got a key, a site with the other gets this key from then on. -/
structure SameKey (first second : String) : Prop where
  stored : Text.normalizeMarkupText first = Text.normalizeMarkupText second
  found : Rule.matchText first = Rule.matchText second
  key : ∀ (loaded : Catalog) inserted minter later sites others,
    let before := (KeyedCatalog.ofCatalog loaded).insertAll inserted
    let given := assignKeys minter before sites
    ∀ call ∈ given.1, ∀ again ∈ (assignKeys later given.2.1 others).1,
      Rule.matchText first = some call.site.found →
        Rule.matchText second = some again.site.found → again.key = call.key

theorem isBlankText_of_matchText {found : Match} (h : Rule.matchText first = some found) :
    Text.isBlankText found.template = false := by
  have hevaluate : Rule.evaluate [] (.text first) = some found := h
  exact Bool.eq_false_iff.2 fun hblank ↦
    Rule.trim_ne_empty_of_evaluate hevaluate (Text.trim_eq_empty_iff.2 hblank)

/-- Two texts that are stored in the same form have the same key. -/
theorem SameKey.of_stored (h : Text.normalizeMarkupText first = Text.normalizeMarkupText second) :
    SameKey first second := by
  have hfound : Rule.matchText first = Rule.matchText second := by
    unfold Rule.matchText
    rw [h]
  refine ⟨h, hfound, fun loaded inserted minter later sites others call hcall again hagain ↦ ?_⟩
  intro hfirst hsecond
  have hindexed := (KeyedCatalog.indexed_ofCatalog loaded).insertAll inserted
  have hsame : again.site.found = call.site.found :=
    Option.some.inj (hsecond.symm.trans (hfound.symm.trans hfirst))
  exact key_eq_of_assignKeys hindexed hcall hagain (isBlankText_of_matchText hfirst)
    (congrArg Match.template hsame)

/-- A text between two tags keeps its stored form and its key exactly under changes of its layout;
and its stored form is stored as it is. -/
theorem sameKey_iff_reformatted (first second : String) :
    (SameKey first second ↔ Text.Reformatted first second) ∧
      Text.normalizeMarkupText (Text.normalizeMarkupText first) =
        Text.normalizeMarkupText first := by
  refine ⟨⟨fun h ↦ Text.reformatted_iff.2 h.stored, fun h ↦ ?_⟩, ?_⟩
  · exact SameKey.of_stored (Text.reformatted_iff.1 h)
  · exact Text.normalizeMarkupText_normalizeMarkupText first

end Conversion

end Phrasebook
