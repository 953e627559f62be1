import Phrasebook.Proofs.Source.Candidates
import Phrasebook.Proofs.Source.Conversion
import Phrasebook.Proofs.Source.InPlace

/-!
# New keys and new texts

A conversion mints a key only for a text that the catalog does not hold. So every entry that it
adds has a text of its own, up to the blanks at the edges: no other entry has it, whether it was
there before or is new as well. The key is made of the scope, the kind of the site that was the
first to use it, and an ordinal.
-/

namespace Phrasebook

namespace KeyedCatalog

variable {catalog : KeyedCatalog} {key text : String}

/-- A text without a key is no text of an entry, unless it is blank. -/
theorem Indexed.trim_ne_of_keyOf? (hindexed : catalog.Indexed) (h : catalog.keyOf? text = none)
    (hvisible : Text.trim text ≠ "") :
    ∀ entry ∈ catalog.entries.entries, Text.trim entry.2 ≠ Text.trim text := by
  have hshown : ¬ Text.isBlankText text = true := fun hblank ↦
    hvisible (Text.trim_eq_empty_iff.2 hblank)
  exact (hindexed.keyOf?_eq_none_iff.1 h).resolve_left hshown

theorem GrownBy.unique {before after : KeyedCatalog} {first second : List (String × String)}
    (hfirst : before.GrownBy after first) (hsecond : before.GrownBy after second) :
    first = second :=
  List.append_cancel_left (hfirst.symm.trans hsecond)

theorem Indexed.contains_of_keyOf? (hindexed : catalog.Indexed)
    (h : catalog.keyOf? text = some key) : catalog.contains key = true := by
  obtain ⟨template, htemplate, -⟩ := hindexed.get?_of_keyOf? h
  unfold get? at htemplate
  rw [contains, Catalog.contains, htemplate, Option.isSome_some]

theorem contains_insert_self (catalog : KeyedCatalog) (key template : String) :
    (catalog.insert key template).contains key = true := by
  cases h : catalog.contains key with
  | true => rwa [insert_of_contains h]
  | false =>
    refine Catalog.contains_iff.2 ?_
    rw [(grownBy_insert h template).keys]
    exact List.mem_append_right _ List.mem_cons_self

/-- A key that a catalog had is none that it has grown by. -/
theorem GrownBy.ne_of_contains {before after : KeyedCatalog} {added : List (String × String)}
    (grown : before.GrownBy after added) {entry : String × String} (h : entry ∈ added)
    (hkey : before.contains key = true) : entry.1 ≠ key := by
  have hnodup : after.entries.keys.Nodup := after.entries.keys_nodup
  rw [grown.keys] at hnodup
  rintro rfl
  exact List.disjoint_of_nodup_append hnodup (Catalog.contains_iff.1 hkey)
    (List.mem_map_of_mem h)

end KeyedCatalog

namespace Conversion

/-- What holds of the entries that giving keys to sites adds to a catalog. -/
structure Minted (scope : String) (before : KeyedCatalog) (calls : List KeyedSite)
    (added : List (String × String)) : Prop where
  /-- An entry is there for the first site that has its key, and the key is made for that site. -/
  origin : ∀ entry ∈ added, ∃ earlier call later ordinal, calls = earlier ++ call :: later ∧
    entry = (call.key, call.site.found.template) ∧ (∀ other ∈ earlier, other.key ≠ call.key) ∧
    call.key = Minter.keyAt scope call.site.found.kind ordinal
  distinct : added.Pairwise fun first second ↦ Text.trim first.2 ≠ Text.trim second.2
  foreign : ∀ old ∈ before.entries.entries, ∀ entry ∈ added, Text.trim old.2 ≠ Text.trim entry.2

variable {scope key : String} {before after catalog : KeyedCatalog} {site : Site}
variable {calls : List KeyedSite} {added : List (String × String)}

theorem Minted.nil (scope : String) (before : KeyedCatalog) (calls : List KeyedSite) :
    Minted scope before calls [] where
  origin := by simp
  distinct := List.Pairwise.nil
  foreign := by simp

/-- One more site in front whose text was known. -/
theorem Minted.known (h : Minted scope catalog calls added)
    (hkey : ∀ entry ∈ added, entry.1 ≠ key) :
    Minted scope catalog (⟨site, key⟩ :: calls) added where
  origin := by
    intro entry hentry
    obtain ⟨earlier, call, later, ordinal, rfl, rfl, hfirst, hmade⟩ := h.origin entry hentry
    refine ⟨⟨site, key⟩ :: earlier, call, later, ordinal, rfl, rfl, ?_, hmade⟩
    intro other hother
    rcases List.mem_cons.1 hother with rfl | hmem
    · exact (hkey _ hentry).symm
    · exact hfirst other hmem
  distinct := h.distinct
  foreign := h.foreign

/-- One more site in front whose text was new. -/
theorem Minted.new {ordinal : Nat}
    (h : Minted scope (catalog.insert key site.found.template) calls added)
    (hfresh : catalog.contains key = false)
    (hmade : key = Minter.keyAt scope site.found.kind ordinal)
    (hkey : ∀ entry ∈ added, entry.1 ≠ key)
    (hforeign : ∀ old ∈ catalog.entries.entries,
      Text.trim old.2 ≠ Text.trim site.found.template) :
    Minted scope catalog (⟨site, key⟩ :: calls) ((key, site.found.template) :: added) where
  origin := by
    intro entry hentry
    rcases List.mem_cons.1 hentry with rfl | hmem
    · exact ⟨[], ⟨site, key⟩, calls, ordinal, rfl, rfl, by simp, hmade⟩
    · obtain ⟨earlier, call, later, other, rfl, rfl, hfirst, hcall⟩ := h.origin entry hmem
      refine ⟨⟨site, key⟩ :: earlier, call, later, other, rfl, rfl, ?_, hcall⟩
      intro former hformer
      rcases List.mem_cons.1 hformer with rfl | hbefore
      · exact (hkey _ hmem).symm
      · exact hfirst former hbefore
  distinct := by
    refine List.pairwise_cons.2 ⟨fun entry hentry ↦ ?_, h.distinct⟩
    refine h.foreign (key, site.found.template) ?_ entry hentry
    rw [KeyedCatalog.entries_insert hfresh]
    exact List.mem_append_right _ List.mem_cons_self
  foreign := by
    intro old hold entry hentry
    rcases List.mem_cons.1 hentry with rfl | hmem
    · exact hforeign old hold
    · refine h.foreign old ?_ entry hmem
      rw [KeyedCatalog.entries_insert hfresh]
      exact List.mem_append_left _ hold

/-- Keys that are given to visible texts are minted for those that the catalog does not have. -/
theorem minted_assignKeys {minter : Minter} {sites : List Site} (hindexed : catalog.Indexed)
    (hvisible : ∀ site ∈ sites, Text.trim site.found.template ≠ "")
    (h : Assigned catalog (assignKeys minter catalog sites).1
      (assignKeys minter catalog sites).2.1 added) :
    Minted minter.scope catalog (assignKeys minter catalog sites).1 added := by
  induction sites generalizing minter catalog added with
  | nil =>
    rw [List.sublist_nil.1 h.origin]
    exact .nil ..
  | cons site rest ih =>
    have hrest : ∀ later ∈ rest, Text.trim later.found.template ≠ "" :=
      fun later hlater ↦ hvisible later (List.mem_cons_of_mem _ hlater)
    cases hfound : catalog.keyOf? site.found.template with
    | some key =>
      rw [assignKeys_known hfound] at h ⊢
      obtain ⟨others, hassigned, -⟩ := assigned_assignKeys hindexed minter rest
      cases h.grown.unique hassigned.grown
      have hkey := hindexed.contains_of_keyOf? hfound
      exact (ih hindexed hrest hassigned).known fun entry hentry ↦
        hassigned.grown.ne_of_contains hentry hkey
    | none =>
      -- The entries for the remaining sites are new to the catalog that holds the minted one
      -- already, so they differ from it in their key and in their text.
      rw [assignKeys_new hfound] at h ⊢
      have hfresh := Minter.mint_fresh minter site.found.kind catalog
      obtain ⟨others, hassigned, -⟩ := assigned_assignKeys
        (hindexed.insert (minter.mint site.found.kind catalog).1 site.found.template)
        (minter.mint site.found.kind catalog).2 rest
      have hinsert := KeyedCatalog.grownBy_insert hfresh site.found.template
      cases h.grown.unique (hinsert.trans hassigned.grown)
      have hlater := ih (hindexed.insert _ _) hrest hassigned
      rw [Minter.scope_mint] at hlater
      have hkey := KeyedCatalog.contains_insert_self catalog
        (minter.mint site.found.kind catalog).1 site.found.template
      exact hlater.new hfresh rfl
        (fun entry hentry ↦ hassigned.grown.ne_of_contains hentry hkey)
        (hindexed.trim_ne_of_keyOf? hfound (hvisible site List.mem_cons_self))

/-- The text that takes the place of a site calls the lookup function with its key. -/
theorem exists_replacement_eq (call : KeyedSite) :
    ∃ opening closing,
      replacement call = opening ++ lookupName ++ "(" ++ Json.quote call.key ++ closing := by
  have hcall : ∃ closing, lookupCall call.key call.site.found.arguments =
      lookupName ++ "(" ++ Json.quote call.key ++ closing := by
    unfold lookupCall
    split
    · exact ⟨")", rfl⟩
    · exact ⟨", \x7b " ++ ", ".intercalate (call.site.found.arguments.map argumentProperty) ++
        " \x7d)", by simp only [String.append_assoc]⟩
  obtain ⟨closing, hcall⟩ := hcall
  unfold replacement
  rw [hcall]
  cases call.site.slot with
  | child => exact ⟨"\x7b", closing ++ "\x7d", by simp only [String.append_assoc]⟩
  | «attribute» => exact ⟨"\x7b", closing ++ "\x7d", by simp only [String.append_assoc]⟩
  | expression => exact ⟨"", closing, by simp only [String.append_assoc, String.empty_append]⟩

/-- A conversion gives every site a key that has its text, and adds an entry only for a text that
no entry has. When the source is no module the catalog stays as it was. An edit that would cut a
character ends the program, and there is no catalog any more. -/
theorem inPlace_keys (loaded : Catalog) (inserted : List (String × String))
    (options : ConversionOptions) (path : Path) (scope code : String) :
    let before := (KeyedCatalog.ofCatalog loaded).insertAll inserted
    match inPlace options path scope code before with
    | (.error .unreadable, after) =>
      ofSource options path scope code before = .error .unreadable ∧ after = before
    | (.error .cutsCharacter, _) =>
      ofSource options path scope code before = .error .cutsCharacter
    | (.ok conversion, after) =>
      ofSource options path scope code before = .ok (conversion, after) ∧
        ∃ module calls added access, Syntax.Module.parse? path.hasMarkup code = some module ∧
          calls.map KeyedSite.site = (Collection.ofModule options.excluded module).sites ∧
          Edit.applyAll? code (calls.map siteEdit ++ access) = some conversion.output ∧
          after.entries.entries = before.entries.entries ++ added ∧
          added.length = conversion.newKeys ∧
          (∀ call ∈ calls,
            (∃ opening closing, (siteEdit call).text =
              opening ++ lookupName ++ "(" ++ Json.quote call.key ++ closing) ∧
            ∃ template, after.get? call.key = some template ∧
              Text.trim template = Text.trim call.site.found.template) ∧
          Minted scope before calls added := by
  intro before
  have hindexed : before.Indexed := (KeyedCatalog.indexed_ofCatalog loaded).insertAll inserted
  split
  · next after hfailed =>
    exact ⟨ofSource_of_inPlace_error hfailed, eq_of_inPlace_unreadable hfailed⟩
  · next after hfailed => exact ofSource_of_inPlace_error hfailed
  · next conversion after hanswer =>
    have hconverted := inPlace_ok_iff.1 hanswer
    obtain ⟨module, hmodule, houtcome⟩ := ofSource_eq_ok_iff.1 hconverted
    obtain ⟨added, hassigned, hcount⟩ := assigned_assignKeys hindexed (.start scope)
      (Collection.ofModule options.excluded module).sites
    have hminted := minted_assignKeys hindexed
      (fun site hsite ↦ Collection.trim_ne_empty_of_mem_sites hsite) hassigned
    obtain ⟨output, happly, houtput⟩ := Option.map_eq_some_iff.1 (ofModule?_eq_some_iff.1 houtcome).2
    cases houtput
    refine ⟨hconverted, module, _, added, _, hmodule, sites_assignKeys .., happly,
      hassigned.grown, hcount, fun call hcall ↦ ?_, hminted⟩
    exact ⟨exists_replacement_eq call, hassigned.texts call hcall⟩

end Conversion

end Phrasebook
