import Phrasebook.Proofs.Source.Edits
import Phrasebook.Proofs.Source.Keys

/-!
# What a conversion that succeeds amounts to

The calls of a conversion are the sites of its module with their keys. Its output is the source
with each call put in the place of its site, besides the edits that make the lookup function
available.
-/

namespace Phrasebook.Conversion

/-- A source was converted: its sites became calls, and the catalog grew by their new keys. -/
structure Converted (options : ConversionOptions) (path : Path) (code : String)
    (before : KeyedCatalog) (conversion : Conversion) (calls : List KeyedSite)
    (after : KeyedCatalog) (added : List (String × String)) : Prop where
  assigned : Assigned before calls after added
  /-- The calls stand in the output for the sites of the module that the source is. -/
  emitted : ∃ module access, Syntax.Module.parse? path.hasMarkup code = some module ∧
    calls.map KeyedSite.site = (Collection.ofModule options.excluded module).sites ∧
    Edit.applyAll? code (calls.map siteEdit ++ access) = some conversion.output
  replacements : conversion.replacements = calls.length
  newKeys : conversion.newKeys = added.length
  modified : conversion.modified = (conversion.output != code)

variable {options : ConversionOptions} {path : Path} {scope code : String}
variable {before after : KeyedCatalog} {conversion : Conversion}

theorem ofSource_eq_ok_iff {outcome : Conversion × KeyedCatalog} :
    ofSource options path scope code before = .ok outcome ↔
      ∃ module, Syntax.Module.parse? path.hasMarkup code = some module ∧
        ofModule? options scope code module before = some outcome := by
  unfold ofSource
  cases Syntax.Module.parse? path.hasMarkup code with
  | none => simp
  | some module => cases hmodule : ofModule? options scope code module before <;> simp [hmodule]

/-- A module is converted when no text that is looked at is cut and the edits can be applied. -/
theorem ofModule?_eq_some_iff {module : Syntax.Module} {outcome : Conversion × KeyedCatalog} :
    ofModule? options scope code module before = some outcome ↔
      (Collection.ofModule options.excluded module).cutsCharacter = false ∧
        ofCollection? options scope code module (Collection.ofModule options.excluded module)
          before = some outcome := by
  unfold ofModule?
  cases hcut : (Collection.ofModule options.excluded module).cutsCharacter <;> simp [hcut]

theorem parse?_eq_none_of_unreadable
    (h : ofSource options path scope code before = .error .unreadable) :
    Syntax.Module.parse? path.hasMarkup code = none := by
  unfold ofSource at h
  split at h
  · assumption
  · split at h <;> cases h

/-- Whether a module can be converted depends neither on the scope of the keys nor on the catalog.
-/
theorem isSome_ofModule?_congr (module : Syntax.Module) (first second : String)
    (catalog other : KeyedCatalog) :
    (ofModule? options first code module catalog).isSome =
      (ofModule? options second code module other).isSome := by
  unfold ofModule?
  dsimp only
  split
  · rfl
  · generalize Collection.ofModule options.excluded module = collection
    have hsites (scope : String) (catalog : KeyedCatalog) :
        (assignKeys (.start scope) catalog collection.sites).1.map KeyedSite.site =
          collection.sites := sites_assignKeys ..
    have hranges (calls : List KeyedSite) : (calls.map siteEdit).map Edit.blank =
        (calls.map KeyedSite.site).map fun site ↦ .delete site.start site.stop := by
      rw [List.map_map, List.map_map]
      rfl
    have hempty (calls : List KeyedSite) : calls.isEmpty = (calls.map KeyedSite.site).isEmpty :=
      List.isEmpty_map.symm
    unfold ofCollection?
    dsimp only
    rw [Option.isSome_map, Option.isSome_map]
    apply Edit.isSome_applyAll?_congr
    rw [List.map_append, List.map_append, hranges, hranges, hempty,
      hempty (assignKeys (.start second) other collection.sites).1, hsites, hsites]

theorem ofSource_eq_cutsCharacter_iff :
    ofSource options path scope code before = .error .cutsCharacter ↔
      ∃ module, Syntax.Module.parse? path.hasMarkup code = some module ∧
        ofModule? options scope code module before = none := by
  unfold ofSource
  cases Syntax.Module.parse? path.hasMarkup code with
  | none => simp
  | some module => cases hmodule : ofModule? options scope code module before <;> simp [hmodule]

/-- A source that is cut is cut with any catalog. -/
theorem ofSource_cutsCharacter (h : ofSource options path scope code before = .error .cutsCharacter)
    (other : String) (catalog : KeyedCatalog) :
    ofSource options path other code catalog = .error .cutsCharacter := by
  obtain ⟨module, hmodule, hnone⟩ := ofSource_eq_cutsCharacter_iff.1 h
  refine ofSource_eq_cutsCharacter_iff.2 ⟨module, hmodule, ?_⟩
  rw [← Option.isNone_iff_eq_none, ← Option.not_isSome, isSome_ofModule?_congr module other scope
    catalog before, hnone]
  rfl

/-- A conversion counts the sites of a source and tells the lookups whose key the catalog lacked
when it began. -/
theorem found_of_ofSource (h : ofSource options path scope code before = .ok (conversion, after)) :
    ∃ module, Syntax.Module.parse? path.hasMarkup code = some module ∧
      conversion.replacements = (Collection.ofModule options.excluded module).sites.length ∧
      conversion.unknownKeys = (Collection.ofModule options.excluded module).references.filter
        fun reference ↦ !before.contains reference.key := by
  obtain ⟨module, hmodule, houtcome⟩ := ofSource_eq_ok_iff.1 h
  obtain ⟨output, -, houtput⟩ := Option.map_eq_some_iff.1 (ofModule?_eq_some_iff.1 houtcome).2
  cases houtput
  refine ⟨module, hmodule, ?_, rfl⟩
  have hsites := sites_assignKeys (.start scope) before
    (Collection.ofModule options.excluded module).sites
  exact (List.length_map _).symm.trans (congrArg List.length hsites)

/-- After a conversion the edit of each call is carried out, and the key of the call has the text of
its site, up to the blanks at the edges. -/
theorem emitted_of_mem_assignKeys {module : Syntax.Module} {call : KeyedSite}
    (hindexed : before.Indexed)
    (h : ofSource options path scope code before = .ok (conversion, after))
    (hmodule : Syntax.Module.parse? path.hasMarkup code = some module)
    (hcall : call ∈ (assignKeys (.start scope) before
      (Collection.ofModule options.excluded module).sites).1) :
    (∃ edits, Edit.applyAll? code edits = some conversion.output ∧ siteEdit call ∈ edits) ∧
      ∃ stored, after.get? call.key = some stored ∧
        Text.trim stored = Text.trim call.site.found.template := by
  obtain ⟨same, hsame, houtcome⟩ := ofSource_eq_ok_iff.1 h
  cases hmodule.symm.trans hsame
  obtain ⟨added, hassigned, -⟩ := assigned_assignKeys hindexed (.start scope)
    (Collection.ofModule options.excluded module).sites
  obtain ⟨output, happly, houtput⟩ := Option.map_eq_some_iff.1 (ofModule?_eq_some_iff.1 houtcome).2
  cases houtput
  constructor
  · exact ⟨_, happly, List.mem_append_left _ (List.mem_map_of_mem hcall)⟩
  · exact hassigned.texts call hcall

/-- Whatever is converted, its calls have keys that were found or added, and its output is what the
edits make of it. -/
theorem converted_of_ofSource (hindexed : before.Indexed)
    (h : ofSource options path scope code before = .ok (conversion, after)) :
    ∃ calls added, Converted options path code before conversion calls after added := by
  obtain ⟨module, hmodule, houtcome⟩ := ofSource_eq_ok_iff.1 h
  obtain ⟨added, hassigned, hcount⟩ := assigned_assignKeys hindexed (.start scope)
    (Collection.ofModule options.excluded module).sites
  have hsites := sites_assignKeys (.start scope) before
    (Collection.ofModule options.excluded module).sites
  obtain ⟨output, happly, houtput⟩ := Option.map_eq_some_iff.1 (ofModule?_eq_some_iff.1 houtcome).2
  cases houtput
  exact ⟨_, added, hassigned, ⟨module, _, hmodule, hsites, happly⟩, rfl, hcount.symm, rfl⟩

end Phrasebook.Conversion
