import Phrasebook.Proofs.Source.Untouched

/-!
# Where the hook brings the lookup function

With the hook, the lookup function is known in the function body that binds it. A conversion puts
the binding into the first body that a module offers, and imports the function itself when there is
no such body. The calls in that body can be carried out; those in another component cannot.
-/

namespace Phrasebook.Conversion

open Syntax

variable {options : ConversionOptions} {path : Path} {scope code : String}
variable {before after : KeyedCatalog} {conversion : Conversion} {module : Module} {body : Node}
variable {library name : String} {edits : List Edit}

/-- Whether something in a node binds the lookup function to the result of the hook. -/
def bindsInside (node : Node) : Bool :=
  node.all.any Collection.bindsLookup

/-- A name is imported from a module, before edits or by one of them. -/
def Gets (layout : Layout) (library name : String) (edits : List Edit) : Prop :=
  (layout.importsFrom library).any (·.importsName name) = true ∨
    ∃ edit ∈ ensureImport layout library name, edit ∈ edits

/-- A site stands in a body that binds the lookup function, before edits or by one of them. -/
def InScope (excluded : List String) (module : Module) (edits : List Edit) (site : Site) : Prop :=
  ∃ body ∈ Node.allOf module.items, body.kind = .block ∧
    site ∈ (Collection.ofNode module.text excluded body).sites ∧
    (bindsInside body = true ∨ hookEdit module.text (Collection.placeIn body) ∈ edits)

instance (layout : Layout) (library name : String) (edits : List Edit) :
    Decidable (Gets layout library name edits) :=
  inferInstanceAs (Decidable (_ ∨ _))

instance (excluded : List String) (module : Module) (edits : List Edit) (site : Site) :
    Decidable (InScope excluded module edits site) :=
  inferInstanceAs (Decidable (∃ body ∈ Node.allOf module.items, _))

/-- The edits that import a name leave it imported. -/
theorem gets_of_subset {layout : Layout} (h : ensureImport layout library name ⊆ edits) :
    Gets layout library name edits := by
  cases hpresent : (layout.importsFrom library).any (·.importsName name) with
  | true => exact .inl hpresent
  | false =>
    obtain ⟨edit, hedit⟩ := List.length_eq_one_iff.1 (length_ensureImport hpresent)
    have hmem : edit ∈ ensureImport layout library name := hedit ▸ List.mem_cons_self
    exact .inr ⟨edit, hmem, h hmem⟩

/-- When a conversion makes calls, the edits that make the lookup function available are among its
edits. -/
theorem accessEdits_subset {catalog : KeyedCatalog}
    (h : callsOf options scope module catalog ≠ []) :
    accessEdits options module (Collection.ofModule options.excluded module) ⊆
      editsOf options scope module catalog := by
  have hcalls : ¬ (callsOf options scope module catalog).isEmpty = true := by
    rw [List.isEmpty_iff]
    exact h
  unfold editsOf
  dsimp only
  rw [if_neg hcalls]
  exact List.subset_append_right ..

/-- Without a body for the hook the lookup function itself is imported. -/
theorem accessEdits_of_none {collection : Collection} (h : collection.hookSite? = none) :
    accessEdits options module collection =
      ensureImport (Layout.ofModule module) options.library lookupName := by
  unfold accessEdits
  rw [h]
  split
  · contradiction
  · rfl

/-- The first body gets the binding unless the module has one. -/
theorem hookEdit_mem_accessEdits {collection : Collection} {site : HookSite}
    (hstyle : options.style = .hook) (hsite : collection.hookSite? = some site)
    (hbinds : collection.bindsHook = false) :
    hookEdit module.text site ∈ accessEdits options module collection := by
  unfold accessEdits
  rw [hstyle, hsite, hbinds]
  exact List.mem_append_right _ List.mem_cons_self

/-- The edits of a conversion with the hook, which are carried out as they are where every node has
a place in the text, make the lookup function known to every call in the first body that the module
offers, unless the function is bound elsewhere only, and import it when no body is offered. -/
theorem inScope_of_ofSource
    (h : ofSource options path scope code before = .ok (conversion, after))
    (hstyle : options.style = .hook) (hsome : 0 < conversion.replacements) :
    ∃ module, Module.parse? path.hasMarkup code = some module ∧
      let calls := callsOf options scope module before
      let edits := editsOf options scope module before
      Edit.applyAll? code edits = some conversion.output ∧
      (∀ call ∈ calls, siteEdit call ∈ edits) ∧
      (Node.AllInPlace module.text module.items →
        Edit.Spliced 0 (edits.mergeSort Edit.precedes) code.toList conversion.output.toList) ∧
      match Collection.firstBody? module.text options.excluded module.items with
      | none => Gets (Layout.ofModule module) options.library lookupName edits
      | some body =>
        ((Collection.ofModule options.excluded module).bindsHook = true → bindsInside body = true) →
          ∀ call ∈ calls, call.site ∈ (Collection.ofNode module.text options.excluded body).sites →
            InScope options.excluded module edits call.site := by
  obtain ⟨module, hmodule, houtcome⟩ := ofSource_eq_ok_iff.1 h
  have houtput := output_ofModule? options scope code module before
  rw [houtcome, (ofModule?_eq_some_iff.1 houtcome).1, if_neg Bool.false_ne_true] at houtput
  have hcalls : callsOf options scope module before ≠ [] := by
    obtain ⟨output, -, hconverted⟩ := Option.map_eq_some_iff.1 (ofModule?_eq_some_iff.1 houtcome).2
    cases hconverted
    exact List.ne_nil_of_length_pos hsome
  have haccess := accessEdits_subset hcalls
  have hplace : (Collection.ofModule options.excluded module).hookSite? = _ :=
    Collection.hookSite?_visitedOf module.text options.excluded module.items
  refine ⟨module, hmodule, houtput.symm, fun call hcall ↦ ?_, fun hinPlace ↦ ?_, ?_⟩
  · exact List.mem_append_left _ (List.mem_map_of_mem hcall)
  · obtain ⟨spliced, _, hspliced, hedits⟩ :=
      exists_spliced (text_of_parse? hmodule) hinPlace options scope before
    cases houtcome.symm.trans hspliced
    exact hedits
  · cases hbody : Collection.firstBody? module.text options.excluded module.items with
    | none =>
      rw [hbody] at hplace
      rw [accessEdits_of_none hplace] at haccess
      exact gets_of_subset haccess
    | some body =>
      intro hbound call hcall hsite
      obtain ⟨hvisited, hkind⟩ := Collection.mem_visitedOf_of_firstBody? hbody
      refine ⟨body, Collection.visitedOf_subset _ _ _ hvisited, hkind, hsite, ?_⟩
      cases hbinds : (Collection.ofModule options.excluded module).bindsHook with
      | true => exact .inl (hbound hbinds)
      | false =>
        rw [hbody] at hplace
        exact .inr (haccess (hookEdit_mem_accessEdits hstyle hplace hbinds))

theorem inScope_of_ofSource_card :
    ∃ module body conversion after, Module.parse? true card = some module ∧
      ofSource hookOptions ⟨"card.tsx"⟩ "card" card (.ofCatalog .empty) = .ok (conversion, after) ∧
      conversion.replacements = 2 ∧
      Collection.firstBody? module.text hookOptions.excluded module.items = some body ∧
      (Collection.ofModule hookOptions.excluded module).bindsHook = false ∧
      Edit.Spliced 0 ((editsOf hookOptions "card" module (.ofCatalog .empty)).mergeSort
        Edit.precedes) card.toList conversion.output.toList ∧
      ∀ call ∈ callsOf hookOptions "card" module (.ofCatalog .empty),
        call.site ∈ (Collection.ofNode module.text hookOptions.excluded body).sites ∧
          InScope hookOptions.excluded module
            (editsOf hookOptions "card" module (.ofCatalog .empty)) call.site := by
  have hmarkup : Path.hasMarkup ⟨"card.tsx"⟩ = true := by decide +kernel
  have hevaluated : ((Module.parse? true card).map fun module ↦
      let calls := callsOf hookOptions "card" module (.ofCatalog .empty)
      (decide (Node.AllInPlace module.text module.items ∧
        (Collection.ofModule hookOptions.excluded module).bindsHook = false ∧ calls.length = 2),
      (Collection.firstBody? module.text hookOptions.excluded module.items).map fun body ↦
        decide (∀ call ∈ calls,
          call.site ∈ (Collection.ofNode module.text hookOptions.excluded body).sites))) =
      some (true, some true) := by
    decide +kernel
  obtain ⟨module, hmodule, hvalues⟩ := Option.map_eq_some_iff.1 hevaluated
  obtain ⟨hfacts, hoffered⟩ := Prod.mk.inj hvalues
  obtain ⟨hinPlace, hbinds, hcount⟩ := of_decide_eq_true hfacts
  obtain ⟨body, hbody, hstand⟩ := Option.map_eq_some_iff.1 hoffered
  rw [← hmarkup] at hmodule
  obtain ⟨conversion, after, hconverted, hreplacements⟩ :=
    exists_ofSource hmodule hinPlace hookOptions "card" (.ofCatalog .empty)
  have hsome : 0 < conversion.replacements := by omega
  obtain ⟨same, hsame, -, -, hspliced, hscope⟩ := inScope_of_ofSource hconverted rfl hsome
  cases hmodule.symm.trans hsame
  rw [hbody] at hscope
  rw [hmarkup] at hmodule
  refine ⟨module, body, conversion, after, hmodule, hconverted, hreplacements.trans hcount, hbody,
    hbinds, hspliced hinPlace, fun call hcall ↦ ?_⟩
  have hsite := of_decide_eq_true hstand call hcall
  refine ⟨hsite, hscope (fun h ↦ ?_) call hcall hsite⟩
  rw [hbinds] at h
  cases h

/-- Whatever is converted with the hook, every call is in scope or the lookup function is
imported. -/
def CallsInScope (options : ConversionOptions) (path : Path) (scope code : String)
    (before : KeyedCatalog) : Prop :=
  ∀ conversion after module,
    ofSource options path scope code before = .ok (conversion, after) →
    Module.parse? path.hasMarkup code = some module →
    options.style = .hook → 0 < conversion.replacements →
    ∀ call ∈ callsOf options scope module before,
      InScope options.excluded module (editsOf options scope module before) call.site ∨
        Gets (Layout.ofModule module) options.library lookupName
          (editsOf options scope module before)

def twoCards : String :=
  "function A() \x7b\n  return <p>One</p>;\n\x7d\nfunction B() \x7b\n  return <p>Two</p>;\n\x7d\n"

/-- The second of two components gets no binding. -/
theorem not_callsInScope_twoCards :
    ¬ CallsInScope hookOptions ⟨"cards.tsx"⟩ "cards" twoCards (.ofCatalog .empty) := by
  have hmarkup : Path.hasMarkup ⟨"cards.tsx"⟩ = true := by decide +kernel
  have hevaluated : ((Module.parse? true twoCards).map fun module ↦
      let calls := callsOf hookOptions "cards" module (.ofCatalog .empty)
      let edits := editsOf hookOptions "cards" module (.ofCatalog .empty)
      decide (Node.AllInPlace module.text module.items ∧
        ∃ call ∈ calls, ¬ InScope hookOptions.excluded module edits call.site ∧
          ¬ Gets (Layout.ofModule module) hookOptions.library lookupName edits)) = some true := by
    decide +kernel
  obtain ⟨module, hmodule, hvalues⟩ := Option.map_eq_some_iff.1 hevaluated
  obtain ⟨hinPlace, call, hcall, hscope, himport⟩ := of_decide_eq_true hvalues
  rw [← hmarkup] at hmodule
  obtain ⟨conversion, after, hconverted, hreplacements⟩ :=
    exists_ofSource hmodule hinPlace hookOptions "cards" (.ofCatalog .empty)
  have hsome : 0 < conversion.replacements := by
    rw [hreplacements]
    exact List.length_pos_of_mem hcall
  intro hall
  rcases hall conversion after module hconverted hmodule rfl hsome call hcall with hin | hgets
  · exact hscope hin
  · exact himport hgets

end Phrasebook.Conversion
