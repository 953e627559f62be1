import Phrasebook.Proofs.Source.Conversion
import Phrasebook.Proofs.Source.Edits
import Phrasebook.Proofs.Source.HookSites
import Phrasebook.Proofs.Source.Layout
import Phrasebook.Proofs.Source.Places

/-!
# What a conversion leaves untouched

A conversion replaces the sites of a module and adds an import and, in a function body, a statement.
It adds them where nodes that a pass visits start or stop, so that no edit gets in the way of
another one: all of them are carried out, and between them the source is kept.
-/

namespace Phrasebook.Conversion

open Syntax

variable {options : ConversionOptions} {text : List Char} {excluded : List String}
variable {library name : String} {items : List Node} {edit : Edit}

/-- An edit that only adds text, and that where no site is cut. -/
structure Adds (text : List Char) (sites : List Site) (edit : Edit) : Prop where
  insertion : edit.stop = edit.start
  gap : Collection.IsGap text sites edit.start

theorem adds_insertAt {sites : List Site} {offset : Nat}
    (h : Collection.IsGap text sites offset) (added : String) :
    Adds text sites (.insertAt offset added) :=
  ⟨rfl, h⟩

/-- An import is added to the braces of another one, behind an item, or at the top. -/
theorem adds_of_mem_ensureImport (h : Node.AllInPlace text items)
    (hedit : edit ∈ ensureImport (Layout.ofItems items) library name) :
    Adds text (Collection.ofNodes text excluded items).sites edit := by
  rcases mem_ensureImport_cases hedit with ⟨statement, hstatement, stop, hlast, rfl⟩ |
    ⟨offset, hoffset, rfl⟩ | ⟨-, rfl⟩
  · obtain ⟨node, hnode, hdescribes⟩ := Layout.exists_describes hstatement
    obtain ⟨binding, hbinding, rfl⟩ := hdescribes.lastName stop hlast
    have hsearched : Collection.isSearched text excluded node = true := by
      obtain ⟨kind, span, parts⟩ := node
      cases hdescribes.kind
      rfl
    have hvisited := Collection.part_mem_visitedOf items (Collection.mem_visitedOf hnode)
      hsearched hbinding
    exact adds_insertAt (Collection.isGap_stop h hvisited) _
  · obtain ⟨node, hnode, rfl⟩ := Layout.exists_item_of_insertionPoint? hoffset
    have hvisited : node ∈ Collection.visitedOf text excluded items :=
      Collection.mem_visitedOf hnode
    exact adds_insertAt (Collection.isGap_stop h hvisited) _
  · exact adds_insertAt (Collection.isGap_zero ..) _

/-- The hook is called before the first statement of a body, or behind the brace of a body without
statements. -/
theorem adds_hookEdit {body : Node} (h : Node.AllInPlace text items)
    (hbody : Collection.firstBody? text excluded items = some body) :
    Adds text (Collection.ofNodes text excluded items).sites
      (hookEdit text (Collection.placeIn body)) := by
  obtain ⟨hvisited, hkind⟩ := Collection.mem_visitedOf_of_firstBody? hbody
  unfold hookEdit Collection.placeIn
  cases hparts : body.parts with
  | nil => exact adds_insertAt (Collection.isGap_open h hvisited hkind hparts) _
  | cons first rest =>
    have hsearched : Collection.isSearched text excluded body = true := by
      obtain ⟨kind, span, parts⟩ := body
      cases hkind
      rfl
    have hfirst := Collection.part_mem_visitedOf items hvisited hsearched
      (hparts ▸ List.mem_cons_self)
    have hgap := Collection.isGap_start h hfirst
    dsimp only [List.head?_cons, Option.map_some]
    split
    · exact adds_insertAt hgap _
    · exact adds_insertAt hgap _

variable {module : Module} {code : String}

/-- The edits that make the lookup function available only add text, and that where no site is
cut. -/
theorem adds_of_mem_accessEdits (h : Node.AllInPlace module.text module.items)
    (hedit : edit ∈ accessEdits options module (Collection.ofModule excluded module)) :
    Adds module.text (Collection.ofModule excluded module).sites edit := by
  unfold accessEdits at hedit
  split at hedit
  · next site hstyle hsite =>
    unfold Collection.ofModule at hsite
    rw [Collection.hookSite?_visitedOf] at hsite
    obtain ⟨body, hbody, rfl⟩ := Option.map_eq_some_iff.1 hsite
    rcases List.mem_append.1 hedit with himport | hhook
    · exact adds_of_mem_ensureImport h himport
    · split at hhook
      · cases hhook
      · rw [List.mem_singleton.1 hhook]
        exact adds_hookEdit h hbody
  · exact adds_of_mem_ensureImport h hedit

def callsOf (options : ConversionOptions) (scope : String) (module : Module)
    (catalog : KeyedCatalog) : List KeyedSite :=
  (assignKeys (.start scope) catalog (Collection.ofModule options.excluded module).sites).1

/-- The edits that a conversion describes: a call for each site and, unless there is none, what
makes the lookup function available. -/
def editsOf (options : ConversionOptions) (scope : String) (module : Module)
    (catalog : KeyedCatalog) : List Edit :=
  let calls := callsOf options scope module catalog
  calls.map siteEdit ++ if calls.isEmpty then [] else
    accessEdits options module (Collection.ofModule options.excluded module)

theorem sites_callsOf (options : ConversionOptions) (scope : String) (module : Module)
    (catalog : KeyedCatalog) :
    (callsOf options scope module catalog).map KeyedSite.site =
      (Collection.ofModule options.excluded module).sites :=
  sites_assignKeys ..

/-- The output of a conversion is the source with these edits applied, unless a text that is looked
at is cut. -/
theorem output_ofModule? (options : ConversionOptions) (scope code : String) (module : Module)
    (catalog : KeyedCatalog) :
    (ofModule? options scope code module catalog).map (·.1.output) =
      if (Collection.ofModule options.excluded module).cutsCharacter then none
      else Edit.applyAll? code (editsOf options scope module catalog) := by
  unfold ofModule? ofCollection? editsOf callsOf
  dsimp only
  split
  · rfl
  · rw [Option.map_map]
    exact congrFun Option.map_id_fun' _

theorem fits_siteEdit {call : KeyedSite} (h : call.site.span.Covers text) :
    (siteEdit call).Fits text :=
  ⟨Nat.le_of_lt h.filled, h.fits.start, h.fits.stop⟩

theorem fits_of_adds {sites : List Site} (h : Adds text sites edit) : edit.Fits text :=
  ⟨Nat.le_of_eq h.insertion.symm, h.gap.boundary, h.insertion ▸ h.gap.boundary⟩

theorem apart_of_adds {sites : List Site} {first second : Edit} (hfirst : Adds text sites first)
    (hsecond : Adds text sites second) : first.Apart second := by
  have hstop := hfirst.insertion
  have hstop' := hsecond.insertion
  unfold Edit.Apart
  omega

theorem siteEdit_apart_of_adds {sites : List Site} {call : KeyedSite} (hcall : call.site ∈ sites)
    (hadds : Adds text sites edit) : (siteEdit call).Apart edit := by
  have hgap : edit.start ≤ (siteEdit call).start ∨ (siteEdit call).stop ≤ edit.start :=
    hadds.gap.uncut call.site hcall
  have hstop := hadds.insertion
  unfold Edit.Apart
  omega

/-- The edits of a conversion are edits of the text that are apart from each other. -/
theorem fits_and_apart_editsOf (h : Node.AllInPlace module.text module.items)
    (options : ConversionOptions) (scope : String) (catalog : KeyedCatalog) :
    (∀ edit ∈ editsOf options scope module catalog, edit.Fits module.text) ∧
      (editsOf options scope module catalog).Pairwise Edit.Apart := by
  let sites := (Collection.ofModule options.excluded module).sites
  let calls := callsOf options scope module catalog
  have hcalls : ∀ call ∈ calls, call.site ∈ sites := fun call ↦ site_mem_of_mem_assignKeys
  have hcovers : ∀ site ∈ sites, site.span.Covers module.text := fun site hsite ↦
    (Collection.covers_of_mem_ofNodes h hsite).1
  have haccess : ∀ edit ∈ (if calls.isEmpty then [] else
      accessEdits options module (Collection.ofModule options.excluded module)),
      Adds module.text sites edit := by
    intro edit hedit
    split at hedit
    · cases hedit
    · exact adds_of_mem_accessEdits h hedit
  constructor
  · intro edit hedit
    rcases List.mem_append.1 hedit with hsite | hadded
    · obtain ⟨call, hcall, rfl⟩ := List.mem_map.1 hsite
      exact fits_siteEdit (hcovers _ (hcalls call hcall))
    · exact fits_of_adds (haccess edit hadded)
  · refine List.pairwise_append.2 ⟨?_, ?_, ?_⟩
    · have hsites : (calls.map KeyedSite.site).Pairwise fun first second ↦
          first.span.Apart second.span := by
        rw [sites_callsOf]
        exact Collection.pairwise_apart_ofNodes h
      rw [List.pairwise_map] at hsites ⊢
      exact hsites
    · exact List.pairwise_of_forall_mem_list fun first hfirst second hsecond ↦
        apart_of_adds (haccess first hfirst) (haccess second hsecond)
    · intro first hfirst second hsecond
      obtain ⟨call, hcall, rfl⟩ := List.mem_map.1 hfirst
      exact siteEdit_apart_of_adds (hcalls call hcall) (haccess second hsecond)

/-- All edits of a conversion are carried out. -/
theorem exists_spliced (htext : module.text = code.toList)
    (h : Node.AllInPlace module.text module.items) (options : ConversionOptions) (scope : String)
    (catalog : KeyedCatalog) :
    ∃ conversion after, ofModule? options scope code module catalog = some (conversion, after) ∧
      Edit.Spliced 0 ((editsOf options scope module catalog).mergeSort Edit.precedes) code.toList
        conversion.output.toList := by
  obtain ⟨hfits, hapart⟩ := fits_and_apart_editsOf h options scope catalog
  rw [htext] at hfits
  obtain ⟨output, houtput, hspliced⟩ := Edit.exists_applyAll? hfits hapart
  have huncut : (Collection.ofModule options.excluded module).cutsCharacter = false :=
    Collection.cutsCharacter_eq_false h
  have hconverted := output_ofModule? options scope code module catalog
  rw [huncut, if_neg Bool.false_ne_true, houtput] at hconverted
  obtain ⟨⟨conversion, after⟩, hmodule, rfl⟩ := Option.map_eq_some_iff.1 hconverted
  exact ⟨conversion, after, hmodule, hspliced⟩

theorem text_of_parse? {markup : Bool} (h : Module.parse? markup code = some module) :
    module.text = code.toList := by
  obtain ⟨items, -, rfl⟩ := Option.map_eq_some_iff.1 h
  rfl

/-- A source whose tree is in place can be converted. -/
theorem exists_ofSource {path : Path} (hmodule : Module.parse? path.hasMarkup code = some module)
    (h : Node.AllInPlace module.text module.items) (options : ConversionOptions) (scope : String)
    (catalog : KeyedCatalog) :
    ∃ conversion after, ofSource options path scope code catalog = .ok (conversion, after) ∧
      conversion.replacements = (callsOf options scope module catalog).length := by
  obtain ⟨conversion, after, hconverted, -⟩ :=
    exists_spliced (text_of_parse? hmodule) h options scope catalog
  refine ⟨conversion, after, ofSource_eq_ok_iff.2 ⟨module, hmodule, hconverted⟩, ?_⟩
  obtain ⟨output, -, houtcome⟩ := Option.map_eq_some_iff.1 (ofModule?_eq_some_iff.1 hconverted).2
  cases houtcome
  rfl

/-- The sites of a module in place are ranges that share nothing, no added text falls inside of one,
and a conversion carries out all its edits: each range is replaced, and between the ranges the
output has the characters of the source. -/
theorem ofModule?_spliced (htext : module.text = code.toList)
    (h : Node.AllInPlace module.text module.items) (options : ConversionOptions) (scope : String)
    (catalog : KeyedCatalog) :
    let collection := Collection.ofModule options.excluded module
    (∀ site ∈ collection.sites, site.start < site.stop) ∧
      (collection.sites.Pairwise fun first second ↦
        first.stop ≤ second.start ∨ second.stop ≤ first.start) ∧
      (∀ edit ∈ accessEdits options module collection, edit.stop = edit.start ∧
        ∀ site ∈ collection.sites, edit.start ≤ site.start ∨ site.stop ≤ edit.start) ∧
      ∃ conversion after, ofModule? options scope code module catalog = some (conversion, after) ∧
        Edit.Spliced 0 ((editsOf options scope module catalog).mergeSort Edit.precedes) code.toList
          conversion.output.toList := by
  dsimp only
  refine ⟨fun site hsite ↦ ?_, Collection.pairwise_apart_ofNodes h, fun edit hedit ↦ ?_, ?_⟩
  · exact (Collection.covers_of_mem_ofNodes h hsite).1.filled
  · have hadds := adds_of_mem_accessEdits h hedit
    exact ⟨hadds.insertion, hadds.gap.uncut⟩
  · exact exists_spliced htext h options scope catalog

def hookOptions : ConversionOptions :=
  { plainOptions with style := .hook }

def card : String :=
  "import React from \"react\";\nfunction Card() \x7b\n  return <p title=\"Name\">Welcome</p>;\n\x7d\n"

theorem ofModule?_spliced_card :
    ∃ module conversion after, Module.parse? true card = some module ∧
      module.text = card.toList ∧ Node.AllInPlace module.text module.items ∧
      ofModule? hookOptions "card" card module (.ofCatalog .empty) = some (conversion, after) ∧
      (editsOf hookOptions "card" module (.ofCatalog .empty)).map Edit.text =
        ["\x7bt(\"card.text_1\")\x7d", "\x7bt(\"card.text_2\")\x7d",
          "\nimport \x7b useT \x7d from \"localise-ai-sdk\";", "const t = useT();\n  "] ∧
      Edit.Spliced 0 ((editsOf hookOptions "card" module (.ofCatalog .empty)).mergeSort Edit.precedes)
        card.toList conversion.output.toList := by
  have hevaluated : ((Module.parse? true card).map fun module ↦
      (decide (module.text = card.toList ∧ Node.AllInPlace module.text module.items),
        (editsOf hookOptions "card" module (.ofCatalog .empty)).map Edit.text)) =
      some (true, ["\x7bt(\"card.text_1\")\x7d", "\x7bt(\"card.text_2\")\x7d",
        "\nimport \x7b useT \x7d from \"localise-ai-sdk\";", "const t = useT();\n  "]) := by
    decide +kernel
  obtain ⟨module, hmodule, hvalues⟩ := Option.map_eq_some_iff.1 hevaluated
  obtain ⟨hplaces, htexts⟩ := Prod.mk.inj hvalues
  obtain ⟨htext, hinPlace⟩ := of_decide_eq_true hplaces
  obtain ⟨-, -, -, conversion, after, hconverted, hspliced⟩ :=
    ofModule?_spliced htext hinPlace hookOptions "card" (.ofCatalog .empty)
  exact ⟨module, conversion, after, hmodule, htext, hinPlace, hconverted, htexts, hspliced⟩

end Phrasebook.Conversion
