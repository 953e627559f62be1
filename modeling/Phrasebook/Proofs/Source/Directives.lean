import Phrasebook.Proofs.Source.Scope

/-!
# What a conversion adds behind directives

A module and a function body may begin with directives: statements made of a string, which mean
something only while nothing else stands before them. An import is added behind the directives of a
module, so they stay in front, with all that stands before them. The binding of the lookup function
is added before the first statement of a function body, whatever that statement is: it comes before
a directive exactly when the body begins with one.
-/

namespace Phrasebook

open Syntax

variable {text : List Char} {excluded : List String} {items nodes : List Node}
variable {node directive found : Node} {site : Site} {edit : Edit}

/-! ## Directives -/

def directivesOf (items : List Node) : List Node :=
  items.takeWhile Layout.isDirective

def behindDirectives (items : List Node) : List Node :=
  items.dropWhile Layout.isDirective

namespace Syntax.Node

def isQuoted (text : List Char) : Node → Bool
  | .mk (.string _) span parts =>
    let raw := Text.slice span.start span.stop text
    (raw.head? == some '"' || raw.head? == some '\'') && raw.getLast? == raw.head? &&
      parts.isEmpty
  | _ => true

/-- Items stand in a text where their ranges say, one behind the other, with the quotes of strings
where the strings start and stop. -/
structure InOrder (text : List Char) (items : List Node) : Prop where
  inPlace : AllInPlace text items
  ordered : items.Pairwise fun first second ↦ first.stop ≤ second.start
  quoted : ∀ node ∈ allOf items, node.isQuoted text = true

instance (text : List Char) (items : List Node) : Decidable (InOrder text items) :=
  decidable_of_iff
    (AllInPlace text items ∧ (items.Pairwise fun first second ↦ first.stop ≤ second.start) ∧
      ∀ node ∈ allOf items, node.isQuoted text = true)
    ⟨fun ⟨inPlace, ordered, quoted⟩ ↦ ⟨inPlace, ordered, quoted⟩,
      fun ⟨inPlace, ordered, quoted⟩ ↦ ⟨inPlace, ordered, quoted⟩⟩

end Syntax.Node

theorem directivesOf_append (items : List Node) :
    directivesOf items ++ behindDirectives items = items :=
  List.takeWhile_append_dropWhile

theorem isDirective_of_mem (h : directive ∈ directivesOf items) :
    Layout.isDirective directive = true :=
  List.mem_takeWhile_imp h

theorem mem_of_mem_directivesOf (h : directive ∈ directivesOf items) : directive ∈ items :=
  List.takeWhile_subset _ h

theorem exists_string_of_isDirective (h : Layout.isDirective node = true) :
    ∃ span value inner parts, node = .mk .statement span [.mk (.string value) inner parts] := by
  unfold Layout.isDirective at h
  split at h
  · next span value inner parts => exact ⟨span, value, inner, parts, rfl⟩
  · cases h

/-- A directive covers some characters: at least those of its string. -/
theorem start_lt_stop_of_isDirective (h : Node.AllInPlace text items)
    (hnode : node ∈ Node.allOf items) (hdirective : Layout.isDirective node = true) :
    node.start < node.stop := by
  obtain ⟨span, value, inner, parts, rfl⟩ := exists_string_of_isDirective hdirective
  have hstring := h.each _ (Node.part_mem_allOf hnode List.mem_cons_self)
  have hfilled : inner.start < inner.stop := of_decide_eq_true hstring.written
  have hwithin : inner.Within span := (h.each _ hnode).within _ List.mem_cons_self
  obtain ⟨hstart, hstop⟩ := hwithin
  change span.start < span.stop
  omega

/-- Directives hold neither a text for a reader nor a function body. -/
theorem sites_of_directives (excluded : List String)
    (h : ∀ node ∈ nodes, Layout.isDirective node = true)
    (hquoted : ∀ node ∈ Node.allOf nodes, node.isQuoted text = true) :
    (Collection.ofNodes text excluded nodes).sites = [] ∧
      ∀ found ∈ Node.allOf nodes, found.kind ≠ .block := by
  induction nodes with
  | nil => exact ⟨rfl, nofun⟩
  | cons node rest ih =>
    obtain ⟨hsites, hblocks⟩ := ih
      (fun other hother ↦ h other (List.mem_cons_of_mem _ hother))
      (fun other hother ↦ hquoted other (List.mem_append_right _ hother))
    obtain ⟨span, value, inner, parts, rfl⟩ :=
      exists_string_of_isDirective (h node List.mem_cons_self)
    have hstring := hquoted _
      (Node.part_mem_allOf (Node.mem_allOf List.mem_cons_self) List.mem_cons_self)
    obtain rfl : parts = [] := List.isEmpty_iff.1 (Bool.and_eq_true_iff.1 hstring).2
    refine ⟨?_, fun found hfound ↦ ?_⟩
    · rw [Collection.sites_ofNodes_cons, hsites, List.append_nil]
      rfl
    · rcases List.mem_append.1 hfound with hfirst | hrest
      · rcases List.mem_cons.1 hfirst with rfl | hinner
        · nofun
        · rw [List.mem_singleton.1 hinner]
          nofun
      · exact hblocks found hrest

namespace Syntax.Node.InOrder

theorem stop_le_start (h : InOrder text items) (hdirective : directive ∈ directivesOf items)
    (hnode : node ∈ behindDirectives items) : directive.stop ≤ node.start := by
  have hordered := h.ordered
  rw [← directivesOf_append items] at hordered
  exact (List.pairwise_append.1 hordered).2.2 directive hdirective node hnode

theorem mem_behind (hnode : node ∈ items) (hother : Layout.isDirective node = false) :
    node ∈ behindDirectives items := by
  rw [← directivesOf_append items] at hnode
  refine (List.mem_append.1 hnode).resolve_left fun hdirective ↦ ?_
  rw [isDirective_of_mem hdirective] at hother
  cases hother

theorem behind (h : InOrder text items) : AllInPlace text (behindDirectives items) := by
  have hinPlace := h.inPlace
  rw [← directivesOf_append items] at hinPlace
  exact hinPlace.of_append

/-- Whatever lies within an item behind the directives starts behind them. -/
theorem stop_le_of_within (h : InOrder text items) (hdirective : directive ∈ directivesOf items)
    {span : Span} (hwithin : ∃ node ∈ behindDirectives items, span.Within node.span) :
    directive.stop ≤ span.start := by
  obtain ⟨node, hnode, hstart, -⟩ := hwithin
  exact Nat.le_trans (h.stop_le_start hdirective hnode) hstart

theorem quoted_directives (h : InOrder text items) :
    ∀ node ∈ allOf (directivesOf items), node.isQuoted text = true := by
  intro node hnode
  refine h.quoted node ?_
  rw [← directivesOf_append items, allOf_append]
  exact List.mem_append_left _ hnode

theorem stop_le_site (h : InOrder text items) (hdirective : directive ∈ directivesOf items)
    (hsite : site ∈ (Collection.ofNodes text excluded items).sites) :
    directive.stop ≤ site.start := by
  obtain ⟨hnone, -⟩ := sites_of_directives excluded
    (fun node hnode ↦ isDirective_of_mem hnode) h.quoted_directives
  rw [← directivesOf_append items, Collection.sites_ofNodes_append, hnone, List.nil_append] at hsite
  exact h.stop_le_of_within hdirective (Collection.covers_of_mem_ofNodes h.behind hsite).2

theorem stop_le_block (h : InOrder text items) (hdirective : directive ∈ directivesOf items)
    (hfound : found ∈ allOf items) (hblock : found.kind = .block) :
    directive.stop ≤ found.start := by
  obtain ⟨-, hnone⟩ := sites_of_directives []
    (fun node hnode ↦ isDirective_of_mem hnode) h.quoted_directives
  rw [← directivesOf_append items, allOf_append] at hfound
  rcases List.mem_append.1 hfound with hinside | hbehind
  · exact absurd hblock (hnone found hinside)
  · exact h.stop_le_of_within hdirective (h.behind.exists_within hbehind)

/-- No directive stops behind the last one. -/
theorem stop_le_last (h : InOrder text items) (hdirective : directive ∈ directivesOf items)
    {last : Node} (hlast : (directivesOf items).getLast? = some last) :
    directive.stop ≤ last.stop := by
  obtain ⟨before, hbefore⟩ := List.getLast?_eq_some_iff.1 hlast
  have hordered := (h.ordered.sublist (List.takeWhile_sublist _) : (directivesOf items).Pairwise _)
  have hmem : last ∈ items := mem_of_mem_directivesOf (List.mem_of_getLast? hlast)
  have hfits : last.start ≤ last.stop := (h.inPlace.mem hmem).fits.ordered
  rw [hbefore] at hdirective hordered
  rcases List.mem_append.1 hdirective with hearlier | hsame
  · have hstart := (List.pairwise_append.1 hordered).2.2 directive hearlier last List.mem_cons_self
    exact Nat.le_trans hstart hfits
  · rw [List.mem_singleton.1 hsame]

end Syntax.Node.InOrder

namespace Conversion

variable {options : ConversionOptions} {library name : String} {module : Module}
variable {scope code : String} {path : Path} {catalog : KeyedCatalog} {body : Node}

/-- An import stands behind all directives. -/
theorem exists_describes_behind (h : Node.InOrder text items)
    (hdirective : directive ∈ directivesOf items) {statement : ImportStatement}
    (hstatement : statement ∈ (Layout.ofItems items).imports) :
    ∃ node ∈ items, statement.Describes node ∧ directive.stop ≤ node.start := by
  obtain ⟨node, hnode, hdescribes⟩ := Layout.exists_describes hstatement
  have hother : Layout.isDirective node = false := by
    obtain ⟨kind, span, parts⟩ := node
    cases hdescribes.kind
    rfl
  have hbehind := Node.InOrder.mem_behind hnode hother
  exact ⟨node, hnode, hdescribes, h.stop_le_start hdirective hbehind⟩

/-- The place where a layout puts an import is not before the end of a directive. -/
theorem stop_le_of_insertionPoint? (h : Node.InOrder text items)
    (hdirective : directive ∈ directivesOf items) {offset : Nat}
    (hoffset : (Layout.ofItems items).insertionPoint? = some offset) : directive.stop ≤ offset := by
  unfold Layout.insertionPoint? at hoffset
  rcases Option.or_eq_some_iff.1 hoffset with himport | ⟨-, hprologue⟩
  · obtain ⟨statement, hlast, rfl⟩ := Option.map_eq_some_iff.1 himport
    obtain ⟨node, hnode, hdescribes, hstart⟩ :=
      exists_describes_behind h hdirective (List.mem_of_getLast? hlast)
    rw [hdescribes.stop]
    exact Nat.le_trans hstart (h.inPlace.mem hnode).fits.ordered
  · obtain ⟨last, hlast, rfl⟩ := Option.map_eq_some_iff.1 hprologue
    exact h.stop_le_last hdirective hlast

theorem directivesOf_eq_nil_of_insertionPoint?
    (h : (Layout.ofItems items).insertionPoint? = none) : directivesOf items = [] := by
  unfold Layout.insertionPoint? at h
  obtain ⟨-, hprologue⟩ := Option.or_eq_none_iff.1 h
  exact List.getLast?_eq_none_iff.1 (Option.map_eq_none_iff.1 hprologue)

/-- Be it a new import or one more name in the braces of another one, it is added behind all
directives. -/
theorem stop_le_of_mem_ensureImport (h : Node.InOrder text items)
    (hdirective : directive ∈ directivesOf items)
    (hedit : edit ∈ ensureImport (Layout.ofItems items) library name) :
    directive.stop ≤ edit.start := by
  rcases mem_ensureImport_cases hedit with ⟨statement, hstatement, stop, hlast, rfl⟩ |
    ⟨offset, hoffset, rfl⟩ | ⟨hnone, -⟩
  · obtain ⟨node, hnode, hdescribes, hstart⟩ := exists_describes_behind h hdirective hstatement
    obtain ⟨binding, hbinding, rfl⟩ := hdescribes.lastName stop hlast
    have hpart := Node.part_mem_allOf (Node.mem_allOf hnode) hbinding
    have hwithin := (h.inPlace.mem hnode).within binding hbinding
    exact Nat.le_trans hstart (Nat.le_trans hwithin.1 (h.inPlace.each binding hpart).fits.ordered)
  · exact stop_le_of_insertionPoint? h hdirective hoffset
  · rw [directivesOf_eq_nil_of_insertionPoint? hnone] at hdirective
    cases hdirective

def bindingBody? (options : ConversionOptions) (scope : String) (module : Module)
    (catalog : KeyedCatalog) : Option Node :=
  if (callsOf options scope module catalog).isEmpty || options.style != .hook ||
      (Collection.ofModule options.excluded module).bindsHook then none
  else Collection.firstBody? module.text options.excluded module.items

/-- The binding is added where the first statement of the body starts, or behind its brace. -/
theorem start_hookEdit (text : List Char) (body : Node) :
    (hookEdit text (Collection.placeIn body)).start =
      (body.parts.head?.map (·.start)).getD (body.start + 1) := by
  unfold hookEdit Collection.placeIn
  cases body.parts with
  | nil => rfl
  | cons first rest =>
    dsimp only [List.head?_cons, Option.map_some, Option.getD_some]
    split <;> rfl

theorem body_start_le_hookEdit (h : body.InPlace text) :
    body.start ≤ (hookEdit text (Collection.placeIn body)).start := by
  rw [start_hookEdit]
  cases hparts : body.parts with
  | nil => exact Nat.le_succ body.start
  | cons first rest => exact (h.within first (hparts ▸ List.mem_cons_self)).1

/-- The edits of a conversion are calls, an import, and the binding in the body that it is added
to. -/
theorem mem_editsOf_cases (h : edit ∈ editsOf options scope module catalog) :
    (∃ call ∈ callsOf options scope module catalog, edit = siteEdit call) ∨
      (∃ name, edit ∈ ensureImport (Layout.ofModule module) options.library name) ∨
      ∃ body, bindingBody? options scope module catalog = some body ∧
        edit = hookEdit module.text (Collection.placeIn body) := by
  rcases List.mem_append.1 h with hsite | haccess
  · obtain ⟨call, hcall, rfl⟩ := List.mem_map.1 hsite
    exact .inl ⟨call, hcall, rfl⟩
  · right
    split at haccess
    · cases haccess
    · next hcalls =>
      unfold accessEdits at haccess
      split at haccess
      · next site hstyle hsite =>
        rcases List.mem_append.1 haccess with himport | hhook
        · exact .inl ⟨hookName, himport⟩
        · right
          split at hhook
          · cases hhook
          · next hbinds =>
            unfold Collection.ofModule at hsite
            rw [Collection.hookSite?_visitedOf] at hsite
            obtain ⟨body, hbody, rfl⟩ := Option.map_eq_some_iff.1 hsite
            refine ⟨body, ?_, List.mem_singleton.1 hhook⟩
            unfold bindingBody?
            rw [if_neg, hbody]
            simp [hcalls, hstyle, hbinds]
      · exact .inl ⟨lookupName, haccess⟩

theorem mem_allOf_of_bindingBody? (h : bindingBody? options scope module catalog = some body) :
    body ∈ Node.allOf module.items ∧ body.kind = .block := by
  unfold bindingBody? at h
  split at h
  · cases h
  · obtain ⟨hvisited, hkind⟩ := Collection.mem_visitedOf_of_firstBody? h
    exact ⟨Collection.visitedOf_subset _ _ _ hvisited, hkind⟩

/-! ## Directives that stay in front -/

/-- Nothing that a conversion adds comes before a directive, be it one of the module or one of the
function body that the binding is added to. -/
def KeepsDirectives (options : ConversionOptions) (scope : String) (module : Module)
    (catalog : KeyedCatalog) : Prop :=
  (∀ edit ∈ editsOf options scope module catalog,
    ∀ directive ∈ directivesOf module.items, directive.stop ≤ edit.start) ∧
  ∀ body ∈ bindingBody? options scope module catalog,
    ∀ directive ∈ directivesOf body.parts,
      directive.stop ≤ (hookEdit module.text (Collection.placeIn body)).start

instance (options : ConversionOptions) (scope : String) (module : Module)
    (catalog : KeyedCatalog) : Decidable (KeepsDirectives options scope module catalog) :=
  inferInstanceAs (Decidable (_ ∧ _))

/-- No edit of a conversion reaches into or before a directive of the module. -/
theorem stop_le_of_mem_editsOf (h : Node.InOrder module.text module.items)
    (hedit : edit ∈ editsOf options scope module catalog)
    (hdirective : directive ∈ directivesOf module.items) : directive.stop ≤ edit.start := by
  rcases mem_editsOf_cases hedit with ⟨call, hcall, rfl⟩ | ⟨name, himport⟩ | ⟨body, hbody, rfl⟩
  · have hsite : call.site ∈ (Collection.ofModule options.excluded module).sites :=
      site_mem_of_mem_assignKeys hcall
    exact h.stop_le_site hdirective hsite
  · exact stop_le_of_mem_ensureImport h hdirective himport
  · obtain ⟨hmem, hblock⟩ := mem_allOf_of_bindingBody? hbody
    have hstart := h.stop_le_block hdirective hmem hblock
    exact Nat.le_trans hstart (body_start_le_hookEdit (h.inPlace.each body hmem))

/-- The binding comes before a directive of its body as soon as there is one. -/
theorem hookEdit_behind_iff (h : Node.AllInPlace text items) (hbody : body ∈ Node.allOf items) :
    (∀ directive ∈ directivesOf body.parts,
        directive.stop ≤ (hookEdit text (Collection.placeIn body)).start) ↔
      directivesOf body.parts = [] := by
  constructor
  · intro hall
    rw [start_hookEdit] at hall
    cases hparts : body.parts with
    | nil => rfl
    | cons first rest =>
      rw [hparts] at hall
      cases hfirst : Layout.isDirective first with
      | false => exact List.takeWhile_cons_of_neg (by simp [hfirst])
      | true =>
        have hmem : first ∈ directivesOf (first :: rest) := by
          rw [directivesOf, List.takeWhile_cons_of_pos hfirst]
          exact List.mem_cons_self
        have hpart := Node.part_mem_allOf hbody (hparts ▸ List.mem_cons_self)
        have hstop : first.stop ≤ first.start := hall first hmem
        exact absurd (start_lt_stop_of_isDirective h hpart hfirst) (Nat.not_lt.2 hstop)
  · intro hnone directive hdirective
    rw [hnone] at hdirective
    cases hdirective

/-- A conversion that adds the binding has the edit that puts it into the body. -/
theorem hookEdit_mem_editsOf (h : bindingBody? options scope module catalog = some body) :
    hookEdit module.text (Collection.placeIn body) ∈ editsOf options scope module catalog := by
  unfold bindingBody? at h
  split at h
  · cases h
  · next hbinds =>
    simp only [Bool.or_eq_true, not_or, bne_iff_ne, not_not, Bool.not_eq_true] at hbinds
    obtain ⟨⟨hcalls, hstyle⟩, hbinds⟩ := hbinds
    have hsite : (Collection.ofModule options.excluded module).hookSite? = _ :=
      Collection.hookSite?_visitedOf module.text options.excluded module.items
    rw [h] at hsite
    refine accessEdits_subset ?_ (hookEdit_mem_accessEdits hstyle hsite hbinds)
    exact fun hnil ↦ Bool.eq_false_iff.1 hcalls (List.isEmpty_iff.2 hnil)

/-- A conversion leaves a module as it is up to the end of its directives, and adds nothing before a
directive unless the body that the binding is added to begins with one. -/
theorem keepsDirectives_iff (hmodule : Module.parse? path.hasMarkup code = some module)
    (h : Node.InOrder module.text module.items) (options : ConversionOptions) (scope : String)
    (catalog : KeyedCatalog) :
    (∀ body ∈ bindingBody? options scope module catalog,
      hookEdit module.text (Collection.placeIn body) ∈ editsOf options scope module catalog) ∧
    (KeepsDirectives options scope module catalog ↔
      ∀ body ∈ bindingBody? options scope module catalog, directivesOf body.parts = []) ∧
    ∃ conversion after, ofSource options path scope code catalog = .ok (conversion, after) ∧
      ∀ directive ∈ directivesOf module.items, ∃ kept, Text.size kept = directive.stop ∧
        kept <+: code.toList ∧ kept <+: conversion.output.toList ∧
        ∀ edit ∈ editsOf options scope module catalog, directive.stop ≤ edit.start := by
  refine ⟨fun body hbody ↦ hookEdit_mem_editsOf hbody, ?_, ?_⟩
  · have hfront : ∀ edit ∈ editsOf options scope module catalog,
        ∀ directive ∈ directivesOf module.items, directive.stop ≤ edit.start :=
      fun edit hedit directive hdirective ↦ stop_le_of_mem_editsOf h hedit hdirective
    rw [KeepsDirectives, and_iff_right hfront]
    refine forall₂_congr fun body hbody ↦ ?_
    exact hookEdit_behind_iff h.inPlace (mem_allOf_of_bindingBody? hbody).1
  · have htext := text_of_parse? hmodule
    obtain ⟨conversion, after, hconverted, hspliced⟩ :=
      exists_spliced htext h.inPlace options scope catalog
    refine ⟨conversion, after, ofSource_eq_ok_iff.2 ⟨module, hmodule, hconverted⟩, ?_⟩
    intro directive hdirective
    have hfront : ∀ edit ∈ editsOf options scope module catalog, directive.stop ≤ edit.start :=
      fun edit hedit ↦ stop_le_of_mem_editsOf h hedit hdirective
    obtain ⟨kept, behind, hkept, hsize⟩ :=
      (h.inPlace.mem (mem_of_mem_directivesOf hdirective)).fits.stop
    have hprefix : kept <+: code.toList := ⟨behind, hkept.trans htext⟩
    refine ⟨kept, hsize, hprefix, hspliced.prefix_of_le hprefix fun edit hedit ↦ ?_, hfront⟩
    rw [Nat.zero_add]
    exact hsize.trans_le (hfront edit (List.mem_mergeSort.1 hedit))

/-- A module with a directive, and with a component. -/
def clientCard : String :=
  "\"use client\";\nfunction Card() \x7b\n  return <p>Hi</p>;\n\x7d\n"

theorem keepsDirectives_clientCard :
    ∃ module conversion after, Module.parse? true clientCard = some module ∧
      (directivesOf module.items).map Node.stop = [13] ∧
      (bindingBody? hookOptions "card" module (.ofCatalog .empty)).isSome = true ∧
      KeepsDirectives hookOptions "card" module (.ofCatalog .empty) ∧
      ofSource hookOptions ⟨"card.tsx"⟩ "card" clientCard (.ofCatalog .empty) =
        .ok (conversion, after) ∧
      ∀ directive ∈ directivesOf module.items, ∃ kept, Text.size kept = directive.stop ∧
        kept <+: clientCard.toList ∧ kept <+: conversion.output.toList ∧
        ∀ edit ∈ editsOf hookOptions "card" module (.ofCatalog .empty),
          directive.stop ≤ edit.start := by
  have hmarkup : Path.hasMarkup ⟨"card.tsx"⟩ = true := by decide +kernel
  have hevaluated : ((Module.parse? true clientCard).map fun module ↦
      (decide (Node.InOrder module.text module.items),
        (directivesOf module.items).map Node.stop,
        (bindingBody? hookOptions "card" module (.ofCatalog .empty)).map fun body ↦
          (directivesOf body.parts).length)) = some (true, [13], some 0) := by
    decide +kernel
  obtain ⟨module, hmodule, hvalues⟩ := Option.map_eq_some_iff.1 hevaluated
  obtain ⟨hinOrder, hvalues⟩ := Prod.mk.inj hvalues
  obtain ⟨hdirectives, hbody⟩ := Prod.mk.inj hvalues
  obtain ⟨body, hbody, hempty⟩ := Option.map_eq_some_iff.1 hbody
  rw [← hmarkup] at hmodule
  obtain ⟨-, hkeeps, conversion, after, hconverted, hfront⟩ :=
    keepsDirectives_iff hmodule (of_decide_eq_true hinOrder) hookOptions "card" (.ofCatalog .empty)
  rw [hmarkup] at hmodule
  refine ⟨module, conversion, after, hmodule, hdirectives, Option.isSome_of_eq_some hbody,
    hkeeps.2 fun other hother ↦ ?_, hconverted, hfront⟩
  cases hbody.symm.trans hother
  exact List.length_eq_zero_iff.1 hempty

def worklet : String :=
  "function A() \x7b\n  \"worklet\";\n  return <p>Hi</p>;\n\x7d\n"

/-- The binding is added before the directive. -/
theorem not_keepsDirectives_worklet :
    ¬ ∀ module, Module.parse? true worklet = some module →
      KeepsDirectives hookOptions "card" module (.ofCatalog .empty) := by
  have hevaluated : (Module.parse? true worklet).map (fun module ↦
      decide (KeepsDirectives hookOptions "card" module (.ofCatalog .empty))) = some false := by
    decide +kernel
  obtain ⟨module, hmodule, hfails⟩ := Option.map_eq_some_iff.1 hevaluated
  exact fun hall ↦ of_decide_eq_false hfails (hall module hmodule)

end Conversion

end Phrasebook
