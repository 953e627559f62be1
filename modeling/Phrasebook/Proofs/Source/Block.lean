import Mathlib.Data.List.Pairwise
import Phrasebook.Proofs.Source.Directives
import Phrasebook.Proofs.Source.Locales

/-!
# The block of imports in the output

A registration puts the imports of all catalogs in as one block, behind the last import that stays,
behind the directives, or at the top. In a source whose items stand one behind the other no edit
reaches across that place: the imports that are taken out end before it, with the line end behind
them, or start behind it, and a call that properties are put into lies in another item. So the block
stands in the output as it was put in.
-/

namespace Phrasebook

open Syntax

namespace Edit

variable {source result : List Char} {edit : Edit} {edits : List Edit} {cursor : Nat}

/-- The text of an edit stands in what is made of a source, unless an edit before it reaches into
its range. -/
theorem infix_of_applyFrom? (h : applyFrom? source cursor edits = some result)
    (hedit : edit ∈ edits) (hcursor : cursor ≤ edit.start) (hstop : edit.stop ≤ Text.size source)
    (hordered : edits.Pairwise fun first second ↦ precedes first second)
    (hbefore : ∀ other ∈ edits, precedes other edit = true → other ≠ edit →
      other.stop ≤ edit.start) : edit.text.toList <:+: result := by
  induction edits generalizing cursor result with
  | nil => cases hedit
  | cons first rest ih =>
    obtain ⟨hfirst, hrest⟩ := List.pairwise_cons.1 hordered
    have hlater := fun other hother ↦ hbefore other (List.mem_cons_of_mem first hother)
    rw [applyFrom?] at h
    by_cases hsame : first = edit
    · subst hsame
      have hkept : first.isDropped (Text.size source) cursor = false :=
        Bool.or_eq_false_iff.2 ⟨decide_eq_false (by omega), decide_eq_false (by omega)⟩
      rw [hkept, if_neg Bool.false_ne_true] at h
      obtain ⟨kept, -, hbehind⟩ := Option.bind_eq_some_iff.1 h
      obtain ⟨others, -, rfl⟩ := Option.map_eq_some_iff.1 hbehind
      exact ⟨kept, others, rfl⟩
    · have hmem : edit ∈ rest := (List.mem_cons.1 hedit).resolve_left (Ne.symm hsame)
      split at h
      · exact ih h hmem hcursor hrest hlater
      · obtain ⟨kept, -, hbehind⟩ := Option.bind_eq_some_iff.1 h
        obtain ⟨others, hothers, rfl⟩ := Option.map_eq_some_iff.1 hbehind
        have hreach := hbefore first List.mem_cons_self (hfirst edit hmem) hsame
        obtain ⟨front, behind, rfl⟩ := ih hothers hmem hreach hrest hlater
        exact ⟨kept ++ first.text.toList ++ front, behind, by simp only [List.append_assoc]⟩

/-- An edit has a range in a source, and no edit that comes before it reaches into the range. -/
structure Unobstructed (code : String) (edits : List Edit) (edit : Edit) : Prop where
  stop : edit.stop ≤ Text.size code.toList
  before : ∀ other ∈ edits, precedes other edit = true → other ≠ edit → other.stop ≤ edit.start

theorem Unobstructed.infix_of_applyAll? {code output : String}
    (h : Unobstructed code edits edit) (happly : applyAll? code edits = some output)
    (hedit : edit ∈ edits) : edit.text.toList <:+: output.toList := by
  obtain ⟨result, hresult, rfl⟩ := Option.map_eq_some_iff.1 happly
  have hperm : (edits.mergeSort precedes).Perm edits := List.mergeSort_perm ..
  rw [String.toList_ofList]
  exact infix_of_applyFrom? hresult (hperm.mem_iff.2 hedit) (Nat.zero_le _) h.stop
    (pairwise_mergeSort edits) fun other hother ↦ h.before other (hperm.mem_iff.1 hother)

end Edit

namespace Registration

variable {plan : Plan} {path : Path} {code : String} {module : Module} {text : List Char}
variable {items : List Node} {node anchor call second : Node} {statement : ImportStatement}
variable {statements : List ImportStatement} {removals : List Edit} {edit : Edit} {offset : Nat}

/-- Items stand one behind the other in a text, and every import among them covers more than a line
end does and binds names without parts. -/
structure ItemsInOrder (text : List Char) (items : List Node) : Prop where
  inOrder : Node.InOrder text items
  imports : ∀ node ∈ items, (ImportStatement.ofNode? node).isSome = true →
    node.start + 2 ≤ node.stop ∧ ∀ part ∈ node.parts, part.parts = []

instance (text : List Char) (items : List Node) : Decidable (ItemsInOrder text items) :=
  decidable_of_iff
    (Node.InOrder text items ∧
      ∀ node ∈ items, (ImportStatement.ofNode? node).isSome = true →
        node.start + 2 ≤ node.stop ∧ ∀ part ∈ node.parts, part.parts = [])
    ⟨fun ⟨inOrder, imports⟩ ↦ ⟨inOrder, imports⟩, fun ⟨inOrder, imports⟩ ↦ ⟨inOrder, imports⟩⟩

theorem ItemsInOrder.apart (h : ItemsInOrder text items) {first second : Node}
    (hfirst : first ∈ items) (hsecond : second ∈ items) (hne : first ≠ second) :
    first.stop ≤ second.start ∨ second.stop ≤ first.start := by
  have hsymm : Std.Symm fun first second : Node ↦ first.span.Apart second.span :=
    ⟨fun _ _ ↦ Span.Apart.symm⟩
  exact h.inOrder.inPlace.apart.forall hfirst hsecond hne

theorem mem_allOf_iff {nodes : List Node} {found : Node} :
    found ∈ Node.allOf nodes ↔ ∃ node ∈ nodes, found ∈ Node.all node := by
  induction nodes with
  | nil => simp [Node.allOf]
  | cons node rest ih =>
    rw [Node.allOf, List.mem_append, ih]
    simp

/-- What is inside a node of a tree is inside the tree. -/
theorem all_subset_allOf {nodes : List Node} {found : Node} (h : found ∈ Node.allOf nodes) :
    Node.all found ⊆ Node.allOf nodes := by
  match nodes with
  | [] => cases h
  | .mk kind span parts :: rest =>
    rw [Node.allOf, Node.all] at h
    rw [Node.allOf, Node.all]
    rcases List.mem_append.1 h with hfirst | hrest
    · refine List.Subset.trans ?_ (List.subset_append_left _ _)
      rcases List.mem_cons.1 hfirst with rfl | hbelow
      · rw [Node.all]
        exact List.Subset.refl _
      · exact List.subset_cons_of_subset _ (all_subset_allOf hbelow)
    · exact List.subset_append_of_subset_right _ (all_subset_allOf hrest)

/-- Nothing is called in a node that is no call and whose parts have no parts. -/
theorem isInitialCall_of_flat (hkind : node.kind ≠ .call)
    (hparts : ∀ part ∈ node.parts, part.parts = []) :
    ∀ found ∈ Node.all node, isInitialCall found = false := by
  intro found hfound
  obtain ⟨kind, span, parts⟩ := node
  rw [Node.all] at hfound
  rcases List.mem_cons.1 hfound with rfl | hbelow
  · exact isInitialCall_of_ne_call hkind
  · obtain ⟨part, hpart, hmem⟩ := mem_allOf_iff.1 hbelow
    have hempty := hparts part hpart
    obtain ⟨partKind, partSpan, inner⟩ := part
    obtain rfl : inner = [] := hempty
    rw [List.mem_singleton.1 hmem]
    exact isInitialCall_of_parts_eq_nil rfl

/-- The block goes behind an item that calls nothing, and every import of a catalog ends before that
item does, with a line end behind it, or starts behind the item. -/
structure IsAnchor (plan : Plan) (items : List Node) (offset : Nat) (anchor : Node) : Prop where
  mem : anchor ∈ items
  stop : anchor.stop = offset
  calls : ∀ found ∈ Node.all anchor, isInitialCall found = false
  apart : ∀ node ∈ items, ∀ statement, ImportStatement.ofNode? node = some statement →
    (bindingOf? plan statement).isSome = true →
    node.stop + 2 ≤ anchor.stop ∨ anchor.stop ≤ node.start

/-- An import that registers no locale has no call in it and is apart from the imports that are
taken out. -/
theorem isAnchor_of_import (h : ItemsInOrder text items) (hnode : node ∈ items)
    (hstatement : ImportStatement.ofNode? node = some statement)
    (hother : (bindingOf? plan statement).isNone = true) :
    IsAnchor plan items node.stop node where
  mem := hnode
  stop := rfl
  calls := by
    have hkind := (ImportStatement.describes_of_ofNode? hstatement).kind
    refine isInitialCall_of_flat (fun hcall ↦ ?_) (h.imports node hnode ?_).2
    · rw [hcall] at hkind
      cases hkind
    · rw [hstatement, Option.isSome_some]
  apart := by
    intro catalog hcatalog registered hregistered hsome
    have hne : catalog ≠ node := by
      rintro rfl
      cases hstatement.symm.trans hregistered
      rw [Option.isNone_iff_eq_none.1 hother] at hsome
      cases hsome
    have hfilled := (h.imports node hnode (by rw [hstatement, Option.isSome_some])).1
    rcases h.apart hcatalog hnode hne with hbefore | hbehind
    · exact .inl (by omega)
    · exact .inr hbehind

/-- A directive has no call in it and is apart from the imports that are taken out. -/
theorem isAnchor_of_directive (h : ItemsInOrder text items)
    (hdirective : node ∈ directivesOf items) : IsAnchor plan items node.stop node where
  mem := mem_of_mem_directivesOf hdirective
  stop := rfl
  calls := by
    have hmem := mem_of_mem_directivesOf hdirective
    obtain ⟨span, value, inner, parts, rfl⟩ :=
      exists_string_of_isDirective (isDirective_of_mem hdirective)
    have hstring := h.inOrder.quoted _ (Node.part_mem_allOf (Node.mem_allOf hmem)
      List.mem_cons_self)
    refine isInitialCall_of_flat nofun fun part hpart ↦ ?_
    rw [List.mem_singleton.1 hpart]
    exact List.isEmpty_iff.1 (Bool.and_eq_true_iff.1 hstring).2
  apart := by
    intro catalog hcatalog registered hregistered _
    have hkind := (ImportStatement.describes_of_ofNode? hregistered).kind
    have hother : Layout.isDirective catalog = false := by
      obtain ⟨kind, span, parts⟩ := catalog
      obtain rfl : kind = _ := hkind
      rfl
    exact .inr (h.inOrder.stop_le_start hdirective (Node.InOrder.mem_behind hcatalog hother))

/-- Where the block does not go to the top of a source, it goes behind an item. -/
theorem exists_isAnchor (h : ItemsInOrder text items)
    (hoffset : blockOffset? plan (Layout.ofItems items) = some offset) :
    ∃ anchor, IsAnchor plan items offset anchor := by
  unfold blockOffset? at hoffset
  rcases Option.or_eq_some_iff.1 hoffset with himport | ⟨-, hdirective⟩
  · obtain ⟨statement, hlast, rfl⟩ := Option.map_eq_some_iff.1 himport
    obtain ⟨himport, hother⟩ := List.mem_filter.1 (List.mem_of_getLast? hlast)
    obtain ⟨node, hnode, hstatement⟩ := List.mem_filterMap.1 himport
    rw [(ImportStatement.describes_of_ofNode? hstatement).stop]
    exact ⟨node, isAnchor_of_import h hnode hstatement hother⟩
  · obtain ⟨node, hlast, rfl⟩ := Option.map_eq_some_iff.1 hdirective
    exact ⟨node, isAnchor_of_directive h (List.mem_of_getLast? hlast)⟩

/-! ## Edits before the block -/

theorem lineEndSize_le (text : List Char) : lineEndSize text ≤ 2 := by
  unfold lineEndSize
  split <;> omega

/-- An edit that takes an import out ends at most a line end behind the import. -/
theorem exists_of_mem_removals (h : statements.mapM (removal? text) = some removals)
    (hedit : edit ∈ removals) :
    ∃ statement ∈ statements, edit.start = statement.start ∧ edit.stop ≤ statement.stop + 2 := by
  induction statements generalizing removals with
  | nil =>
    cases h
    cases hedit
  | cons statement rest ih =>
    rw [List.mapM_cons] at h
    obtain ⟨first, hfirst, hbehind⟩ := Option.bind_eq_some_iff.1 h
    obtain ⟨others, hothers, hsome⟩ := Option.bind_eq_some_iff.1 hbehind
    cases hsome
    rcases List.mem_cons.1 hedit with rfl | hmem
    · obtain ⟨⟨before, after⟩, -, rfl⟩ := Option.map_eq_some_iff.1 hfirst
      have hsize := lineEndSize_le after
      exact ⟨statement, List.mem_cons_self, rfl, Nat.add_le_add_left hsize _⟩
    · obtain ⟨other, hother, hrange⟩ := ih hothers hmem
      exact ⟨other, List.mem_cons_of_mem _ hother, hrange⟩

theorem stop_eq_start_of_mem_initializerEdits {layout : Layout}
    (h : edit ∈ initializerEdits plan layout) : edit.stop = edit.start := by
  unfold initializerEdits Conversion.ensureImportAt at h
  split at h
  · cases h
  · split at h
    · rw [List.mem_singleton.1 h]
      rfl
    · split at h <;> rw [List.mem_singleton.1 h] <;> rfl

theorem describe_of_other (h : passedNames? call = none) : describe call = ⟨[], .other⟩ := by
  unfold passedNames? secondArgument? at h
  unfold describe describeCall
  split
  · next hnone =>
    rw [hnone] at h
    cases h
  · next first hfirst =>
    rw [hfirst] at h
    cases h
  · next first second rest harguments =>
    rw [harguments] at h
    split
    · next inner properties hobject =>
      rw [show (first :: second :: rest)[1]?.map Node.withoutSpread = some _ from
        congrArg some hobject] at h
      cases h
    · rfl

/-- What is put into a call is an insertion, or takes the place of its second argument. -/
theorem Completes.range {properties : List String} {edits : List Edit}
    (h : Completes call properties edits) (hedit : edit ∈ edits) :
    edit.stop = edit.start ∨
      ∃ second, secondArgument? call = some second ∧ edit.start = second.start ∧
        edit.stop = second.stop := by
  cases h with
  | complete => cases hedit
  | behind =>
    rw [List.mem_singleton.1 hedit]
    exact .inl rfl
  | within _ hsecond =>
    rw [List.mem_singleton.1 hedit]
    exact .inr ⟨_, hsecond, rfl, rfl⟩
  | argument =>
    rw [List.mem_singleton.1 hedit]
    exact .inl rfl

theorem withoutSpread_mem_all (node : Node) : node.withoutSpread ∈ Node.all node := by
  unfold Node.withoutSpread
  split
  · next span inner =>
    rw [Node.all]
    exact List.mem_cons_of_mem _ (Node.mem_allOf List.mem_cons_self)
  · cases node with
    | mk kind span parts => exact List.mem_cons_self

/-- The second argument of a call is a part of the call, or of its spread part. -/
theorem secondArgument?_mem_all (h : secondArgument? call = some second) :
    second ∈ Node.all call := by
  obtain ⟨argument, hargument, rfl⟩ := Option.map_eq_some_iff.1 h
  obtain ⟨kind, span, parts⟩ := call
  have hmem : argument ∈ parts := by
    cases parts with
    | nil => cases hargument
    | cons callee rest =>
      exact List.mem_cons_of_mem _ (List.mem_of_mem_filter (List.mem_of_getElem? hargument))
  rw [Node.all]
  exact List.mem_cons_of_mem _ (mem_allOf_iff.2 ⟨argument, hmem, withoutSpread_mem_all argument⟩)

/-- What is put into the call that is there is an insertion, or takes the place of a node in an item
that holds a call of the initializer. -/
theorem range_of_mem_completion {all : List Binding} (hedit : edit ∈ completion module all) :
    edit.stop = edit.start ∨
      ∃ node ∈ module.items, (∃ call ∈ Node.all node, isInitialCall call = true) ∧
        ∃ second ∈ Node.all node, edit.start = second.start ∧ edit.stop = second.stop := by
  unfold completion at hedit
  cases hcall : (Node.allOf module.items).find? isInitialCall with
  | none =>
    rw [hcall] at hedit
    cases hedit
  | some call =>
    rw [hcall, Option.map_some, Option.getD_some] at hedit
    cases hnames : passedNames? call with
    | none =>
      rw [describe_of_other hnames] at hedit
      unfold propertyEdits at hedit
      split at hedit <;> cases hedit
    | some names =>
      obtain ⟨-, hcompletes⟩ := completes_propertyEdits hnames all
      refine ((hcompletes _).range hedit).imp_right ?_
      rintro ⟨second, hsecond, hrange⟩
      obtain ⟨node, hnode, hmem⟩ := mem_allOf_iff.1 (List.mem_of_find?_eq_some hcall)
      refine ⟨node, hnode, ⟨call, hmem, List.find?_some hcall⟩, second, ?_, hrange⟩
      have hnodes : call ∈ Node.allOf [node] := mem_allOf_iff.2 ⟨node, List.mem_cons_self, hmem⟩
      obtain ⟨same, hsame, hfound⟩ :=
        mem_allOf_iff.1 (all_subset_allOf hnodes (secondArgument?_mem_all hsecond))
      rwa [List.mem_singleton.1 hsame] at hfound

/-! ## The block stands in the output -/

theorem block_range (plan : Plan) (module : Module) :
    (block plan module).start = (blockOffset? plan (Layout.ofModule module)).getD 0 ∧
      (block plan module).stop = (blockOffset? plan (Layout.ofModule module)).getD 0 := by
  unfold block
  cases blockOffset? plan (Layout.ofModule module) <;> exact ⟨rfl, rfl⟩

/-- An edit that comes before an insertion and is an insertion itself ends before it. -/
theorem stop_le_of_precedes {other : Edit} (h : Edit.precedes other edit = true)
    (hedit : edit.stop = edit.start)
    (hstart : other.stop = other.start ∨ edit.start ≤ other.start) :
    other.stop ≤ edit.start := by
  simp only [Edit.precedes, Bool.or_eq_true, Bool.and_eq_true, decide_eq_true_eq, beq_iff_eq] at h
  omega

/-- What is inside an item lies within its range. -/
theorem ItemsInOrder.within (h : ItemsInOrder text items) (hnode : node ∈ items) {found : Node}
    (hfound : found ∈ Node.all node) : node.start ≤ found.start ∧ found.stop ≤ node.stop := by
  have hinPlace : Node.AllInPlace text [node] :=
    { each := fun other hother ↦ by
        obtain ⟨same, hsame, hmem⟩ := mem_allOf_iff.1 hother
        rw [List.mem_singleton.1 hsame] at hmem
        exact h.inOrder.inPlace.each other (mem_allOf_iff.2 ⟨node, hnode, hmem⟩)
      apart := List.pairwise_singleton .. }
  obtain ⟨same, hsame, hwithin⟩ :=
    hinPlace.exists_within (mem_allOf_iff.2 ⟨node, List.mem_cons_self, hfound⟩)
  rwa [List.mem_singleton.1 hsame] at hwithin

/-- An import that is taken out ends before the item that the block is put behind, or starts behind
that item. -/
theorem IsAnchor.apart_of_removal (hanchor : IsAnchor plan module.items offset anchor)
    (hremovals : (catalogStatements plan (Layout.ofModule module)).mapM (removal? text) =
      some removals) (hedit : edit ∈ removals) : edit.stop ≤ offset ∨ offset ≤ edit.start := by
  obtain ⟨statement, hstatement, hstart, hstop⟩ := exists_of_mem_removals hremovals hedit
  obtain ⟨himport, hsome⟩ := List.mem_filter.1 hstatement
  obtain ⟨node, hnode, hdescribed⟩ := List.mem_filterMap.1 himport
  have hnodeStart := ImportStatement.start_of_ofNode? hdescribed
  have hnodeStop := (ImportStatement.describes_of_ofNode? hdescribed).stop
  have hedge := hanchor.stop
  rcases hanchor.apart node hnode statement hdescribed hsome with hbefore | hbehind
  · exact .inl (by omega)
  · exact .inr (by omega)

/-- What is put into a call is an insertion, or lies in another item than the one that the block is
put behind. -/
theorem IsAnchor.apart_of_completion (hanchor : IsAnchor plan module.items offset anchor)
    (h : ItemsInOrder text module.items) {all : List Binding}
    (hedit : edit ∈ completion module all) :
    edit.stop = edit.start ∨ edit.stop ≤ offset ∨ offset ≤ edit.start := by
  refine (range_of_mem_completion hedit).imp_right ?_
  rintro ⟨node, hnode, ⟨call, hcall, hinitial⟩, second, hsecond, hstart, hstop⟩
  have hother : node ≠ anchor := by
    rintro rfl
    rw [hanchor.calls call hcall] at hinitial
    cases hinitial
  have hwithin := h.within hnode hsecond
  have hfilled := (h.inOrder.inPlace.mem hanchor.mem).fits.ordered
  change anchor.start ≤ anchor.stop at hfilled
  have hedge := hanchor.stop
  rcases h.apart hnode hanchor.mem hother with hbefore | hbehind
  · exact .inl (by omega)
  · exact .inr (by omega)

/-- No edit reaches across the place of the block. -/
theorem unobstructed_block (h : ItemsInOrder code.toList module.items)
    (hremovals : (catalogStatements plan (Layout.ofModule module)).mapM (removal? code.toList) =
      some removals) :
    Edit.Unobstructed code (editsOf plan module removals) (block plan module) := by
  obtain ⟨hstart, hstop⟩ := block_range plan module
  cases hoffset : blockOffset? plan (Layout.ofModule module) with
  | none =>
    rw [hoffset, Option.getD_none] at hstart hstop
    refine ⟨hstop ▸ Nat.zero_le _, fun other _ hprecedes _ ↦ ?_⟩
    exact stop_le_of_precedes hprecedes (hstop.trans hstart.symm) (.inr (hstart ▸ Nat.zero_le _))
  | some offset =>
    rw [hoffset, Option.getD_some] at hstart hstop
    obtain ⟨anchor, hanchor⟩ := exists_isAnchor h hoffset
    refine ⟨?_, fun other hother hprecedes hne ↦ ?_⟩
    · rw [hstop, ← hanchor.stop]
      exact (h.inOrder.inPlace.mem hanchor.mem).fits.stop.le_size
    · have hinsertion := stop_le_of_precedes hprecedes (hstop.trans hstart.symm)
      rw [hstart] at hinsertion ⊢
      rcases List.mem_append.1 hother with hearlier | hblock
      · rcases List.mem_append.1 hearlier with himports | hcompletion
        · rcases List.mem_append.1 himports with hinitializer | hremoval
          · exact hinsertion (.inl (stop_eq_start_of_mem_initializerEdits hinitializer))
          · rcases hanchor.apart_of_removal hremovals hremoval with hbefore | hbehind
            · exact hbefore
            · exact hinsertion (.inr hbehind)
        · rcases hanchor.apart_of_completion h hcompletion with hpoint | hbefore | hbehind
          · exact hinsertion (.inl hpoint)
          · exact hbefore
          · exact hinsertion (.inr hbehind)
      · exact absurd (List.mem_singleton.1 hblock) hne

/-- Every locale is registered once: the bindings of a source and a plan have every locale that the
source imports or the plan names, and there is one line, one property of an added call and one
property of a call that lacks it for each of them. A registration reports these locales and applies
these edits, and the block of lines stands in the output of a source whose items stand in order. -/
theorem registers_once (plan : Plan)
    (hmodule : Module.parse? path.hasMarkup code = some module) :
    let all := bindings plan (Layout.ofModule module)
    Registers plan (Layout.ofModule module) all ∧
    Emits plan module all (importLines plan all) (completion module all)
      (addedCall? plan module all) ∧
    (∀ output registered,
      (∃ outcome, ofSource plan path code = .ok outcome ∧ outcome.output = output ∧
          outcome.locales = registered) ↔
        registered = locales all ∧
          ∃ removals,
            (catalogStatements plan (Layout.ofModule module)).mapM (removal? code.toList) =
              some removals ∧
            Edit.applyAll? code (editsOf plan module removals) = some output) ∧
    (ItemsInOrder code.toList module.items →
      ∀ outcome, ofSource plan path code = .ok outcome →
        (block plan module).text.toList <:+: outcome.output.toList) := by
  refine ⟨registers_bindings plan _, emits plan module (sorted_bindings plan _),
    exists_ofSource_iff hmodule, fun horder outcome houtcome ↦ ?_⟩
  obtain ⟨-, removals, hremovals, happly⟩ :=
    (exists_ofSource_iff hmodule _ _).1 ⟨outcome, houtcome, rfl, rfl⟩
  exact (unobstructed_block horder hremovals).infix_of_applyAll? happly
    (List.mem_append_right _ List.mem_cons_self)

/-- A plan with two locales besides the standard one, whose catalogs are ordered differently. -/
def widePlan : Plan :=
  { plainPlan with locales := ["pt-BR", "pt"] }

/-- The locales that the entry file and the plan have between them are registered, and the block
stands in the output. -/
theorem registers_once_entry :
    ∃ module, Module.parse? (Path.hasMarkup ⟨"App.tsx"⟩) (entry "\n") = some module ∧
      locales (bindings widePlan (Layout.ofModule module)) = ["en", "pt", "pt-BR"] ∧
      Registers widePlan (Layout.ofModule module)
        (bindings widePlan (Layout.ofModule module)) ∧
      ∀ outcome, ofSource widePlan ⟨"App.tsx"⟩ (entry "\n") = .ok outcome →
        (block widePlan module).text.toList <:+: outcome.output.toList := by
  have hevaluated : (Module.parse? (Path.hasMarkup ⟨"App.tsx"⟩) (entry "\n")).map (fun module ↦
      (locales (bindings widePlan (Layout.ofModule module)),
        decide (ItemsInOrder (entry "\n").toList module.items))) =
      some (["en", "pt", "pt-BR"], true) := by
    decide +kernel
  obtain ⟨module, hmodule, hfound⟩ := Option.map_eq_some_iff.1 hevaluated
  obtain ⟨hlocales, horder⟩ := Prod.mk.inj hfound
  obtain ⟨hregisters, -, -, hblock⟩ := registers_once widePlan hmodule
  exact ⟨module, hmodule, hlocales, hregisters, hblock (of_decide_eq_true horder)⟩

end Registration

end Phrasebook
