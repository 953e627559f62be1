import Phrasebook.Proofs.Source.References
import Phrasebook.Proofs.Text.Blank
import Phrasebook.Proofs.Text.Offset

/-!
# Where sites stand

A tree is in place in a text when every node covers a part of it, with the parts of a node within
the range of the node and apart from each other. The sites of such a tree are ranges of the text
that share no character. Where a node that a pass visits starts or stops, no site is cut in two: a
site lies within the node or apart from it.
-/

namespace Phrasebook

namespace Syntax

namespace Span

/-- A range lies within another one. -/
def Within (inner outer : Span) : Prop :=
  outer.start ≤ inner.start ∧ inner.stop ≤ outer.stop

/-- Two ranges share nothing. -/
def Apart (first second : Span) : Prop :=
  first.stop ≤ second.start ∨ second.stop ≤ first.start

/-- A range of a text. -/
structure Fits (text : List Char) (span : Span) : Prop where
  ordered : span.start ≤ span.stop
  start : Text.IsBoundary text span.start
  stop : Text.IsBoundary text span.stop

/-- A range covers some characters of a text. -/
structure Covers (text : List Char) (span : Span) : Prop where
  fits : span.Fits text
  filled : span.start < span.stop

instance (inner outer : Span) : Decidable (inner.Within outer) :=
  inferInstanceAs (Decidable (_ ∧ _))

instance (first second : Span) : Decidable (first.Apart second) :=
  inferInstanceAs (Decidable (_ ∨ _))

instance (text : List Char) (span : Span) : Decidable (span.Fits text) :=
  decidable_of_iff
    (span.start ≤ span.stop ∧ Text.IsBoundary text span.start ∧ Text.IsBoundary text span.stop)
    ⟨fun ⟨ordered, start, stop⟩ ↦ ⟨ordered, start, stop⟩,
      fun ⟨ordered, start, stop⟩ ↦ ⟨ordered, start, stop⟩⟩

variable {inner middle outer first second : Span}

theorem Within.refl (span : Span) : span.Within span :=
  ⟨Nat.le_refl _, Nat.le_refl _⟩

theorem Within.trans (h : inner.Within middle) (h' : middle.Within outer) : inner.Within outer :=
  ⟨Nat.le_trans h'.1 h.1, Nat.le_trans h.2 h'.2⟩

theorem Apart.symm (h : first.Apart second) : second.Apart first :=
  Or.symm h

/-- What lies within ranges that share nothing shares nothing. -/
theorem Apart.within (h : first.Apart second) (hinner : inner.Within first)
    (hmiddle : middle.Within second) : inner.Apart middle := by
  unfold Apart Within at *
  omega

end Span

namespace Node

/-- What the source has of a node: characters that are not all blanks of a text between two tags
that is not blank, the brace that a block begins with, some characters of a string, a template or a
conditional. -/
def isWritten (text : List Char) : Node → Bool
  | .mk (.text value) span _ =>
    Text.isBlankText value ||
      (Text.slice span.start span.stop text).any fun c ↦ !Text.isBlank c
  | .mk .block span _ => (Text.slice span.start span.stop text).head? == some '\x7b'
  | .mk (.string _) span _ => span.start < span.stop
  | .mk (.template _) span _ => span.start < span.stop
  | .mk .conditional span _ => span.start < span.stop
  | _ => true

/-- A node stands in a text where its range says. -/
structure InPlace (text : List Char) (node : Node) : Prop where
  fits : node.span.Fits text
  within : ∀ part ∈ node.parts, part.span.Within node.span
  apart : node.parts.Pairwise fun first second ↦ first.span.Apart second.span
  written : node.isWritten text = true

instance (text : List Char) (node : Node) : Decidable (node.InPlace text) :=
  decidable_of_iff
    (node.span.Fits text ∧ (∀ part ∈ node.parts, part.span.Within node.span) ∧
      (node.parts.Pairwise fun first second ↦ first.span.Apart second.span) ∧
      node.isWritten text = true)
    ⟨fun ⟨fits, within, apart, written⟩ ↦ ⟨fits, within, apart, written⟩,
      fun ⟨fits, within, apart, written⟩ ↦ ⟨fits, within, apart, written⟩⟩

/-- Nodes and everything inside them stand in a text where their ranges say, and the nodes share
nothing. -/
structure AllInPlace (text : List Char) (nodes : List Node) : Prop where
  each : ∀ node ∈ allOf nodes, node.InPlace text
  apart : nodes.Pairwise fun first second ↦ first.span.Apart second.span

instance (text : List Char) (nodes : List Node) : Decidable (AllInPlace text nodes) :=
  decidable_of_iff
    ((∀ node ∈ allOf nodes, node.InPlace text) ∧
      nodes.Pairwise fun first second ↦ first.span.Apart second.span)
    ⟨fun ⟨each, apart⟩ ↦ ⟨each, apart⟩, fun ⟨each, apart⟩ ↦ ⟨each, apart⟩⟩

variable {text : List Char} {node found : Node} {nodes rest : List Node}

theorem mem_allOf (h : node ∈ nodes) : node ∈ allOf nodes := by
  induction nodes with
  | nil => cases h
  | cons first others ih =>
    rw [allOf, List.mem_append]
    rcases List.mem_cons.1 h with rfl | hmem
    · left
      cases node with
      | mk kind span parts => exact List.mem_cons_self
    · exact .inr (ih hmem)

/-- The parts of a node of a tree are nodes of the tree. -/
theorem part_mem_allOf {part : Node} {nodes : List Node} (hfound : found ∈ allOf nodes)
    (hpart : part ∈ found.parts) : part ∈ allOf nodes := by
  match nodes with
  | [] => cases hfound
  | .mk kind span parts :: rest =>
    rw [allOf, all] at hfound ⊢
    rcases List.mem_append.1 hfound with hfirst | hrest
    · refine List.mem_append_left _ (List.mem_cons_of_mem _ ?_)
      rcases List.mem_cons.1 hfirst with rfl | hbelow
      · exact mem_allOf hpart
      · exact part_mem_allOf hbelow hpart
    · exact List.mem_append_right _ (part_mem_allOf hrest hpart)

theorem allOf_append (first second : List Node) :
    allOf (first ++ second) = allOf first ++ allOf second := by
  induction first with
  | nil => rfl
  | cons node rest ih => rw [List.cons_append, allOf, allOf, ih, List.append_assoc]

theorem withoutParens_mem_allOf {nodes : List Node} (h : node ∈ allOf nodes) :
    node.withoutParens ∈ allOf nodes := by
  induction node using withoutParens.induct with
  | case1 span inner ih =>
    rw [withoutParens]
    exact ih (part_mem_allOf h List.mem_cons_self)
  | case2 node hplain =>
    rw [withoutParens]
    · exact h
    · exact hplain

theorem AllInPlace.mem (h : AllInPlace text nodes) (hnode : node ∈ nodes) : node.InPlace text :=
  h.each node (mem_allOf hnode)

theorem AllInPlace.tail (h : AllInPlace text (node :: rest)) : AllInPlace text rest where
  each found hfound := h.each found (List.mem_append_right _ hfound)
  apart := (List.pairwise_cons.1 h.apart).2

theorem AllInPlace.of_append {first second : List Node}
    (h : AllInPlace text (first ++ second)) : AllInPlace text second := by
  induction first with
  | nil => exact h
  | cons node rest ih => exact ih h.tail

theorem AllInPlace.head (h : AllInPlace text (node :: rest)) : AllInPlace text [node] where
  each found hfound := by
    rw [allOf, allOf, List.append_nil] at hfound
    exact h.each found (List.mem_append_left _ hfound)
  apart := List.pairwise_singleton ..

/-- The parts of a node in place are in place. -/
theorem AllInPlace.parts (h : AllInPlace text (node :: rest)) : AllInPlace text node.parts where
  each found hfound := by
    refine h.each found (List.mem_append_left _ ?_)
    cases node with
    | mk kind span parts => exact List.mem_cons_of_mem _ hfound
  apart := (h.mem List.mem_cons_self).apart

/-- Whatever is inside one of several nodes lies within that node. -/
theorem AllInPlace.exists_within {nodes : List Node} (h : AllInPlace text nodes)
    (hfound : found ∈ allOf nodes) : ∃ node ∈ nodes, found.span.Within node.span := by
  match nodes with
  | [] => cases hfound
  | .mk kind span parts :: rest =>
    rw [allOf, all] at hfound
    rcases List.mem_append.1 hfound with hfirst | hrest
    · refine ⟨.mk kind span parts, List.mem_cons_self, ?_⟩
      rcases List.mem_cons.1 hfirst with rfl | hbelow
      · exact .refl span
      · have hparts : AllInPlace text parts := h.parts
        obtain ⟨part, hpart, hwithin⟩ := hparts.exists_within hbelow
        exact hwithin.trans ((h.mem List.mem_cons_self).within part hpart)
    · obtain ⟨node, hnode, hwithin⟩ := h.tail.exists_within hrest
      exact ⟨node, List.mem_cons_of_mem _ hnode, hwithin⟩

end Node

end Syntax

/-! ## The range of a site -/

def Site.span (site : Site) : Syntax.Span :=
  ⟨site.start, site.stop⟩

namespace Collection

open Syntax

variable {text : List Char} {excluded : List String} {site : Site}
variable {node found : Node} {nodes rest : List Node}

/-- The characters of a range that are not blank begin and stop within the range. -/
theorem covers_trimmed {span : Span} (h : span.Fits text)
    (hvisible : (Text.slice span.start span.stop text).any (fun c ↦ !Text.isBlank c) = true) :
    let raw := Text.slice span.start span.stop text
    let lead := Text.size raw - Text.size (Text.trimStartChars raw)
    let trail := Text.size raw - Text.size (Text.trimEndChars raw)
    Span.Covers text ⟨span.start + lead, span.stop - trail⟩ ∧
      Span.Within ⟨span.start + lead, span.stop - trail⟩ span := by
  obtain ⟨before, raw, after, rfl, hstart, hstop⟩ :=
    Text.exists_enclosed h.start h.stop h.ordered
  have hslice : Text.slice span.start span.stop (before ++ (raw ++ after)) = raw := by
    rw [Text.slice, hstop, ← hstart, Text.slice?_size]
    rfl
  rw [hslice] at hvisible ⊢
  obtain ⟨c, hc, hblank⟩ := List.any_eq_true.1 hvisible
  rw [Bool.not_eq_true'] at hblank
  have hfront : Text.leadChars raw ++ Text.trimStartChars raw = raw :=
    List.takeWhile_append_dropWhile
  have hback : Text.trimEndChars raw ++ raw.rtakeWhile Text.isBlank = raw :=
    List.rdropWhile_append_rtakeWhile ..
  obtain ⟨middle, hsame, hfilled⟩ := Text.exists_trimEndChars_eq hc hblank
  have hsizes := congrArg Text.size hsame
  have hfrontSize := congrArg Text.size hfront
  have hbackSize := congrArg Text.size hback
  rw [Text.size_append] at hsizes hfrontSize hbackSize
  have hpos : 0 < Text.size middle :=
    Nat.pos_of_ne_zero fun hzero ↦ hfilled (Text.eq_nil_of_size_eq_zero hzero)
  dsimp only
  refine ⟨⟨⟨by dsimp only; omega, ⟨before ++ Text.leadChars raw,
    Text.trimStartChars raw ++ after, ?_, ?_⟩, ⟨before ++ Text.trimEndChars raw,
    raw.rtakeWhile Text.isBlank ++ after, ?_, ?_⟩⟩, by dsimp only; omega⟩,
    ⟨by dsimp only; omega, by dsimp only; omega⟩⟩
  · rw [List.append_assoc, ← List.append_assoc (Text.leadChars raw), hfront]
  · rw [Text.size_append]
    dsimp only
    omega
  · rw [List.append_assoc, ← List.append_assoc (Text.trimEndChars raw), hback]
  · rw [Text.size_append]
    dsimp only
    omega

/-- The site of a quoted attribute is its string. -/
theorem covers_of_quotedSite? {name : String} (h : Node.AllInPlace text nodes)
    (hsite : quotedSite? excluded name nodes = some site) :
    site.span.Covers text ∧ ∃ part ∈ nodes, site.span.Within part.span := by
  unfold quotedSite? at hsite
  split at hsite
  · next value inner others =>
    obtain ⟨found, -, rfl⟩ := Option.map_eq_some_iff.1 hsite
    have hstring := h.mem List.mem_cons_self
    exact ⟨⟨hstring.fits, of_decide_eq_true hstring.written⟩, _, List.mem_cons_self, .refl inner⟩
  · cases hsite

/-- The site of a container is the template in it, whether or not it stands in parentheses. -/
theorem covers_of_templateSite? (h : Node.AllInPlace text nodes)
    (hsite : templateSite? excluded nodes = some site) :
    site.span.Covers text ∧ ∃ part ∈ nodes, site.span.Within part.span := by
  unfold templateSite? at hsite
  split at hsite
  · next inner =>
    split at hsite
    · next chunks span holes hinner =>
      obtain ⟨parts, -, hfound⟩ := Option.bind_eq_some_iff.1 hsite
      obtain ⟨found, -, rfl⟩ := Option.map_eq_some_iff.1 hfound
      have hmem : inner.withoutParens ∈ Node.allOf [inner] :=
        Node.withoutParens_mem_allOf (Node.mem_allOf List.mem_cons_self)
      have hwithin := h.exists_within hmem
      rw [hinner] at hwithin hmem
      have htemplate := h.each _ hmem
      exact ⟨⟨htemplate.fits, of_decide_eq_true htemplate.written⟩, hwithin⟩
    · cases hsite
  · cases hsite

/-- A site covers some characters within the range of its node. -/
theorem covers_of_siteOf? (h : Node.AllInPlace text (node :: rest))
    (hsite : siteOf? text excluded node = some site) :
    site.span.Covers text ∧ site.span.Within node.span := by
  have hnode := h.mem List.mem_cons_self
  have hparts : (site.span.Covers text ∧ ∃ part ∈ node.parts, site.span.Within part.span) →
      site.span.Covers text ∧ site.span.Within node.span := by
    rintro ⟨hcovers, part, hpart, hwithin⟩
    exact ⟨hcovers, hwithin.trans (hnode.within part hpart)⟩
  unfold siteOf? at hsite
  split at hsite
  · next value span parts =>
    obtain ⟨found, hfound, rfl⟩ := Option.map_eq_some_iff.1 hsite
    apply covers_trimmed hnode.fits
    have hwritten : (Text.isBlankText value || _) = true := hnode.written
    rw [Bool.or_eq_true] at hwritten
    refine hwritten.resolve_left fun hblank ↦ ?_
    rw [Rule.evaluate, matchText_eq_none_of_isBlankText hblank] at hfound
    cases hfound
  · exact hparts (covers_of_quotedSite? h.parts hsite)
  · exact hparts (covers_of_templateSite? h.parts hsite)
  · next span parts =>
    unfold conditionalSite? at hsite
    split at hsite
    · obtain ⟨found, -, rfl⟩ := Option.map_eq_some_iff.1 hsite
      exact ⟨⟨hnode.fits, of_decide_eq_true hnode.written⟩, .refl span⟩
    · cases hsite
  · cases hsite

/-- Every site covers some characters within one of the nodes that were searched. -/
theorem covers_of_mem_ofNodes {nodes : List Node} (h : Node.AllInPlace text nodes)
    (hsite : site ∈ (ofNodes text excluded nodes).sites) :
    site.span.Covers text ∧ ∃ node ∈ nodes, site.span.Within node.span := by
  match nodes with
  | [] => cases hsite
  | .mk kind span parts :: rest =>
    rw [ofNodes, sites_append, sites_ofNode] at hsite
    rcases List.mem_append.1 hsite with hfirst | hrest
    · split at hfirst
      · next found hfound =>
        rw [List.mem_singleton.1 hfirst]
        obtain ⟨hcovers, hwithin⟩ := covers_of_siteOf? h hfound
        exact ⟨hcovers, _, List.mem_cons_self, hwithin⟩
      · cases hfirst
      · have hparts : Node.AllInPlace text parts := h.parts
        obtain ⟨hcovers, part, hpart, hwithin⟩ := covers_of_mem_ofNodes hparts hfirst
        exact ⟨hcovers, _, List.mem_cons_self,
          hwithin.trans ((h.mem List.mem_cons_self).within part hpart)⟩
    · obtain ⟨hcovers, node, hnode, hwithin⟩ := covers_of_mem_ofNodes h.tail hrest
      exact ⟨hcovers, node, List.mem_cons_of_mem _ hnode, hwithin⟩

/-- Every site that is found in a node covers some characters within the node. -/
theorem covers_of_mem_ofNode (h : Node.AllInPlace text (node :: rest))
    (hsite : site ∈ (ofNode text excluded node).sites) :
    site.span.Covers text ∧ site.span.Within node.span := by
  have hsites : site ∈ (ofNodes text excluded [node]).sites := by
    rw [sites_ofNodes_cons]
    exact List.mem_append_left _ hsite
  obtain ⟨hcovers, other, hother, hwithin⟩ := covers_of_mem_ofNodes h.head hsites
  rw [List.mem_singleton.1 hother] at hwithin
  exact ⟨hcovers, hwithin⟩

/-- A site in one of several nodes is apart from whatever lies within another one. -/
theorem apart_of_mem_ofNode (h : Node.AllInPlace text (node :: rest)) {span : Span}
    (hsite : site ∈ (ofNode text excluded node).sites) (hother : found ∈ rest)
    (hwithin : span.Within found.span) : site.span.Apart span := by
  have hnodes := (List.pairwise_cons.1 h.apart).1 found hother
  exact hnodes.within (covers_of_mem_ofNode h hsite).2 hwithin

/-- The sites of nodes share no character. -/
theorem pairwise_apart_ofNodes {nodes : List Node} (h : Node.AllInPlace text nodes) :
    (ofNodes text excluded nodes).sites.Pairwise fun first second ↦
      first.span.Apart second.span := by
  match nodes with
  | [] => exact List.Pairwise.nil
  | .mk kind span parts :: rest =>
    rw [sites_ofNodes_cons]
    refine List.pairwise_append.2 ⟨?_, pairwise_apart_ofNodes h.tail, ?_⟩
    · rw [sites_ofNode]
      split
      · exact List.pairwise_singleton ..
      · exact List.Pairwise.nil
      · have hparts : Node.AllInPlace text parts := h.parts
        change (ofNodes text excluded parts).sites.Pairwise _
        exact pairwise_apart_ofNodes hparts
    · intro first hfirst second hsecond
      obtain ⟨-, other, hother, hwithin⟩ := covers_of_mem_ofNodes h.tail hsecond
      exact apart_of_mem_ofNode h hfirst hother hwithin

/-! ## Where no site is cut -/

/-- Only nodes of a module are visited. -/
theorem visitedOf_subset (text : List Char) (excluded : List String) (nodes : List Node) :
    visitedOf text excluded nodes ⊆ Node.allOf nodes := by
  match nodes with
  | [] => exact List.Subset.refl _
  | .mk kind span parts :: rest =>
    rw [visitedOf, visited, Node.allOf, Node.all]
    have hbelow : (if isSearched text excluded (.mk kind span parts) then
        visitedOf text excluded parts else []) ⊆ Node.allOf parts := by
      split
      · exact visitedOf_subset text excluded parts
      · exact List.nil_subset _
    refine List.append_subset.2 ⟨?_, ?_⟩
    · exact List.subset_append_of_subset_left _ (List.cons_subset_cons _ hbelow)
    · exact List.subset_append_of_subset_right _ (visitedOf_subset text excluded rest)

/-- A range of a text is not cut. -/
theorem isCut_eq_false {span : Span} (h : span.Fits text) : isCut text span = false := by
  obtain ⟨before, raw, after, rfl, hstart, hstop⟩ :=
    Text.exists_enclosed h.start h.stop h.ordered
  rw [isCut, hstop, ← hstart, Text.slice?_size]
  rfl

/-- A pass over a tree in place comes upon no cut text. -/
theorem cutsCharacter_eq_false (h : Node.AllInPlace text nodes) :
    (ofNodes text excluded nodes).cutsCharacter = false := by
  rw [cutsCharacter_visitedOf, List.any_eq_false]
  intro node hvisited
  have hnode := visitedOf_subset text excluded nodes hvisited
  rw [Bool.not_eq_true]
  unfold cutsAt
  split
  · next value span parts =>
    have huncut : isCut text span = false := isCut_eq_false (h.each _ hnode).fits
    rw [huncut, Bool.and_false]
  · next span parts =>
    unfold cutsOperand
    split
    · next test others =>
      have htest := Node.withoutParens_mem_allOf (Node.part_mem_allOf hnode List.mem_cons_self)
      split
      · next symbol range left right hoperation =>
        rw [hoperation] at htest
        exact isCut_eq_false (h.each _ (Node.part_mem_allOf htest List.mem_cons_self)).fits
      · rfl
    · rfl
  · rfl

theorem exists_within_of_mem_visitedOf (h : Node.AllInPlace text nodes)
    (hfound : found ∈ visitedOf text excluded nodes) :
    ∃ node ∈ nodes, found.span.Within node.span :=
  h.exists_within (visitedOf_subset text excluded nodes hfound)

/-- A node that is searched has the sites of its parts. -/
theorem sites_of_isSearched (h : isSearched text excluded node = true) :
    (ofNode text excluded node).sites = (ofNodes text excluded node.parts).sites := by
  obtain ⟨hsite, hpassed⟩ := Bool.and_eq_true_iff.1 h
  rw [Bool.not_eq_true'] at hpassed
  rw [sites_ofNode, Option.isNone_iff_eq_none.1 hsite, hpassed]

/-- A site lies within a node that a pass visits, or apart from it. -/
theorem mem_or_apart_of_visited {nodes : List Node} (h : Node.AllInPlace text nodes)
    (hfound : found ∈ visitedOf text excluded nodes)
    (hsite : site ∈ (ofNodes text excluded nodes).sites) :
    site ∈ (ofNode text excluded found).sites ∧ site.span.Within found.span ∨
      site.span.Apart found.span := by
  match nodes with
  | [] => cases hsite
  | .mk kind span parts :: rest =>
    rw [sites_ofNodes_cons] at hsite
    have hfirst : found ∈ visited text excluded (.mk kind span parts) → found.span.Within span := by
      intro hvisited
      obtain ⟨node, hnode, hwithin⟩ :=
        exists_within_of_mem_visitedOf h.head (List.mem_append_left _ hvisited)
      rw [List.mem_singleton.1 hnode] at hwithin
      exact hwithin
    rw [visitedOf] at hfound
    rcases List.mem_append.1 hfound with hvisited | hvisited
    · rcases List.mem_append.1 hsite with hown | hother
      · rw [visited] at hvisited
        rcases List.mem_cons.1 hvisited with rfl | hbelow
        · exact .inl ⟨hown, (covers_of_mem_ofNode h hown).2⟩
        · split at hbelow
          · next hsearched =>
            have hparts : Node.AllInPlace text parts := h.parts
            rw [sites_of_isSearched hsearched] at hown
            exact mem_or_apart_of_visited hparts hbelow hown
          · cases hbelow
      · obtain ⟨-, other, hmem, hwithin⟩ := covers_of_mem_ofNodes h.tail hother
        have hnodes := (List.pairwise_cons.1 h.apart).1 other hmem
        exact .inr (hnodes.within (hfirst hvisited) hwithin).symm
    · rcases List.mem_append.1 hsite with hown | hother
      · obtain ⟨other, hmem, hwithin⟩ := exists_within_of_mem_visitedOf h.tail hvisited
        exact .inr (apart_of_mem_ofNode h hown hmem hwithin)
      · exact mem_or_apart_of_visited h.tail hvisited hother

/-- An offset between two characters that is not inside of a site. -/
structure IsGap (text : List Char) (sites : List Site) (offset : Nat) : Prop where
  boundary : Text.IsBoundary text offset
  uncut : ∀ site ∈ sites, offset ≤ site.start ∨ site.stop ≤ offset

theorem isGap_zero (text : List Char) (sites : List Site) : IsGap text sites 0 :=
  ⟨Text.isBoundary_zero text, fun site _ ↦ .inl (Nat.zero_le site.start)⟩

variable (h : Node.AllInPlace text nodes) (hfound : found ∈ visitedOf text excluded nodes)

include h hfound

theorem inPlace_of_visited : found.InPlace text :=
  h.each found (visitedOf_subset text excluded nodes hfound)

/-- No site reaches over the start of a visited node. -/
theorem isGap_start : IsGap text (ofNodes text excluded nodes).sites found.start where
  boundary := (inPlace_of_visited h hfound).fits.start
  uncut site hsite := by
    have hordered := (inPlace_of_visited h hfound).fits.ordered
    change found.span.start ≤ site.span.start ∨ site.span.stop ≤ found.span.start
    rcases mem_or_apart_of_visited h hfound hsite with ⟨-, hwithin⟩ | hbefore | hbehind
    · exact .inl hwithin.1
    · exact .inr hbefore
    · exact .inl (Nat.le_trans hordered hbehind)

/-- No site reaches over the stop of a visited node. -/
theorem isGap_stop : IsGap text (ofNodes text excluded nodes).sites found.stop where
  boundary := (inPlace_of_visited h hfound).fits.stop
  uncut site hsite := by
    have hordered := (inPlace_of_visited h hfound).fits.ordered
    change found.span.stop ≤ site.span.start ∨ site.span.stop ≤ found.span.stop
    rcases mem_or_apart_of_visited h hfound hsite with ⟨-, hwithin⟩ | hbefore | hbehind
    · exact .inr hwithin.2
    · exact .inr (Nat.le_trans hbefore hordered)
    · exact .inl hbehind

/-- No site reaches over the brace that a visited block without statements begins with. -/
theorem isGap_open (hkind : found.kind = .block) (hempty : found.parts = []) :
    IsGap text (ofNodes text excluded nodes).sites (found.start + 1) := by
  obtain ⟨kind, span, parts⟩ := found
  cases hkind
  cases hempty
  have hinPlace := inPlace_of_visited h hfound
  have hfits : span.Fits text := hinPlace.fits
  obtain ⟨before, raw, after, rfl, hstart, hstop⟩ :=
    Text.exists_enclosed hfits.start hfits.stop hfits.ordered
  have hbrace : (Text.slice span.start span.stop (before ++ (raw ++ after))).head? = some '\x7b' :=
    beq_iff_eq.1 hinPlace.written
  rw [Text.slice, hstop, ← hstart, Text.slice?_size, Option.getD_some] at hbrace
  obtain ⟨rest, rfl⟩ := List.head?_eq_some_iff.1 hbrace
  have hsize : Text.size ('\x7b' :: rest) = 1 + Text.size rest := rfl
  refine ⟨⟨before ++ ['\x7b'], rest ++ after, List.append_assoc .., ?_⟩, fun site hsite ↦ ?_⟩
  · rw [Text.size_append, hstart]
    rfl
  · change span.start + 1 ≤ site.span.start ∨ site.span.stop ≤ span.start + 1
    rcases mem_or_apart_of_visited h hfound hsite with ⟨hmem, -⟩ | hbefore | hbehind
    · cases hmem
    · exact .inr (Nat.le_succ_of_le hbefore)
    · have hbehind : span.stop ≤ site.span.start := hbehind
      omega

end Collection

end Phrasebook
