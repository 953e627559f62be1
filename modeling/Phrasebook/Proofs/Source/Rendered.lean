import Mathlib.Data.List.TakeWhile
import Phrasebook.Proofs.Source.Sites
import Phrasebook.Source.Conversion

/-!
# Trees whose sites were replaced

A converted source should read back as the tree that it had, with a lookup in the place of each
site. `Rendered` says what that means, node by node, without any regard to offsets. A tree like
this has no sites: a lookup is passed over, the blanks that are left around it hold no letter, and
a node that no rule accepted is accepted by none after a part of it became a lookup.
-/

namespace Phrasebook.Collection

open Syntax

variable {text other : List Char} {excluded : List String}

/-- A call of the lookup function. -/
inductive IsLookupCall : Node → Prop where
  | intro {span : Span} {parts : List Node} (h : isLookup parts = true) :
    IsLookupCall (.mk .call span parts)

/-- Text between tags that holds nothing but blanks. -/
inductive IsBlankText : Node → Prop where
  | intro {value : String} {span : Span} {parts : List Node} (h : Text.isBlankText value = true) :
    IsBlankText (.mk (.text value) span parts)

/-- The statement that binds the lookup function to the result of the hook. -/
inductive IsHookBinding : Node → Prop where
  | intro {statement declarator target value callee : Span} :
    IsHookBinding (.mk .other statement [.mk .declarator declarator
      [.mk (.name lookupName) target [],
        .mk .call value [.mk (.name hookName) callee []]]])

/-- A name that is imported under no other name. -/
inductive IsImportedName (name : String) : Node → Prop where
  | intro {span : Span} : IsImportedName name (.mk (.importNamed name name false) span [])

/-- The import of a single name. -/
inductive IsImport (source name : String) : Node → Prop where
  | intro {span : Span} {binding : Node} (h : IsImportedName name binding) :
    IsImport source name (.mk (.importing source false) span [binding])

/-- The parts of a node with what makes the lookup function available added to them. -/
inductive Widened : Kind → List Node → List Node → Prop where
  | same {kind : Kind} {parts : List Node} : Widened kind parts parts
  | hook {binding : Node} {parts : List Node} (h : IsHookBinding binding) :
    Widened .block parts (binding :: parts)
  | name {source name : String} {typeOnly : Bool} {binding : Node} {parts : List Node}
      (h : IsImportedName name binding) :
    Widened (.importing source typeOnly) parts (parts ++ [binding])

mutual

/-- A node reads as another one in which every site became a lookup. -/
inductive Rendered (text : List Char) (excluded : List String) : Node → Node → Prop where
  | conditional {span : Span} {parts : List Node} {call : Node}
      (hsite : (siteOf? text excluded (.mk .conditional span parts)).isSome)
      (hcall : IsLookupCall call) :
    Rendered text excluded (.mk .conditional span parts) call
  | container {span now : Span} {parts : List Node} {inner : Node}
      (hsite : (siteOf? text excluded (.mk .container span parts)).isSome)
      (hcall : IsLookupCall inner.withoutParens) :
    Rendered text excluded (.mk .container span parts) (.mk .container now [inner])
  | quoted {name : String} {span now inner : Span} {parts : List Node} {call : Node}
      (hsite : (siteOf? text excluded (.mk (.attribute name) span parts)).isSome)
      (hcall : IsLookupCall call) :
    Rendered text excluded (.mk (.attribute name) span parts)
      (.mk (.attribute name) now [.mk .container inner [call]])
  /-- What is passed over stays as it is. -/
  | passed {kind : Kind} {span now : Span} {parts rest : List Node}
      (hsite : siteOf? text excluded (.mk kind span parts) = none)
      (hpassed : isPassedOver excluded (.mk kind span parts) = true)
      (hkinds : rest.map Node.kind = parts.map Node.kind) :
    Rendered text excluded (.mk kind span parts) (.mk kind now rest)
  | kept {kind : Kind} {span now : Span} {parts inner rest : List Node}
      (hsite : siteOf? text excluded (.mk kind span parts) = none)
      (hpassed : isPassedOver excluded (.mk kind span parts) = false)
      (hparts : RenderedAll text excluded parts inner) (hwidened : Widened kind inner rest) :
    Rendered text excluded (.mk kind span parts) (.mk kind now rest)

/-- Nodes in a row read as others in which every site became a lookup. The blanks at the edges of
text between tags are left, before and after the lookup. -/
inductive RenderedAll (text : List Char) (excluded : List String) :
    List Node → List Node → Prop where
  | nil : RenderedAll text excluded [] []
  | cons {node now : Node} {rest others : List Node} (hnode : Rendered text excluded node now)
      (hrest : RenderedAll text excluded rest others) :
    RenderedAll text excluded (node :: rest) (now :: others)
  | text {value : String} {span now : Span} {parts rest before after others : List Node}
      {call : Node} (hsite : (siteOf? text excluded (.mk (.text value) span parts)).isSome)
      (hbefore : ∀ node ∈ before, IsBlankText node) (hafter : ∀ node ∈ after, IsBlankText node)
      (hcall : IsLookupCall call) (hrest : RenderedAll text excluded rest others) :
    RenderedAll text excluded (.mk (.text value) span parts :: rest)
      (before ++ .mk .container now [call] :: (after ++ others))

end

/-- The items of a module, with an import among them where one was added. -/
inductive RenderedItems (text : List Char) (excluded : List String) :
    List Node → List Node → Prop where
  | same {items rest : List Node} (h : RenderedAll text excluded items rest) :
    RenderedItems text excluded items rest
  | imported {items before after : List Node} {source name : String} {added : Node}
      (hadded : IsImport source name added) (h : RenderedAll text excluded items (before ++ after)) :
    RenderedItems text excluded items (before ++ added :: after)

theorem sites_ofNodes_cons (node : Node) (rest : List Node) :
    (ofNodes text excluded (node :: rest)).sites =
      (ofNode text excluded node).sites ++ (ofNodes text excluded rest).sites := by
  rw [ofNodes, sites_append]

theorem sites_ofNodes_append (first second : List Node) :
    (ofNodes text excluded (first ++ second)).sites =
      (ofNodes text excluded first).sites ++ (ofNodes text excluded second).sites := by
  induction first with
  | nil => rfl
  | cons node rest ih =>
    rw [List.cons_append, sites_ofNodes_cons, sites_ofNodes_cons, ih, List.append_assoc]

theorem IsLookupCall.sites {node : Node} (h : IsLookupCall node) :
    (ofNode text excluded node).sites = [] := by
  obtain ⟨hlookup⟩ := h
  rw [sites_ofNode]
  simp only [siteOf?, isPassedOver, hlookup]

theorem IsHookBinding.sites {node : Node} (h : IsHookBinding node) :
    (ofNode text excluded node).sites = [] := by
  obtain ⟨⟩ := h
  rfl

theorem IsImportedName.sites {name : String} {node : Node} (h : IsImportedName name node) :
    (ofNode text excluded node).sites = [] := by
  obtain ⟨⟩ := h
  rfl

theorem IsImport.sites {source name : String} {node : Node} (h : IsImport source name node) :
    (ofNode text excluded node).sites = [] := by
  obtain ⟨hbinding⟩ := h
  rw [sites_ofNode]
  simp only [siteOf?, isPassedOver, Node.parts, sites_ofNodes_cons, hbinding.sites]
  rfl

theorem mem_of_mem_lines {characters line : List Char} (h : line ∈ Text.lines characters) :
    ∀ c ∈ line, c ∈ characters := by
  induction characters generalizing line with
  | nil => cases h
  | cons first rest ih =>
    intro c hc
    unfold Text.lines at h
    split at h
    · rcases List.mem_cons.1 h with rfl | hline
      · cases hc
      · exact List.mem_cons_of_mem _ (ih hline c hc)
    · split at h
      · have hline := List.mem_singleton.1 h
        rw [hline] at hc
        rw [List.mem_singleton.1 hc]
        exact List.mem_cons_self
      · next head others hlines =>
        rw [hlines] at ih
        rcases List.mem_cons.1 h with rfl | hline
        · rcases List.mem_cons.1 hc with rfl | hhead
          · exact List.mem_cons_self
          · exact List.mem_cons_of_mem _ (ih List.mem_cons_self c hhead)
        · exact List.mem_cons_of_mem _ (ih (List.mem_cons_of_mem _ hline) c hc)

theorem trimChars_eq_nil {characters : List Char} (h : ∀ c ∈ characters, Text.isBlank c = true) :
    Text.trimChars characters = [] := by
  have hstart : Text.trimStartChars characters = [] := List.dropWhile_eq_nil_iff.2 h
  rw [Text.trimChars, hstart]
  rfl

/-- The rule for texts accepts no blank one. -/
theorem matchText_eq_none_of_isBlankText {value : String} (h : Text.isBlankText value = true) :
    Rule.matchText value = none := by
  have hblank : ∀ c ∈ value.toList, Text.isBlank c = true := List.all_eq_true.1 h
  have hlines : ∀ line ∈ (Text.lines value.toList).map Text.trimChars, line = [] := by
    intro line hline
    obtain ⟨whole, hwhole, rfl⟩ := List.mem_map.1 hline
    exact trimChars_eq_nil fun c hc ↦ hblank c (mem_of_mem_lines hwhole c hc)
  have hkept : ((Text.lines value.toList).map Text.trimChars).filter (fun line ↦ !line.isEmpty) =
      [] := by
    apply List.filter_eq_nil_iff.2
    intro line hline
    rw [hlines line hline]
    simp
  have hstored : Text.normalizeMarkupText value = "" := by
    rw [Text.normalizeMarkupText, Text.normalizeMarkupChars, hkept]
    rfl
  rw [Rule.matchText, hstored]
  rfl

theorem IsBlankText.sites {node : Node} (h : IsBlankText node) :
    (ofNode text excluded node).sites = [] := by
  obtain ⟨hblank⟩ := h
  rw [sites_ofNode]
  simp only [siteOf?, textSite?, Rule.evaluate, matchText_eq_none_of_isBlankText hblank,
    Option.map_none, isPassedOver]

theorem sites_of_blanks {nodes : List Node} (h : ∀ node ∈ nodes, IsBlankText node) :
    (ofNodes text excluded nodes).sites = [] := by
  induction nodes with
  | nil => rfl
  | cons node rest ih =>
    have hnode := h node List.mem_cons_self
    have hrest := ih fun later hlater ↦ h later (List.mem_cons_of_mem _ hlater)
    rw [sites_ofNodes_cons, hnode.sites, hrest, List.append_nil]

/-! ## Reading a rendered tree backwards -/

/-- The kinds of nodes that stand for nodes of the same kind, with the same parts rendered. -/
def IsKept : Kind → Prop
  | .call | .container | .attribute _ | .text _ | .block | .importing _ _ => False
  | _ => True

theorem isKept_of_withoutParens {node : Node} (h : IsKept node.withoutParens.kind) :
    IsKept node.kind := by
  obtain ⟨kind, span, parts⟩ := node
  cases kind with
  | paren => trivial
  | _ => exact h

/-- A node of a kind that is kept stands for one of the same kind. -/
theorem Rendered.of_isKept {node : Node} {kind : Kind} {span : Span} {parts : List Node}
    (h : Rendered text excluded node (.mk kind span parts)) (hkind : IsKept kind) :
    ∃ old oldParts, node = .mk kind old oldParts ∧ RenderedAll text excluded oldParts parts := by
  cases h with
  | conditional _ hcall =>
    obtain ⟨_⟩ := hcall
    exact absurd hkind id
  | container => exact absurd hkind id
  | quoted => exact absurd hkind id
  | passed _ hpassed =>
    cases kind with
    | text | «attribute» | call => exact absurd hkind id
    | _ => cases hpassed
  | kept _ _ hparts hwidened =>
    cases hwidened with
    | same => exact ⟨_, _, rfl, hparts⟩
    | hook | name => exact absurd hkind id

theorem RenderedAll.of_nil {nodes : List Node} (h : RenderedAll text excluded nodes []) :
    nodes = [] := by
  generalize hrow : [] = row at h
  cases h with
  | nil => rfl
  | cons => cases hrow
  | text => simp at hrow

/-- The first of rendered nodes, when its kind is kept, stands for the first node before. -/
theorem RenderedAll.of_cons {nodes rest : List Node} {first : Node}
    (h : RenderedAll text excluded nodes (first :: rest)) (hkind : IsKept first.kind) :
    ∃ node others, nodes = node :: others ∧ Rendered text excluded node first ∧
      RenderedAll text excluded others rest := by
  generalize hrow : first :: rest = row at h
  cases h with
  | nil => cases hrow
  | cons hnode hrest =>
    cases hrow
    exact ⟨_, _, rfl, hnode, hrest⟩
  | @text _ _ _ _ _ before _ _ _ _ hbefore =>
    cases before with
    | nil =>
      cases hrow
      exact absurd hkind id
    | cons blank _ =>
      cases hrow
      obtain ⟨_⟩ := hbefore first List.mem_cons_self
      exact absurd hkind id

theorem RenderedAll.of_singleton {nodes : List Node} {now : Node}
    (h : RenderedAll text excluded nodes [now]) : ∃ node, nodes = [node] := by
  generalize hrow : [now] = row at h
  cases h with
  | nil => cases hrow
  | cons _ hrest =>
    cases hrow
    rw [hrest.of_nil]
    exact ⟨_, rfl⟩
  | @text _ _ _ _ _ before after others _ _ _ _ _ hrest =>
    have hlength := congrArg List.length hrow
    simp only [List.length_append, List.length_cons, List.length_nil] at hlength
    have hothers : others = [] := List.length_eq_zero_iff.1 (by omega)
    rw [hothers] at hrest
    rw [hrest.of_nil]
    exact ⟨_, rfl⟩

theorem Rendered.kind_eq {node now : Node} (h : Rendered text excluded node now)
    (hkind : IsKept now.kind) : node.kind = now.kind := by
  obtain ⟨kind, span, parts⟩ := now
  obtain ⟨old, oldParts, rfl, -⟩ := h.of_isKept hkind
  rfl

theorem withoutParens_eq_self {node : Node} (h : node.kind ≠ .paren) :
    node.withoutParens = node := by
  rw [Node.withoutParens]
  rintro span inner rfl
  exact h rfl

/-- Parentheses may be left out on both sides, unless they are what is looked at. -/
theorem Rendered.withoutParens {node now : Node} (h : Rendered text excluded node now)
    (hkind : IsKept now.withoutParens.kind) (hparen : now.withoutParens.kind ≠ .paren) :
    Rendered text excluded node.withoutParens now.withoutParens := by
  induction now using Node.withoutParens.induct generalizing node with
  | case1 span inner ih =>
    rw [Node.withoutParens] at hkind hparen ⊢
    obtain ⟨old, oldParts, rfl, hparts⟩ := h.of_isKept trivial
    obtain ⟨first, rest, rfl, hfirst, hrest⟩ := hparts.of_cons (isKept_of_withoutParens hkind)
    rw [hrest.of_nil, Node.withoutParens]
    exact ih hfirst hkind hparen
  | case2 now hplain =>
    have hnow : now.withoutParens = now := by
      rw [Node.withoutParens]
      exact hplain
    rw [hnow] at hkind hparen ⊢
    have hnode : node.kind ≠ .paren := by
      rw [h.kind_eq hkind]
      exact hparen
    rw [withoutParens_eq_self hnode]
    exact h

/-! ## No rule accepts what none accepted before -/

/-- Whether the rule for conditionals accepts one depends on the comparison and the shapes of its
sides alone. -/
theorem isSome_matchConditional {first second : EqualityTest}
    (hcomparison : first.comparison = second.comparison) (hshape : first.shape = second.shape)
    (yes no : Option String) :
    (Rule.matchConditional (some first) yes no).isSome =
      (Rule.matchConditional (some second) yes no).isSome := by
  cases yes with
  | none => rfl
  | some one =>
    cases no with
    | none => rfl
    | some many =>
      simp only [Rule.matchConditional, hcomparison, hshape]
      split <;> rfl

theorem isSome_templateText?_append (first second : List TemplatePart)
    (h : (Rule.templateText? (first ++ second)).isSome) :
    (Rule.templateText? second).isSome := by
  induction first with
  | nil => exact h
  | cons part rest ih =>
    apply ih
    cases part with
    | literal | identifier => simpa [Rule.templateText?] using h
    | other => cases h

/-- The interpolations of a template literal that could be a text stay what they are. -/
theorem templateParts?_of_rendered {chunks : List (Option String)} {holes now : List Node}
    {parts : List TemplatePart} (h : RenderedAll text excluded holes now)
    (hparts : templateParts? chunks now = some parts)
    (htext : (Rule.templateText? parts).isSome) : templateParts? chunks holes = some parts := by
  induction chunks generalizing holes now parts with
  | nil => exact hparts
  | cons chunk chunks ih =>
    cases chunk with
    | none => cases hparts
    | some chunk =>
      cases now with
      | nil =>
        rw [h.of_nil]
        exact hparts
      | cons hole others =>
        obtain ⟨later, hlater, rfl⟩ := Option.map_eq_some_iff.1 hparts
        have hrest := isSome_templateText?_append _ _ htext
        cases hname : hole.withoutParens.kind with
        | name name =>
          have hkept : IsKept hole.withoutParens.kind := by
            rw [hname]
            trivial
          obtain ⟨first, rest, rfl, hfirst, hothers⟩ := h.of_cons (isKept_of_withoutParens hkept)
          have hkind := (hfirst.withoutParens hkept (by simp [hname])).kind_eq hkept
          rw [hname] at hrest
          have hinner := ih hothers hlater (by simpa [Rule.templateText?] using hrest)
          simp only [templateParts?, hkind, hname, hinner, Option.map_some]
        | _ =>
          rw [hname] at hrest
          cases hrest

/-- A branch that is a string was the same string before. -/
theorem branchText?_of_rendered {node now : Node} {value : String}
    (h : Rendered text excluded node now) (hvalue : branchText? now = some value) :
    branchText? node = some value := by
  unfold branchText? at hvalue ⊢
  split at hvalue
  · next found hkind =>
    have hkept : IsKept now.withoutParens.kind := by
      rw [hkind]
      trivial
    rw [(h.withoutParens hkept (by simp [hkind])).kind_eq hkept, hkind]
    exact hvalue
  · cases hvalue

theorem isKept_of_shapeOf {node : Node} (h : shapeOf node ≠ .other) : IsKept node.kind := by
  unfold shapeOf at h
  split at h
  · next hkind =>
    rw [hkind]
    trivial
  · next hkind =>
    rw [hkind]
    trivial
  · next hkind =>
    rw [hkind]
    trivial
  · exact absurd rfl h

/-- A comparison in a rendered conditional was the same comparison before. -/
theorem equalityTest?_of_rendered {node now : Node} {test : EqualityTest}
    (h : Rendered text excluded node now) (htest : equalityTest? other now = some test)
    (hshape : test.shape ≠ .other) :
    ∃ old, equalityTest? text node = some old ∧ old.comparison = test.comparison ∧
      old.shape = test.shape := by
  unfold equalityTest? at htest
  split at htest
  · next symbol span left right hnow =>
    cases htest
    have hrendered := h.withoutParens (by rw [hnow]; trivial) (by rw [hnow]; exact Kind.noConfusion)
    rw [hnow] at hrendered
    obtain ⟨oldSpan, oldParts, hnode, hparts⟩ := hrendered.of_isKept trivial
    obtain ⟨first, rest, rfl, hfirst, hrest⟩ := hparts.of_cons (isKept_of_shapeOf hshape)
    obtain ⟨second, rfl⟩ := hrest.of_singleton
    have hfirstShape : shapeOf first = shapeOf left := by
      unfold shapeOf
      rw [hfirst.kind_eq (isKept_of_shapeOf hshape)]
    unfold equalityTest?
    rw [hnode]
    exact ⟨_, rfl, rfl, hfirstShape⟩
  · cases htest

/-- A template literal that a rule accepts was accepted before as well. -/
theorem isSome_templateSite?_of_rendered {parts now : List Node}
    (h : RenderedAll text excluded parts now) (hsite : (templateSite? excluded now).isSome) :
    (templateSite? excluded parts).isSome := by
  unfold templateSite? at hsite
  split at hsite
  · next inner =>
    split at hsite
    · next chunks span holes hinner =>
      cases hfound : templateParts? chunks holes with
      | none => simp [hfound] at hsite
      | some found =>
        have hmatch : (Rule.evaluate excluded (.template found)).isSome := by
          simpa [hfound] using hsite
        have htext : (Rule.templateText? found).isSome := by
          cases htemplate : Rule.templateText? found with
          | none => simp [Rule.evaluate, Rule.matchTemplate, htemplate] at hmatch
          | some template => rfl
        have hkept : IsKept inner.withoutParens.kind := by
          rw [hinner]
          trivial
        obtain ⟨first, rest, rfl, hfirst, hrest⟩ := h.of_cons (isKept_of_withoutParens hkept)
        have hrendered := hfirst.withoutParens hkept (by rw [hinner]; exact Kind.noConfusion)
        rw [hinner] at hrendered
        obtain ⟨old, oldHoles, hold, hholes⟩ := hrendered.of_isKept trivial
        have hparts := templateParts?_of_rendered hholes hfound htext
        rw [hrest.of_nil, templateSite?, hold]
        simpa [hparts] using hmatch
    · cases hsite
  · cases hsite

theorem isKept_of_branchText? {node : Node} {value : String} (h : branchText? node = some value) :
    IsKept node.kind := by
  unfold branchText? at h
  split at h
  · next hkind =>
    apply isKept_of_withoutParens
    rw [hkind]
    trivial
  · cases h

theorem isKept_of_equalityTest? {node : Node} {test : EqualityTest}
    (h : equalityTest? text node = some test) : IsKept node.kind := by
  unfold equalityTest? at h
  split at h
  · next hnode =>
    apply isKept_of_withoutParens
    rw [hnode]
    trivial
  · cases h

/-- What a conditional that is accepted has: a test of a shape, and two branches. -/
theorem of_isSome_matchConditional {test : Option EqualityTest} {yes no : Option String}
    (h : (Rule.matchConditional test yes no).isSome) :
    ∃ found one many, test = some found ∧ yes = some one ∧ no = some many ∧
      found.shape ≠ .other := by
  unfold Rule.matchConditional at h
  split at h
  · next found one many =>
    refine ⟨found, one, many, rfl, rfl, rfl, fun hshape ↦ ?_⟩
    simp [hshape] at h
  · cases h

/-- A conditional that a rule accepts was accepted before as well. -/
theorem isSome_conditionalSite?_of_rendered {parts now : List Node} {span nowSpan : Span}
    (h : RenderedAll text excluded parts now)
    (hsite : (conditionalSite? other excluded nowSpan now).isSome) :
    (conditionalSite? text excluded span parts).isSome := by
  unfold conditionalSite? at hsite
  split at hsite
  · next test yes no =>
    have hmatch : (Rule.matchConditional (equalityTest? other test) (branchText? yes)
        (branchText? no)).isSome := by
      simpa [Rule.evaluate] using hsite
    obtain ⟨found, one, many, htest, hyes, hno, hshape⟩ := of_isSome_matchConditional hmatch
    obtain ⟨oldTest, rest, rfl, holdTest, hrest⟩ := h.of_cons (isKept_of_equalityTest? htest)
    obtain ⟨oldYes, rest, rfl, holdYes, hrest⟩ := hrest.of_cons (isKept_of_branchText? hyes)
    obtain ⟨oldNo, rest, rfl, holdNo, hrest⟩ := hrest.of_cons (isKept_of_branchText? hno)
    obtain ⟨old, hold, hcomparison, holdShape⟩ :=
      equalityTest?_of_rendered holdTest htest hshape
    rw [htest, hyes, hno, ← isSome_matchConditional hcomparison holdShape] at hmatch
    rw [hrest.of_nil, conditionalSite?, hold, branchText?_of_rendered holdYes hyes,
      branchText?_of_rendered holdNo hno]
    simpa [Rule.evaluate] using hmatch
  · cases hsite

theorem isQuoted_of_rendered {parts now : List Node} (h : RenderedAll text excluded parts now)
    (hquoted : isQuoted now = true) : isQuoted parts = true := by
  unfold isQuoted at hquoted
  split at hquoted
  · obtain ⟨first, rest, rfl, hfirst, hrest⟩ := h.of_cons trivial
    obtain ⟨old, oldParts, rfl, -⟩ := hfirst.of_isKept trivial
    rw [hrest.of_nil]
    rfl
  · cases hquoted

/-- A node that is searched further is no site, and no site after its parts were rendered. -/
theorem siteOf?_of_kept {kind : Kind} {span nowSpan : Span} {parts now : List Node}
    (hsite : siteOf? text excluded (.mk kind span parts) = none)
    (hpassed : isPassedOver excluded (.mk kind span parts) = false)
    (h : RenderedAll text excluded parts now) :
    siteOf? other excluded (.mk kind nowSpan now) = none := by
  cases kind with
  | text => cases hpassed
  | «attribute» name =>
    have hplain := (Bool.or_eq_false_iff.1 hpassed).2
    have hnow : isQuoted now = false := by
      rw [← Bool.not_eq_true]
      intro hquoted
      rw [isQuoted_of_rendered h hquoted] at hplain
      cases hplain
    exact quotedSite?_eq_none hnow
  | container =>
    rw [← Option.not_isSome_iff_eq_none] at hsite ⊢
    intro hnow
    apply hsite
    exact isSome_templateSite?_of_rendered h hnow
  | conditional =>
    rw [← Option.not_isSome_iff_eq_none] at hsite ⊢
    intro hnow
    apply hsite
    exact isSome_conditionalSite?_of_rendered h hnow
  | _ => rfl

theorem siteOf?_of_widened {kind : Kind} {span : Span} {inner rest : List Node}
    (h : Widened kind inner rest) :
    siteOf? other excluded (.mk kind span rest) = siteOf? other excluded (.mk kind span inner) := by
  cases h <;> rfl

/-! ## No site is left -/

theorem isLookup_of_kinds {parts rest : List Node} (h : rest.map Node.kind = parts.map Node.kind) :
    isLookup rest = isLookup parts := by
  cases parts with
  | nil =>
    rw [List.map_eq_nil_iff.1 h]
  | cons callee others =>
    obtain ⟨first, later, rfl, hfirst, -⟩ := List.map_eq_cons_iff.1 h
    simp only [isLookup, Node.isNamed, hfirst]

theorem exists_of_isQuoted {parts : List Node} (h : isQuoted parts = true) :
    ∃ value span rest, parts = [.mk (.string (some value)) span rest] := by
  unfold isQuoted at h
  split at h
  · exact ⟨_, _, _, rfl⟩
  · cases h

theorem of_map_kind_singleton {kind : Kind} {nodes : List Node} (h : nodes.map Node.kind = [kind]) :
    ∃ span parts, nodes = [.mk kind span parts] := by
  obtain ⟨first, rfl, hfirst⟩ := List.map_eq_singleton_iff.1 h
  obtain ⟨kind, span, parts⟩ := first
  cases hfirst
  exact ⟨span, parts, rfl⟩

/-- What is passed over is no site, and is passed over again. -/
theorem sites_of_passed {kind : Kind} {span nowSpan : Span} {parts rest : List Node}
    (hsite : siteOf? text excluded (.mk kind span parts) = none)
    (hpassed : isPassedOver excluded (.mk kind span parts) = true)
    (hkinds : rest.map Node.kind = parts.map Node.kind) :
    (ofNode other excluded (.mk kind nowSpan rest)).sites = [] := by
  rw [sites_ofNode]
  cases kind with
  | text value =>
    have hrule : Rule.evaluate excluded (.text value) = none := by
      rw [siteOf?, textSite?] at hsite
      exact Option.map_eq_none_iff.1 hsite
    simp only [siteOf?, textSite?, hrule, Option.map_none, isPassedOver]
  | «attribute» name =>
    simp only [siteOf?, isPassedOver]
    rcases Bool.or_eq_true_iff.1 hpassed with hexcluded | hquoted
    · rw [quotedSite?_of_excluded hexcluded, hexcluded]
      rfl
    · obtain ⟨value, span, inner, rfl⟩ := exists_of_isQuoted hquoted
      have hkind : rest.map Node.kind = [.string (some value)] := hkinds
      obtain ⟨now, others, rfl⟩ := of_map_kind_singleton hkind
      have hrule : Rule.evaluate excluded (.attribute name value) = none := by
        rw [siteOf?, quotedSite?] at hsite
        exact Option.map_eq_none_iff.1 hsite
      simp only [quotedSite?, hrule, Option.map_none, isQuoted, Bool.or_true]
  | call =>
    simp only [siteOf?, isPassedOver]
    rw [isLookup_of_kinds hkinds, show isLookup parts = true from hpassed]
  | _ => cases hpassed

theorem sites_of_widened {kind : Kind} {inner rest : List Node} (h : Widened kind inner rest)
    (hinner : (ofNodes text excluded inner).sites = []) :
    (ofNodes text excluded rest).sites = [] := by
  cases h with
  | same => exact hinner
  | hook hbinding => rw [sites_ofNodes_cons, hbinding.sites, hinner, List.append_nil]
  | name hbinding =>
    rw [sites_ofNodes_append, hinner, sites_ofNodes_cons, hbinding.sites]
    rfl

theorem sites_withoutParens (node : Node) :
    (ofNode text excluded node.withoutParens).sites = (ofNode text excluded node).sites := by
  induction node using Node.withoutParens.induct with
  | case1 span inner ih =>
    rw [Node.withoutParens, ih, sites_ofNode _ _ (.mk .paren span [inner])]
    simp only [siteOf?, isPassedOver, Node.parts, sites_ofNodes_cons]
    exact (List.append_nil _).symm
  | case2 node hplain =>
    rw [Node.withoutParens]
    exact hplain

/-- There is no site in a container that holds a lookup. -/
theorem sites_of_container {span : Span} {inner : Node} (h : IsLookupCall inner.withoutParens) :
    (ofNode text excluded (.mk .container span [inner])).sites = [] := by
  have hinner : (ofNode text excluded inner).sites = [] := by
    rw [← sites_withoutParens]
    exact h.sites
  have hsite : templateSite? excluded [inner] = none := by
    simp only [templateSite?]
    split
    · next hinner =>
      rw [hinner] at h
      cases h
    · rfl
  rw [sites_ofNode]
  simp only [siteOf?, hsite, isPassedOver, Node.parts, sites_ofNodes_cons, hinner]
  rfl

theorem IsLookupCall.withoutParens {node : Node} (h : IsLookupCall node) :
    IsLookupCall node.withoutParens := by
  obtain ⟨hlookup⟩ := h
  rw [withoutParens_eq_self (by exact Kind.noConfusion)]
  exact ⟨hlookup⟩

mutual

/-- A tree whose sites were replaced has no sites. -/
theorem Rendered.sites_eq_nil {node now : Node} (h : Rendered text excluded node now) :
    (ofNode other excluded now).sites = [] := by
  cases h with
  | conditional _ hcall => exact hcall.sites
  | container _ hcall => exact sites_of_container hcall
  | quoted _ hcall =>
    rw [sites_ofNode]
    split
    · next hnone => cases hnone
    · rfl
    · rw [Node.parts, sites_ofNodes_cons, sites_of_container hcall.withoutParens]
      rfl
  | passed hsite hpassed hkinds => exact sites_of_passed hsite hpassed hkinds
  | kept hsite hpassed hparts hwidened =>
    have hrest := sites_of_widened hwidened hparts.sites_eq_nil
    rw [sites_ofNode, siteOf?_of_widened hwidened, siteOf?_of_kept hsite hpassed hparts]
    split
    · next hnone => cases hnone
    · rfl
    · exact hrest

/-- Nodes in which every site became a lookup have no site. -/
theorem RenderedAll.sites_eq_nil {nodes now : List Node}
    (h : RenderedAll text excluded nodes now) : (ofNodes other excluded now).sites = [] := by
  cases h with
  | nil => rfl
  | cons hnode hrest =>
    rw [sites_ofNodes_cons, hnode.sites_eq_nil, hrest.sites_eq_nil, List.append_nil]
  | text _ hbefore hafter hcall hrest =>
    rw [sites_ofNodes_append, sites_of_blanks hbefore, sites_ofNodes_cons,
      sites_of_container hcall.withoutParens, sites_ofNodes_append, sites_of_blanks hafter,
      hrest.sites_eq_nil]
    rfl

end

/-- A module in which every site became a lookup has no site. -/
theorem RenderedItems.sites_eq_nil {items now : List Node}
    (h : RenderedItems text excluded items now) : (ofNodes other excluded now).sites = [] := by
  cases h with
  | same hitems => exact hitems.sites_eq_nil
  | imported hadded hitems =>
    have hsites : (ofNodes other excluded _).sites = [] := hitems.sites_eq_nil
    rw [sites_ofNodes_append] at hsites
    obtain ⟨hbefore, hafter⟩ := List.append_eq_nil_iff.1 hsites
    rw [sites_ofNodes_append, sites_ofNodes_cons, hadded.sites, hbefore, hafter]
    rfl

end Phrasebook.Collection
