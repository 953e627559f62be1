import Phrasebook.Source.Collect

/-!
# What a pass finds at a node

A pass over a tree treats a node in one of three ways. The node is a site as a whole, or it is
passed over, or it is searched: its parts are visited. Whether a node is a site is a matter of its
kind and of the kinds right below it: neither the source text nor any offset has a say in it. What
else a node holds, a lookup, a body for the hook or a binding of the lookup function, comes before
what its parts hold.
-/

namespace Phrasebook.Collection

open Syntax

variable {text other : List Char} {excluded : List String}

theorem sites_append (first second : Collection) :
    (first ++ second).sites = first.sites ++ second.sites :=
  rfl

theorem references_append (first second : Collection) :
    (first ++ second).references = first.references ++ second.references :=
  rfl

theorem hookSite?_append (first second : Collection) :
    (first ++ second).hookSite? = first.hookSite?.or second.hookSite? :=
  rfl

theorem cutsCharacter_append (first second : Collection) :
    (first ++ second).cutsCharacter = (first.cutsCharacter || second.cutsCharacter) :=
  rfl

theorem append_empty (collection : Collection) : collection ++ {} = collection := by
  obtain ⟨sites, references, hookSite?, bindsHook, cuts⟩ := collection
  change mk (sites ++ []) (references ++ []) (hookSite?.or none) (bindsHook || false)
    (cuts || false) = _
  rw [List.append_nil, List.append_nil, Option.or_none, Bool.or_false, Bool.or_false]

def isQuoted : List Node → Bool
  | [.mk (.string (some _)) _ _] => true
  | _ => false

def quotedSite? (excluded : List String) (name : String) : List Node → Option Site
  | [.mk (.string (some value)) span _] =>
    (Rule.evaluate excluded (.attribute name value)).map fun found ↦
      ⟨span.start, span.stop, .attribute, found⟩
  | _ => none

def siteOf? (text : List Char) (excluded : List String) : Node → Option Site
  | .mk (.text value) span _ => textSite? text excluded span value
  | .mk (.attribute name) _ parts => quotedSite? excluded name parts
  | .mk .container _ parts => templateSite? excluded parts
  | .mk .conditional span parts => conditionalSite? text excluded span parts
  | _ => none

def isPassedOver (excluded : List String) : Node → Bool
  | .mk (.text _) _ _ => true
  | .mk (.attribute name) _ parts => excluded.contains name || isQuoted parts
  | .mk .call _ parts => isLookup parts
  | _ => false

/-- Whether a pass goes on from a node to its parts. -/
def isSearched (text : List Char) (excluded : List String) (node : Node) : Bool :=
  (siteOf? text excluded node).isNone && !isPassedOver excluded node

/-- The key that a node looks up and where it is written: the node is a call of the lookup function
whose first argument is a string. -/
def referenceOf? : Node → Option KeyReference
  | .mk .call _ (callee :: rest) =>
    if callee.isNamed lookupName then
      match Node.argumentsOf (callee :: rest) with
      | .mk (.string (some key)) span _ :: _ => some ⟨key, span.start⟩
      | _ => none
    else none
  | _ => none

/-- The body that a node offers for the hook: that of a declared function, of a method `render`, of
a function that is exported by default, or of an arrow function that a variable is bound to. -/
def offeredBody? : Node → Option Node
  | .mk .functionDeclaration _ parts => bodyOf? parts
  | .mk (.method (some "render")) _ parts => bodyOf? parts
  | .mk .exportDefault _ [.mk .function _ parts] => bodyOf? parts
  | .mk .declarator _ [_, .mk .arrow _ parts] => bodyOf? parts
  | _ => none

def placeIn (body : Node) : HookSite :=
  ⟨body.start + 1, body.parts.head?.map (·.start)⟩

/-- Whether a node binds the lookup function to the result of the hook. -/
def bindsLookup : Node → Bool
  | .mk .declarator _ [target, .mk .call _ (callee :: _)] =>
    target.isNamed lookupName && callee.isNamed hookName
  | _ => false

/-- Whether a text that is looked at for a node is cut: the text between two tags that a rule
accepts, or the left side of a comparison that a conditional tests. -/
def cutsAt (text : List Char) (excluded : List String) : Node → Bool
  | .mk (.text value) span _ => (textSite? text excluded span value).isSome && isCut text span
  | .mk .conditional _ parts => cutsOperand text parts
  | _ => false

/-- What a node holds besides what its parts hold. -/
def own (text : List Char) (excluded : List String) (node : Node) : Collection where
  sites := (siteOf? text excluded node).toList
  references := (referenceOf? node).toList
  hookSite? := (offeredBody? node).map placeIn
  bindsHook := bindsLookup node
  cutsCharacter := cutsAt text excluded node

theorem quotedSite?_of_excluded {name : String} (h : excluded.contains name = true)
    (parts : List Node) : quotedSite? excluded name parts = none := by
  unfold quotedSite?
  split
  · simp only [Rule.evaluate, Rule.matchAttribute, h, Bool.not_true, Bool.false_and,
      Bool.false_eq_true, if_false, Option.map_none]
  · rfl

theorem isQuoted_eq_false {parts : List Node}
    (h : ¬ ∃ value span rest, parts = [.mk (.string (some value)) span rest]) :
    isQuoted parts = false := by
  unfold isQuoted
  split
  · next value span rest => exact absurd ⟨value, span, rest, rfl⟩ h
  · rfl

theorem quotedSite?_eq_none {name : String} {parts : List Node} (h : isQuoted parts = false) :
    quotedSite? excluded name parts = none := by
  unfold quotedSite?
  split
  · cases h
  · rfl

theorem ofQuoted_eq_own (name value : String) (outer inner : Span) (rest : List Node) :
    ofQuoted excluded name value inner =
      own text excluded (.mk (.attribute name) outer [.mk (.string (some value)) inner rest]) := by
  simp only [ofQuoted, own, siteOf?, quotedSite?]
  cases Rule.evaluate excluded (.attribute name value) <;> rfl

theorem ofLookup_eq_own {parts : List Node} (h : isLookup parts = true) (span : Span) :
    ofLookup parts = own text excluded (.mk .call span parts) := by
  cases parts with
  | nil => cases h
  | cons callee rest =>
    have hcallee : callee.isNamed lookupName = true := h
    simp only [ofLookup, own, referenceOf?, hcallee, if_true]
    generalize Node.argumentsOf (callee :: rest) = given
    cases given with
    | nil => rfl
    | cons first others =>
      obtain ⟨kind, inner, parts⟩ := first
      cases kind with
      | string value? => cases value? <;> rfl
      | _ => rfl

theorem referenceOf?_eq_none {parts : List Node} (h : isLookup parts = false) (span : Span) :
    referenceOf? (.mk .call span parts) = none := by
  cases parts with
  | nil => rfl
  | cons callee rest => exact if_neg (Bool.eq_false_iff.1 h)

theorem ofDefault_eq_own (span : Span) (parts : List Node) :
    ofDefault parts = own text excluded (.mk .exportDefault span parts) := by
  match parts with
  | [.mk kind _ _] => cases kind <;> rfl
  | [] => rfl
  | .mk kind _ _ :: _ :: _ => cases kind <;> rfl

theorem ofDeclarator_eq_own (span : Span) (parts : List Node) :
    ofDeclarator parts = own text excluded (.mk .declarator span parts) := by
  match parts with
  | [_, .mk kind _ inner] => cases kind <;> cases inner <;> rfl
  | [] => rfl
  | [_] => rfl
  | _ :: .mk kind _ inner :: _ :: _ => cases kind <;> cases inner <;> rfl

/-- A node holds what it is itself, and then what its parts hold when it is searched. -/
theorem ofNode_eq (text : List Char) (excluded : List String) (node : Node) :
    ofNode text excluded node = own text excluded node ++
      bif isSearched text excluded node then ofNodes text excluded node.parts else {} := by
  obtain ⟨kind, span, parts⟩ := node
  cases kind with
  | text value =>
    simp only [ofNode, own, isSearched, siteOf?, cutsAt]
    cases textSite? text excluded span value with
    | none => rfl
    | some site => exact (append_empty _).symm
  | container =>
    simp only [ofNode, own, isSearched, siteOf?]
    cases templateSite? excluded parts <;> rfl
  | conditional =>
    simp only [ofNode, own, isSearched, siteOf?, cutsAt]
    cases conditionalSite? text excluded span parts <;> cases cutsOperand text parts <;> rfl
  | call =>
    simp only [ofNode, isSearched, siteOf?, isPassedOver, Node.parts]
    cases hlookup : isLookup parts with
    | true => exact (ofLookup_eq_own hlookup span).trans (append_empty _).symm
    | false => simp only [own, referenceOf?_eq_none hlookup span]; rfl
  | exportDefault => rw [ofNode, ofDefault_eq_own span]; rfl
  | declarator => rw [ofNode, ofDeclarator_eq_own span]; rfl
  | functionDeclaration => rfl
  | method name =>
    by_cases hname : name = some "render"
    · subst hname
      rfl
    · have hother : offeredBody? (.mk (.method name) span parts) = none := by
        unfold offeredBody?
        split <;> simp_all
      rw [ofNode, own, hother]
      · rfl
      all_goals simp [hname]
  | «attribute» name =>
    simp only [isSearched, siteOf?, isPassedOver, Node.parts]
    by_cases hquoted : ∃ value inner rest, parts = [.mk (.string (some value)) inner rest]
    · obtain ⟨value, inner, rest, rfl⟩ := hquoted
      rw [ofNode, isQuoted]
      simp only [Bool.or_true, Bool.not_true, Bool.and_false, cond_false, append_empty]
      split
      · next hexcluded => rw [own, siteOf?, quotedSite?_of_excluded hexcluded]; rfl
      · exact ofQuoted_eq_own name value span inner rest
    · have hplain : isQuoted parts = false := isQuoted_eq_false hquoted
      rw [own, siteOf?, quotedSite?_eq_none hplain, hplain, Bool.or_false, ofNode]
      · cases excluded.contains name <;> rfl
      · exact fun value inner rest hparts ↦ hquoted ⟨value, inner, rest, hparts⟩
  | _ => rfl

/-- A node is a site, or passed over, or has the sites of its parts. -/
theorem sites_ofNode (text : List Char) (excluded : List String) (node : Node) :
    (ofNode text excluded node).sites =
      match siteOf? text excluded node, isPassedOver excluded node with
      | some site, _ => [site]
      | none, true => []
      | none, false => (ofNodes text excluded node.parts).sites := by
  rw [ofNode_eq, sites_append, own, isSearched]
  cases siteOf? text excluded node <;> cases isPassedOver excluded node <;> rfl

end Phrasebook.Collection
