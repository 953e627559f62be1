import Phrasebook.Proofs.Source.Literal

/-!
# The lookups that a pass finds

A pass visits a node before its parts, and leaves the parts of some nodes out: those of a site,
which is replaced as a whole, those of an attribute that holds no text for a reader, and the
arguments of a lookup. It finds the lookups among the nodes that it visits. Every other node of a
tree lies below one whose parts are left out.
-/

namespace Phrasebook.Collection

open Syntax

variable {text : List Char} {excluded : List String} {found : Node}

/-- What a pass finds at a node comes before what it finds in the parts of the node. -/
theorem references_ofNode (text : List Char) (excluded : List String) (node : Node) :
    (ofNode text excluded node).references =
      (referenceOf? node).toList ++
        bif isSearched text excluded node then (ofNodes text excluded node.parts).references
        else [] := by
  rw [ofNode_eq, references_append, own]
  cases isSearched text excluded node <;> rfl

mutual

/-- The nodes that a pass visits from a node on: the node itself, and those in its parts when it is
searched. -/
def visited (text : List Char) (excluded : List String) : Node → List Node
  | .mk kind span parts =>
    .mk kind span parts ::
      if isSearched text excluded (.mk kind span parts) then visitedOf text excluded parts else []

def visitedOf (text : List Char) (excluded : List String) : List Node → List Node
  | [] => []
  | node :: rest => visited text excluded node ++ visitedOf text excluded rest

end

mutual

theorem references_visited (text : List Char) (excluded : List String) (node : Node) :
    (ofNode text excluded node).references =
      (visited text excluded node).filterMap referenceOf? := by
  cases node with
  | mk kind span parts =>
    rw [references_ofNode, visited, List.filterMap_cons, Node.parts,
      references_visitedOf text excluded parts]
    cases referenceOf? (.mk kind span parts) <;>
      cases isSearched text excluded (.mk kind span parts) <;> rfl

/-- A pass finds the lookups among the nodes that it visits, in their order. -/
theorem references_visitedOf (text : List Char) (excluded : List String) (nodes : List Node) :
    (ofNodes text excluded nodes).references =
      (visitedOf text excluded nodes).filterMap referenceOf? := by
  cases nodes with
  | nil => rfl
  | cons node rest =>
    rw [ofNodes, references_append, visitedOf, List.filterMap_append,
      references_visited text excluded node, references_visitedOf text excluded rest]

end

mutual

/-- A pass cuts a character exactly when it cuts one at some visited node. -/
theorem cutsCharacter_visited (text : List Char) (excluded : List String) (node : Node) :
    (ofNode text excluded node).cutsCharacter =
      (visited text excluded node).any (cutsAt text excluded) := by
  cases node with
  | mk kind span parts =>
    rw [ofNode_eq, cutsCharacter_append, own, visited, List.any_cons]
    have hparts := cutsCharacter_visitedOf text excluded parts
    cases isSearched text excluded (.mk kind span parts) with
    | false => rfl
    | true => exact congrArg (cutsAt text excluded _ || ·) hparts

/-- A pass comes upon a cut text at the nodes that it visits. -/
theorem cutsCharacter_visitedOf (text : List Char) (excluded : List String) (nodes : List Node) :
    (ofNodes text excluded nodes).cutsCharacter =
      (visitedOf text excluded nodes).any (cutsAt text excluded) := by
  cases nodes with
  | nil => rfl
  | cons node rest =>
    rw [ofNodes, cutsCharacter_append, cutsCharacter_visited text excluded node,
      cutsCharacter_visitedOf text excluded rest, visitedOf, List.any_append]

end

/-- A node lies below a visited one whose parts are left out. -/
def IsHidden (text : List Char) (excluded : List String) (visited : List Node) (found : Node) :
    Prop :=
  ∃ above ∈ visited, isSearched text excluded above = false ∧ found ∈ Node.allOf above.parts

theorem IsHidden.mono {first second : List Node} (h : IsHidden text excluded first found)
    (hsubset : first ⊆ second) : IsHidden text excluded second found := by
  obtain ⟨above, habove, hleft, hbelow⟩ := h
  exact ⟨above, hsubset habove, hleft, hbelow⟩

mutual

/-- Every node is visited or lies below a visited one whose parts are left out. -/
theorem mem_visited_or_hidden (text : List Char) (excluded : List String) (node : Node)
    (h : found ∈ Node.all node) :
    found ∈ visited text excluded node ∨
      IsHidden text excluded (visited text excluded node) found := by
  cases node with
  | mk kind span parts =>
    rw [Node.all] at h
    rw [visited]
    rcases List.mem_cons.1 h with rfl | hbelow
    · exact .inl List.mem_cons_self
    · cases hsearched : isSearched text excluded (.mk kind span parts) with
      | false => exact .inr ⟨_, List.mem_cons_self, hsearched, hbelow⟩
      | true =>
        rw [if_pos rfl]
        rcases mem_visitedOf_or_hidden text excluded parts hbelow with hvisited | hhidden
        · exact .inl (List.mem_cons_of_mem _ hvisited)
        · exact .inr (hhidden.mono (List.subset_cons_self _ _))

/-- Every node of a tree is visited, or lies below a visited one whose parts are left out. -/
theorem mem_visitedOf_or_hidden (text : List Char) (excluded : List String) (nodes : List Node)
    (h : found ∈ Node.allOf nodes) :
    found ∈ visitedOf text excluded nodes ∨
      IsHidden text excluded (visitedOf text excluded nodes) found := by
  cases nodes with
  | nil => cases h
  | cons node rest =>
    rw [Node.allOf] at h
    rw [visitedOf]
    rcases List.mem_append.1 h with hnode | hrest
    · rcases mem_visited_or_hidden text excluded node hnode with hvisited | hhidden
      · exact .inl (List.mem_append_left _ hvisited)
      · exact .inr (hhidden.mono (List.subset_append_left _ _))
    · rcases mem_visitedOf_or_hidden text excluded rest hrest with hvisited | hhidden
      · exact .inl (List.mem_append_right _ hvisited)
      · exact .inr (hhidden.mono (List.subset_append_right _ _))

end

end Phrasebook.Collection
