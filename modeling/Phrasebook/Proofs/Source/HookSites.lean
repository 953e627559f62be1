import Phrasebook.Proofs.Source.References

/-!
# Where a hook can be called

Some nodes offer a function body as a place for the hook. A pass settles on the first body that is
offered by a node that it visits, and notices whether one of these nodes binds the lookup function
to the result of the hook. The body and its statements are visited as well.
-/

namespace Phrasebook.Collection

open Syntax

variable {text : List Char} {excluded : List String} {node found part body : Node}
variable {nodes : List Node}

/-- The first body that a pass over nodes finds for the hook. -/
def firstBody? (text : List Char) (excluded : List String) (nodes : List Node) : Option Node :=
  (visitedOf text excluded nodes).findSome? offeredBody?

mutual

/-- The hook is offered the body of the first visited node that has one. -/
theorem hookSite?_visited (text : List Char) (excluded : List String) (node : Node) :
    (ofNode text excluded node).hookSite? =
      ((visited text excluded node).findSome? offeredBody?).map placeIn := by
  cases node with
  | mk kind span parts =>
    rw [ofNode_eq, hookSite?_append, own, visited, List.findSome?_cons]
    have hparts := hookSite?_visitedOf text excluded parts
    cases offeredBody? (.mk kind span parts) with
    | some body => rfl
    | none =>
      cases isSearched text excluded (.mk kind span parts) with
      | false => rfl
      | true => exact hparts

/-- A pass settles on the first body that is offered by a node that it visits. -/
theorem hookSite?_visitedOf (text : List Char) (excluded : List String) (nodes : List Node) :
    (ofNodes text excluded nodes).hookSite? = (firstBody? text excluded nodes).map placeIn := by
  cases nodes with
  | nil => rfl
  | cons node rest =>
    rw [ofNodes, hookSite?_append, hookSite?_visited text excluded node,
      hookSite?_visitedOf text excluded rest, firstBody?, firstBody?, visitedOf,
      List.findSome?_append, Option.map_or]

end

theorem mem_visited_self (text : List Char) (excluded : List String) (node : Node) :
    node ∈ visited text excluded node := by
  cases node with
  | mk kind span parts => exact List.mem_cons_self

theorem mem_visitedOf (h : node ∈ nodes) : node ∈ visitedOf text excluded nodes := by
  induction nodes with
  | nil => cases h
  | cons first rest ih =>
    rcases List.mem_cons.1 h with rfl | hrest
    · exact List.mem_append_left _ (mem_visited_self text excluded node)
    · exact List.mem_append_right _ (ih hrest)

mutual

/-- The parts of a visited node that is searched are visited. -/
theorem part_mem_visited (node : Node) (h : found ∈ visited text excluded node)
    (hsearched : isSearched text excluded found = true) (hpart : part ∈ found.parts) :
    part ∈ visited text excluded node := by
  cases node with
  | mk kind span parts =>
    rw [visited] at h ⊢
    rcases List.mem_cons.1 h with rfl | hbelow
    · rw [if_pos hsearched]
      exact List.mem_cons_of_mem _ (mem_visitedOf hpart)
    · split at hbelow
      · next hnode =>
        rw [if_pos hnode]
        exact List.mem_cons_of_mem _ (part_mem_visitedOf parts hbelow hsearched hpart)
      · cases hbelow

/-- The parts of a visited node that is searched are visited. -/
theorem part_mem_visitedOf (nodes : List Node) (h : found ∈ visitedOf text excluded nodes)
    (hsearched : isSearched text excluded found = true) (hpart : part ∈ found.parts) :
    part ∈ visitedOf text excluded nodes := by
  cases nodes with
  | nil => cases h
  | cons first rest =>
    rw [visitedOf] at h ⊢
    rcases List.mem_append.1 h with hfirst | hrest
    · exact List.mem_append_left _ (part_mem_visited first hfirst hsearched hpart)
    · exact List.mem_append_right _ (part_mem_visitedOf rest hrest hsearched hpart)

end

/-- The body that a visited node offers is a block and is visited as well. -/
theorem mem_visitedOf_of_offeredBody? (h : offeredBody? node = some body)
    (hnode : node ∈ visitedOf text excluded nodes) :
    body ∈ visitedOf text excluded nodes ∧ body.kind = .block := by
  have hblock : ∀ {parts : List Node}, bodyOf? parts = some body → body.kind = .block := by
    intro parts hbody
    unfold bodyOf? at hbody
    have hkind := List.find?_some hbody
    exact beq_iff_eq.1 hkind
  unfold offeredBody? at h
  split at h
  · exact ⟨part_mem_visitedOf nodes hnode rfl (List.mem_of_find?_eq_some h), hblock h⟩
  · exact ⟨part_mem_visitedOf nodes hnode rfl (List.mem_of_find?_eq_some h), hblock h⟩
  · have hfunction := part_mem_visitedOf nodes hnode rfl List.mem_cons_self
    exact ⟨part_mem_visitedOf nodes hfunction rfl (List.mem_of_find?_eq_some h), hblock h⟩
  · have harrow := part_mem_visitedOf nodes hnode rfl (List.mem_cons_of_mem _ List.mem_cons_self)
    exact ⟨part_mem_visitedOf nodes harrow rfl (List.mem_of_find?_eq_some h), hblock h⟩
  · cases h

/-- The body that a pass settles on is a visited block. -/
theorem mem_visitedOf_of_firstBody? (h : firstBody? text excluded nodes = some body) :
    body ∈ visitedOf text excluded nodes ∧ body.kind = .block := by
  obtain ⟨node, hnode, hbody⟩ := List.exists_of_findSome?_eq_some h
  exact mem_visitedOf_of_offeredBody? hbody hnode

end Phrasebook.Collection
