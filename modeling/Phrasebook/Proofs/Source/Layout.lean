import Phrasebook.Source.Conversion

/-!
# What the imports of a layout are read from

An import of a layout is an item of its module, and what it imports by name are the bindings among
the parts of the item. A name that no import has is added by one edit.
-/

namespace Phrasebook

open Syntax

namespace ImportStatement

variable {node : Node} {bindings : List Node} {statement : ImportStatement} {stop : Nat}

/-- The value that a binding imports by name, with the name it is bound to. -/
def valueOf? (binding : Node) : Option (String × String) :=
  match binding.kind with
  | .importNamed imported bound false => some (imported, bound)
  | _ => none

/-- What bindings leave of an import as it is. -/
structure Extends (first second : ImportStatement) : Prop where
  stop : second.stop = first.stop
  source : second.source = first.source
  typeOnly : second.typeOnly = first.typeOnly

theorem extends_addBinding (statement : ImportStatement) (binding : Node) :
    statement.Extends (statement.addBinding binding) := by
  unfold addBinding
  split <;> exact ⟨rfl, rfl, rfl⟩

theorem extends_foldl (statement : ImportStatement) (bindings : List Node) :
    statement.Extends (bindings.foldl addBinding statement) := by
  induction bindings generalizing statement with
  | nil => exact ⟨rfl, rfl, rfl⟩
  | cons binding rest ih =>
    have hfirst := extends_addBinding statement binding
    have hrest := ih (statement.addBinding binding)
    exact ⟨hrest.stop.trans hfirst.stop, hrest.source.trans hfirst.source,
      hrest.typeOnly.trans hfirst.typeOnly⟩

theorem named_addBinding (statement : ImportStatement) (binding : Node) :
    (statement.addBinding binding).named = statement.named ++ (valueOf? binding).toList := by
  unfold addBinding valueOf?
  cases binding.kind with
  | importNamed imported bound typeOnly => cases typeOnly <;> simp
  | _ => exact (List.append_nil _).symm

/-- The values that an import has by name are those of its bindings, in their order. -/
theorem named_foldl (statement : ImportStatement) (bindings : List Node) :
    (bindings.foldl addBinding statement).named =
      statement.named ++ bindings.filterMap valueOf? := by
  induction bindings generalizing statement with
  | nil => exact (List.append_nil _).symm
  | cons binding rest ih =>
    rw [List.foldl_cons, ih, named_addBinding, List.append_assoc, List.filterMap_cons]
    cases valueOf? binding <;> rfl

/-- The last name in the braces of an import is one of its bindings. -/
theorem exists_binding_of_foldl
    (h : (bindings.foldl addBinding statement).lastNameStop? = some stop) :
    statement.lastNameStop? = some stop ∨ ∃ binding ∈ bindings, binding.stop = stop := by
  induction bindings generalizing statement with
  | nil => exact .inl h
  | cons binding rest ih =>
    rcases ih h with hfirst | ⟨last, hlast, hstop⟩
    · unfold addBinding at hfirst
      split at hfirst
      · exact .inl hfirst
      · exact .inr ⟨binding, List.mem_cons_self, Option.some.inj hfirst⟩
      · exact .inl hfirst
    · exact .inr ⟨last, List.mem_cons_of_mem _ hlast, hstop⟩

theorem start_foldl (statement : ImportStatement) (bindings : List Node) :
    (bindings.foldl addBinding statement).start = statement.start := by
  induction bindings generalizing statement with
  | nil => rfl
  | cons binding rest ih =>
    rw [List.foldl_cons, ih]
    unfold addBinding
    split <;> rfl

/-- The name of a default import is that of one of its bindings. -/
theorem exists_default_of_foldl {bound : String}
    (h : (bindings.foldl addBinding statement).default? = some bound) :
    statement.default? = some bound ∨
      ∃ binding ∈ bindings, binding.kind = .importDefault bound := by
  induction bindings generalizing statement with
  | nil => exact .inl h
  | cons binding rest ih =>
    rcases ih h with hfirst | ⟨last, hlast, hkind⟩
    · unfold addBinding at hfirst
      split at hfirst
      · next other hkind =>
        cases hfirst
        exact .inr ⟨binding, List.mem_cons_self, hkind⟩
      · exact .inl hfirst
      · exact .inl hfirst
    · exact .inr ⟨last, List.mem_cons_of_mem _ hlast, hkind⟩

/-- An import of a layout describes an item. -/
structure Describes (statement : ImportStatement) (node : Node) : Prop where
  kind : node.kind = .importing statement.source statement.typeOnly
  stop : statement.stop = node.stop
  named : statement.named = node.parts.filterMap valueOf?
  lastName : ∀ stop, statement.lastNameStop? = some stop →
    ∃ binding ∈ node.parts, binding.stop = stop

/-- The import that is read off an item describes it. -/
theorem describes_of_ofNode? (h : ofNode? node = some statement) : statement.Describes node := by
  unfold ofNode? at h
  split at h
  · next source typeOnly span bindings =>
    cases h
    have hextends :=
      extends_foldl ⟨span.start, span.stop, source, typeOnly, none, [], none⟩ bindings
    refine ⟨?_, hextends.stop, named_foldl _ bindings, fun stop hstop ↦ ?_⟩
    · rw [hextends.source, hextends.typeOnly]
      rfl
    · exact (exists_binding_of_foldl hstop).resolve_left nofun
  · cases h

theorem start_of_ofNode? (h : ofNode? node = some statement) : statement.start = node.start := by
  unfold ofNode? at h
  split at h
  · cases h
    exact start_foldl _ _
  · cases h

theorem exists_default_of_ofNode? {bound : String} (h : ofNode? node = some statement)
    (hbound : statement.default? = some bound) :
    ∃ part ∈ node.parts, part.kind = .importDefault bound := by
  unfold ofNode? at h
  split at h
  · cases h
    exact (exists_default_of_foldl hbound).resolve_left nofun
  · cases h

end ImportStatement

namespace Layout

variable {items : List Node} {statement : ImportStatement} {source : String}

theorem exists_describes (h : statement ∈ (ofItems items).imports) :
    ∃ node ∈ items, statement.Describes node := by
  obtain ⟨node, hnode, hstatement⟩ := List.mem_filterMap.1 h
  exact ⟨node, hnode, ImportStatement.describes_of_ofNode? hstatement⟩

theorem mem_importsFrom :
    statement ∈ (ofItems items).importsFrom source ↔
      statement ∈ (ofItems items).imports ∧ statement.source = source ∧
        statement.typeOnly = false := by
  unfold importsFrom
  rw [List.mem_filter, Bool.and_eq_true, beq_iff_eq, Bool.not_eq_true']

/-- An import is added behind an item. -/
theorem exists_item_of_insertionPoint? {offset : Nat}
    (h : (ofItems items).insertionPoint? = some offset) : ∃ node ∈ items, node.stop = offset := by
  unfold insertionPoint? at h
  rcases Option.or_eq_some_iff.1 h with himport | ⟨-, hdirective⟩
  · obtain ⟨statement, hlast, rfl⟩ := Option.map_eq_some_iff.1 himport
    obtain ⟨node, hnode, hdescribes⟩ := exists_describes (List.mem_of_getLast? hlast)
    exact ⟨node, hnode, hdescribes.stop.symm⟩
  · obtain ⟨node, hlast, hstop⟩ := Option.map_eq_some_iff.1 hdirective
    exact ⟨node, List.takeWhile_subset _ (List.mem_of_getLast? hlast), hstop⟩

end Layout

namespace Conversion

variable {layout : Layout} {items : List Node} {library name : String} {edit : Edit}

/-- An import is added behind the last name in the braces of another import, where a new one may go,
or at the top of a module that leaves this open. -/
theorem mem_ensureImport_cases (h : edit ∈ ensureImport (Layout.ofItems items) library name) :
    (∃ statement ∈ (Layout.ofItems items).imports, ∃ stop, statement.lastNameStop? = some stop ∧
      edit = .insertAt stop (", " ++ name)) ∨
    (∃ offset, (Layout.ofItems items).insertionPoint? = some offset ∧
      edit = .insertAt offset ("\n" ++ importStatement name library)) ∨
    ((Layout.ofItems items).insertionPoint? = none ∧
      edit = .insertAt 0 (importStatement name library ++ "\n")) := by
  unfold ensureImport ensureImportAt at h
  split at h
  · cases h
  · split at h
    · next stop hstop =>
      obtain ⟨statement, hstatement, hlast⟩ := List.exists_of_findSome?_eq_some hstop
      have himport := (Layout.mem_importsFrom.1 hstatement).1
      exact .inl ⟨statement, himport, stop, hlast, List.mem_singleton.1 h⟩
    · split at h
      · next offset hoffset => exact .inr (.inl ⟨offset, hoffset, List.mem_singleton.1 h⟩)
      · next hnone => exact .inr (.inr ⟨hnone, List.mem_singleton.1 h⟩)

theorem ensureImport_eq_nil
    (h : (layout.importsFrom library).any (·.importsName name) = true) :
    ensureImport layout library name = [] := by
  unfold ensureImport ensureImportAt
  rw [if_pos h]

theorem length_ensureImport
    (h : (layout.importsFrom library).any (·.importsName name) = false) :
    (ensureImport layout library name).length = 1 := by
  unfold ensureImport ensureImportAt
  rw [if_neg (Bool.eq_false_iff.1 h)]
  split
  · rfl
  · split <;> rfl

end Conversion

end Phrasebook
