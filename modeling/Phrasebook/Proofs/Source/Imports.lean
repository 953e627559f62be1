import Phrasebook.Proofs.Source.Conversion
import Phrasebook.Proofs.Source.Edits
import Phrasebook.Proofs.Source.Layout

/-!
# The names that a repaired import binds

A call refers to the name that an import binds, which need not be the name that it imports. When
no import binds a name and none brings its value in under another name, an added import leaves the
name bound once, and to that value. A name that an import brings in already is left as it is bound.
-/

namespace Phrasebook

open Syntax

/-- What of a module is imported. -/
inductive Imported where
  | byDefault
  | named (name : String)
  | everything
deriving DecidableEq, Repr

/-- A name that an import binds. -/
structure ImportBinding where
  source : String
  imported : Imported
  bound : String
  typeOnly : Bool
deriving DecidableEq, Repr

namespace ImportBinding

def value (source name : String) : ImportBinding :=
  ⟨source, .named name, name, false⟩

/-- A binding brings a value in, under whatever name. -/
structure BringsIn (library name : String) (binding : ImportBinding) : Prop where
  source : binding.source = library
  imported : binding.imported = .named name
  typeOnly : binding.typeOnly = false

def ofNode? (source : String) (typeOnly : Bool) (node : Node) : Option ImportBinding :=
  match node.kind with
  | .importDefault bound => some ⟨source, .byDefault, bound, typeOnly⟩
  | .importNamed imported bound only => some ⟨source, .named imported, bound, typeOnly || only⟩
  | .importNamespace bound => some ⟨source, .everything, bound, typeOnly⟩
  | _ => none

def ofItem : Node → List ImportBinding
  | .mk (.importing source typeOnly) _ parts => parts.filterMap (ofNode? source typeOnly)
  | _ => []

def ofModule (module : Module) : List ImportBinding :=
  module.items.flatMap ofItem

end ImportBinding

/-- The imports of a module bind a name once, and to the value of that name. -/
def BindsOnce (library name : String) (module : Module) : Prop :=
  (ImportBinding.ofModule module).filter (·.bound == name) = [.value library name]

namespace Conversion

variable {library name : String} {module again : Module} {items : List Node} {node part : Node}
variable {source imported bound : String} {typeOnly : Bool} {binding : ImportBinding}

/-- A part of an import that brings a value in. -/
def ValuePart (name : String) (part : Node) : Prop :=
  ∃ bound, part.kind = .importNamed name bound false

/-- An item that brings a value in. -/
def ValueItem (library name : String) (node : Node) : Prop :=
  node.kind = .importing library false ∧ ∃ part ∈ node.parts, ValuePart name part

theorem valueOf?_eq_some_iff :
    ImportStatement.valueOf? part = some (imported, bound) ↔
      part.kind = .importNamed imported bound false := by
  unfold ImportStatement.valueOf?
  cases part.kind with
  | importNamed first second only => cases only <;> simp
  | _ => simp

/-- A layout imports a name from a library exactly when an item of the module brings it in as a
value. -/
theorem importsName_iff_exists_item :
    ((Layout.ofItems items).importsFrom library).any (·.importsName name) = true ↔
      ∃ node ∈ items, ValueItem library name node := by
  rw [List.any_eq_true]
  constructor
  · rintro ⟨statement, hstatement, hname⟩
    obtain ⟨hmem, rfl, hvalue⟩ := Layout.mem_importsFrom.1 hstatement
    obtain ⟨node, hnode, hdescribes⟩ := Layout.exists_describes hmem
    obtain ⟨⟨imported, bound⟩, hentry, hsame⟩ := List.any_eq_true.1 hname
    rw [hdescribes.named] at hentry
    obtain ⟨part, hpart, hvalueOf⟩ := List.mem_filterMap.1 hentry
    rw [beq_iff_eq.1 hsame, valueOf?_eq_some_iff] at hvalueOf
    exact ⟨node, hnode, hvalue ▸ hdescribes.kind, part, hpart, bound, hvalueOf⟩
  · rintro ⟨node, hnode, hkind, part, hpart, bound, hnamed⟩
    obtain ⟨statement, hstatement⟩ :
        ∃ statement, ImportStatement.ofNode? node = some statement := by
      obtain ⟨kind, span, parts⟩ := node
      cases hkind
      exact ⟨_, rfl⟩
    have hdescribes := ImportStatement.describes_of_ofNode? hstatement
    obtain ⟨rfl, hvalue⟩ := Kind.importing.inj (hdescribes.kind.symm.trans hkind)
    refine ⟨statement, Layout.mem_importsFrom.2 ⟨?_, rfl, hvalue⟩, ?_⟩
    · exact List.mem_filterMap.2 ⟨node, hnode, hstatement⟩
    · refine List.any_eq_true.2 ⟨(name, bound), ?_, beq_self_eq_true name⟩
      rw [hdescribes.named]
      exact List.mem_filterMap.2 ⟨part, hpart, valueOf?_eq_some_iff.2 hnamed⟩

/-- A part of an import that binds a value by name is one that brings it in. -/
theorem bringsIn_of_ofNode? (h : ImportBinding.ofNode? source typeOnly part = some binding)
    (hbinding : binding.BringsIn library name) :
    source = library ∧ typeOnly = false ∧ ValuePart name part := by
  obtain ⟨hsource, himported, hvalue⟩ := hbinding
  unfold ImportBinding.ofNode? at h
  unfold ValuePart
  cases hkind : part.kind with
  | importNamed first second only =>
    rw [hkind] at h
    cases h
    cases himported
    obtain ⟨htype, rfl⟩ := Bool.or_eq_false_iff.1 hvalue
    exact ⟨hsource, htype, second, rfl⟩
  | _ =>
    rw [hkind] at h
    cases h
    try cases himported

/-- The imports of a module bring a name in exactly when one of its items does. -/
theorem exists_bringsIn_iff_exists_item :
    (∃ binding ∈ items.flatMap ImportBinding.ofItem, binding.BringsIn library name) ↔
      ∃ node ∈ items, ValueItem library name node := by
  constructor
  · rintro ⟨binding, hbinding, hbrings⟩
    obtain ⟨node, hnode, hitem⟩ := List.mem_flatMap.1 hbinding
    refine ⟨node, hnode, ?_⟩
    unfold ImportBinding.ofItem at hitem
    split at hitem
    · next source typeOnly span parts =>
      obtain ⟨part, hpart, hsome⟩ := List.mem_filterMap.1 hitem
      obtain ⟨rfl, rfl, hvalue⟩ := bringsIn_of_ofNode? hsome hbrings
      exact ⟨rfl, part, hpart, hvalue⟩
    · cases hitem
  · rintro ⟨node, hnode, hkind, part, hpart, bound, hnamed⟩
    refine ⟨⟨library, .named name, bound, false⟩, List.mem_flatMap.2 ⟨node, hnode, ?_⟩,
      rfl, rfl, rfl⟩
    obtain ⟨kind, span, parts⟩ := node
    cases hkind
    refine List.mem_filterMap.2 ⟨part, hpart, ?_⟩
    unfold ImportBinding.ofNode?
    rw [hnamed]
    rfl

/-- A layout notices whether a value is brought in, under whatever name. -/
theorem importsName_iff_bringsIn :
    ((Layout.ofModule module).importsFrom library).any (·.importsName name) = true ↔
      ∃ binding ∈ ImportBinding.ofModule module, binding.BringsIn library name :=
  importsName_iff_exists_item.trans exists_bringsIn_iff_exists_item.symm

theorem bringsIn_of_bindsOnce (h : BindsOnce library name module) :
    ∃ binding ∈ ImportBinding.ofModule module, binding.BringsIn library name := by
  refine ⟨.value library name, ?_, rfl, rfl, rfl⟩
  have hmem : ImportBinding.value library name ∈
      (ImportBinding.ofModule module).filter (·.bound == name) := by
    rw [h]
    exact List.mem_cons_self
  exact List.mem_of_mem_filter hmem

/-- With one more binding of a name, and to its value, the name is bound once exactly when it was
bound by no import before. -/
theorem bindsOnce_iff_of_perm_append
    (h : (ImportBinding.ofModule again).Perm
      (ImportBinding.ofModule module ++ [.value library name])) :
    BindsOnce library name again ↔
      ∀ binding ∈ ImportBinding.ofModule module, binding.bound ≠ name := by
  have hvalue : [ImportBinding.value library name].filter (·.bound == name) =
      [.value library name] := List.filter_eq_self.2 fun binding hbinding ↦ by
    rw [List.mem_singleton.1 hbinding]
    exact beq_self_eq_true name
  have hnames := h.filter (·.bound == name)
  rw [List.filter_append, hvalue] at hnames
  unfold BindsOnce
  rw [← List.perm_singleton]
  constructor
  · intro honce binding hbinding hbound
    have hlength := (hnames.symm.trans honce).length_eq
    rw [List.length_append, List.length_singleton] at hlength
    have hempty := List.length_eq_zero_iff.1 (Nat.succ.inj hlength)
    exact List.filter_eq_nil_iff.1 hempty binding hbinding (beq_iff_eq.2 hbound)
  · intro hall
    have hempty : (ImportBinding.ofModule module).filter (·.bound == name) = [] :=
      List.filter_eq_nil_iff.2 fun binding hbinding hbound ↦
        hall binding hbinding (beq_iff_eq.1 hbound)
    rwa [hempty, List.nil_append] at hnames

theorem bindsOnce_congr (h : (ImportBinding.ofModule again).Perm (ImportBinding.ofModule module)) :
    BindsOnce library name again ↔ BindsOnce library name module := by
  have hnames := h.filter (·.bound == name)
  unfold BindsOnce
  rw [← List.perm_singleton, ← List.perm_singleton]
  exact ⟨hnames.symm.trans, hnames.trans⟩

/-- An import that is added gives one more binding. After it a name is bound once, and to the value
of that name, exactly when that was so before or when no import bound the name or brought the value
in. -/
theorem bindsOnce_iff
    (h : (ImportBinding.ofModule again).Perm (ImportBinding.ofModule module ++
      (ensureImport (Layout.ofModule module) library name).map fun _ ↦ .value library name)) :
    BindsOnce library name again ↔
      BindsOnce library name module ∨
        ∀ binding ∈ ImportBinding.ofModule module,
          binding.bound ≠ name ∧ ¬ binding.BringsIn library name := by
  by_cases hbrings : ∃ binding ∈ ImportBinding.ofModule module, binding.BringsIn library name
  · rw [ensureImport_eq_nil (importsName_iff_bringsIn.2 hbrings), List.map_nil,
      List.append_nil] at h
    obtain ⟨binding, hbinding, hvalue⟩ := hbrings
    have hnone : ¬ ∀ binding ∈ ImportBinding.ofModule module,
        binding.bound ≠ name ∧ ¬ binding.BringsIn library name :=
      fun hall ↦ (hall binding hbinding).2 hvalue
    rw [or_iff_left hnone]
    exact bindsOnce_congr h
  · have hbefore : ¬ BindsOnce library name module :=
      fun honce ↦ hbrings (bringsIn_of_bindsOnce honce)
    have hmissing :
        ((Layout.ofModule module).importsFrom library).any (·.importsName name) = false :=
      Bool.eq_false_iff.2 fun hname ↦ hbrings (importsName_iff_bringsIn.1 hname)
    obtain ⟨edit, hedit⟩ := List.length_eq_one_iff.1 (length_ensureImport hmissing)
    rw [hedit, List.map_singleton] at h
    rw [or_iff_right hbefore, bindsOnce_iff_of_perm_append h]
    refine forall₂_congr fun binding hbinding ↦ (and_iff_left fun hvalue ↦ ?_).symm
    exact hbrings ⟨binding, hbinding, hvalue⟩

/-- A source that imports nothing from the library. -/
def screen : String :=
  "import React from \"react\";\nconst a = 1;\n"

/-- The source with the import of the lookup function. -/
def repairedScreen : String :=
  "import React from \"react\";\nimport \x7b t \x7d from \"localise-ai-sdk\";\nconst a = 1;\n"

theorem bindsOnce_screen :
    ∃ module again, Module.parse? true screen = some module ∧
      Edit.applyAll? screen (ensureImport (Layout.ofModule module) "localise-ai-sdk" lookupName) =
        some repairedScreen ∧
      Module.parse? true repairedScreen = some again ∧
      ¬ BindsOnce "localise-ai-sdk" lookupName module ∧
      BindsOnce "localise-ai-sdk" lookupName again := by
  have hbefore : (Module.parse? true screen).map (fun module ↦
      (ensureImport (Layout.ofModule module) "localise-ai-sdk" lookupName,
        ImportBinding.ofModule module)) =
      some ([.insertAt 26 "\nimport \x7b t \x7d from \"localise-ai-sdk\";"],
        [⟨"react", .byDefault, "React", false⟩]) := by
    decide +kernel
  have hafter : (Module.parse? true repairedScreen).map ImportBinding.ofModule =
      some [⟨"react", .byDefault, "React", false⟩, .value "localise-ai-sdk" lookupName] := by
    decide +kernel
  have houtput : Edit.applyAll? screen
      [.insertAt 26 "\nimport \x7b t \x7d from \"localise-ai-sdk\";"] = some repairedScreen := by
    rw [Edit.applyAll?, List.mergeSort_singleton]
    decide +kernel
  obtain ⟨module, hmodule, hvalues⟩ := Option.map_eq_some_iff.1 hbefore
  obtain ⟨hedits, hbindings⟩ := Prod.mk.inj hvalues
  obtain ⟨again, hagain, hnow⟩ := Option.map_eq_some_iff.1 hafter
  have hperm : (ImportBinding.ofModule again).Perm (ImportBinding.ofModule module ++
      (ensureImport (Layout.ofModule module) "localise-ai-sdk" lookupName).map
        fun _ ↦ .value "localise-ai-sdk" lookupName) := by
    rw [hnow, hbindings, hedits]
    exact .refl _
  refine ⟨module, again, hmodule, hedits ▸ houtput, hagain, ?_, (bindsOnce_iff hperm).2 (.inr ?_)⟩
  · unfold BindsOnce
    rw [hbindings]
    decide
  · intro binding hbinding
    rw [hbindings] at hbinding
    rw [List.mem_singleton.1 hbinding]
    exact ⟨by decide, fun hbrings ↦ by cases hbrings.imported⟩

/-- After its imports are repaired a source binds a name once, and to the value of that name. -/
def RepairBinds (markup : Bool) (code library name : String) : Prop :=
  ∀ module output, Module.parse? markup code = some module →
    Edit.applyAll? code (ensureImport (Layout.ofModule module) library name) = some output →
    ∃ again, Module.parse? markup output = some again ∧ BindsOnce library name again

/-- A source that imports the lookup function under another name. -/
def aliased : String :=
  "import \x7b t as translate \x7d from \"localise-ai-sdk\";\nconst a = <p>Hi</p>;\n"

/-- An import under another name is left alone, and the lookup function stays unbound. -/
theorem not_repairBinds_aliased :
    ¬ RepairBinds true aliased "localise-ai-sdk" lookupName := by
  have hevaluated : (Module.parse? true aliased).map (fun module ↦
      (ensureImport (Layout.ofModule module) "localise-ai-sdk" lookupName,
        (ImportBinding.ofModule module).filter (·.bound == lookupName))) = some ([], []) := by
    decide +kernel
  obtain ⟨module, hmodule, hvalues⟩ := Option.map_eq_some_iff.1 hevaluated
  obtain ⟨hedits, hbound⟩ := Prod.mk.inj hvalues
  intro hall
  have houtput : Edit.applyAll? aliased
      (ensureImport (Layout.ofModule module) "localise-ai-sdk" lookupName) = some aliased := by
    rw [hedits]
    exact Edit.applyAll?_nil aliased
  obtain ⟨again, hagain, honce⟩ := hall module aliased hmodule houtput
  cases hmodule.symm.trans hagain
  rw [BindsOnce, hbound] at honce
  cases honce

end Conversion

end Phrasebook
