import Phrasebook.Proofs.Source.Imports
import Phrasebook.Proofs.Source.Locales

/-!
# The names that imports of catalogs bind

A registration takes the imports of catalogs out and puts one default import for each locale in.
What else such an import binds is lost, and so is the name of a second import of the same catalog.
The names of catalogs that are new are made of their locales, whatever other imports bind. So the
imports of a source are kept exactly when each of those of catalogs binds a single name, no catalog
is imported twice, and the names that are added are bound by nothing else.
-/

namespace Phrasebook.Registration

open Syntax

variable {plan : Plan} {path : Path} {code : String} {outcome : Outcome} {module again : Module}
variable {items : List Node} {node : Node} {binding other : Binding} {all : List Binding}
variable {imported same : ImportBinding} {locale : String}

/-- The locale that an item of a module registers, with its name. -/
def catalogOf? (plan : Plan) (node : Node) : Option Binding :=
  (ImportStatement.ofNode? node).bind (bindingOf? plan)

def isCatalogImport (plan : Plan) (node : Node) : Bool :=
  (catalogOf? plan node).isSome

theorem isCatalogImport_of_catalogOf? (h : catalogOf? plan node = some binding) :
    isCatalogImport plan node = true := by
  rw [isCatalogImport, h, Option.isSome_some]

theorem present_ofItems (plan : Plan) (items : List Node) :
    present plan (Layout.ofItems items) = items.filterMap (catalogOf? plan) :=
  List.filterMap_filterMap ..

/-- An import of a catalog binds the catalog to its name. -/
theorem exists_default_of_catalogOf? (h : catalogOf? plan node = some binding) :
    ∃ typeOnly, ⟨specifierOf plan binding.locale, .byDefault, binding.name, typeOnly⟩ ∈
      ImportBinding.ofItem node := by
  obtain ⟨statement, hstatement, hbinding⟩ := Option.bind_eq_some_iff.1 h
  have hcatalog := bindingOf?_eq_some_iff.1 hbinding
  have hdescribes := ImportStatement.describes_of_ofNode? hstatement
  obtain ⟨part, hpart, hkind⟩ :=
    ImportStatement.exists_default_of_ofNode? hstatement hcatalog.bound
  obtain ⟨kind, span, parts⟩ := node
  obtain rfl : kind = _ := hdescribes.kind
  refine ⟨statement.typeOnly, List.mem_filterMap.2 ⟨part, hpart, ?_⟩⟩
  rw [ImportBinding.ofNode?, hkind, hcatalog.source]

/-- All that an import of a catalog binds comes from the catalog. -/
theorem source_of_catalogOf? (h : catalogOf? plan node = some binding)
    (himported : imported ∈ ImportBinding.ofItem node) :
    imported.source = specifierOf plan binding.locale := by
  obtain ⟨statement, hstatement, hbinding⟩ := Option.bind_eq_some_iff.1 h
  have hcatalog := bindingOf?_eq_some_iff.1 hbinding
  have hdescribes := ImportStatement.describes_of_ofNode? hstatement
  obtain ⟨kind, span, parts⟩ := node
  obtain rfl : kind = _ := hdescribes.kind
  obtain ⟨part, -, hsome⟩ := List.mem_filterMap.1 himported
  rw [← hcatalog.source]
  unfold ImportBinding.ofNode? at hsome
  split at hsome <;> cases hsome <;> rfl

/-- A library that is no catalog does not have the specifier of one. -/
theorem specifierOf_ne_library (hlibrary : localeOf? plan plan.library = none)
    (h : '/' ∉ locale.toList) : specifierOf plan locale ≠ plan.library := by
  intro hsame
  have hlocale := localeOf?_specifierOf plan h
  rw [hsame, hlibrary] at hlocale
  cases hlocale

theorem source_ne_library (hlibrary : localeOf? plan plan.library = none)
    (h : catalogOf? plan node = some binding) (himported : imported ∈ ImportBinding.ofItem node) :
    imported.source ≠ plan.library := by
  obtain ⟨statement, -, hbinding⟩ := Option.bind_eq_some_iff.1 h
  rw [source_of_catalogOf? h himported]
  exact specifierOf_ne_library hlibrary (bindingOf?_eq_some_iff.1 hbinding).plain

def boundNames (module : Module) : List String :=
  (ImportBinding.ofModule module).map ImportBinding.bound

def catalogBindings (plan : Plan) (module : Module) : List ImportBinding :=
  (module.items.filter (isCatalogImport plan)).flatMap ImportBinding.ofItem

def otherBindings (plan : Plan) (module : Module) : List ImportBinding :=
  (module.items.filter fun node ↦ !isCatalogImport plan node).flatMap ImportBinding.ofItem

theorem ofModule_perm (plan : Plan) (module : Module) :
    (ImportBinding.ofModule module).Perm
      (otherBindings plan module ++ catalogBindings plan module) := by
  have hperm := List.filter_append_perm (isCatalogImport plan) module.items
  have hitems := hperm.symm.flatMap_right ImportBinding.ofItem
  rw [List.flatMap_append] at hitems
  exact hitems.trans List.perm_append_comm

def writtenImport (plan : Plan) (binding : Binding) : ImportBinding :=
  ⟨specifierOf plan binding.locale, .byDefault, binding.name, false⟩

def writtenBindings (plan : Plan) (module : Module) : List ImportBinding :=
  otherBindings plan module ++
    (initializerEdits plan (Layout.ofModule module)).map
      (fun _ ↦ .value plan.library initializerName) ++
    (bindings plan (Layout.ofModule module)).map (writtenImport plan)

/-- Two imports bind a name to the same import of the same module. -/
structure SameImport (first second : ImportBinding) : Prop where
  source : second.source = first.source
  imported : second.imported = first.imported
  bound : second.bound = first.bound

/-- Every import of a catalog binds a single name, and no catalog is imported twice. -/
structure ImportsApart (plan : Plan) (module : Module) : Prop where
  single : ∀ node ∈ module.items, isCatalogImport plan node = true →
    (ImportBinding.ofItem node).length = 1
  once : (locales (present plan (Layout.ofModule module))).Nodup

instance (plan : Plan) (module : Module) : Decidable (ImportsApart plan module) :=
  decidable_of_iff
    ((∀ node ∈ module.items, isCatalogImport plan node = true →
      (ImportBinding.ofItem node).length = 1) ∧
        (locales (present plan (Layout.ofModule module))).Nodup)
    ⟨fun ⟨single, once⟩ ↦ ⟨single, once⟩, fun ⟨single, once⟩ ↦ ⟨single, once⟩⟩

/-! ## Imports that are apart -/

theorem ofItem_of_single (h : catalogOf? plan node = some binding)
    (hsingle : (ImportBinding.ofItem node).length = 1) :
    ∃ typeOnly, ImportBinding.ofItem node =
      [⟨specifierOf plan binding.locale, .byDefault, binding.name, typeOnly⟩] := by
  obtain ⟨typeOnly, hdefault⟩ := exists_default_of_catalogOf? h
  obtain ⟨only, honly⟩ := List.length_eq_one_iff.1 hsingle
  rw [honly] at hdefault ⊢
  rw [← List.mem_singleton.1 hdefault]
  exact ⟨typeOnly, rfl⟩

/-- Where every import of a catalog binds a single name, the names are those of the locales. -/
theorem bound_eq_name_of_single
    (h : ∀ node ∈ items, isCatalogImport plan node = true →
      (ImportBinding.ofItem node).length = 1) :
    ((items.filter (isCatalogImport plan)).flatMap ImportBinding.ofItem).map
        ImportBinding.bound =
      (items.filterMap (catalogOf? plan)).map Binding.name := by
  induction items with
  | nil => rfl
  | cons node rest ih =>
    have hrest := ih fun other hother ↦ h other (List.mem_cons_of_mem _ hother)
    cases hcatalog : catalogOf? plan node with
    | none =>
      have hnone : ¬ isCatalogImport plan node = true := by simp [isCatalogImport, hcatalog]
      rw [List.filterMap_cons_none hcatalog, List.filter_cons_of_neg hnone, hrest]
    | some binding =>
      have hsome := isCatalogImport_of_catalogOf? hcatalog
      obtain ⟨typeOnly, hitem⟩ := ofItem_of_single hcatalog (h node List.mem_cons_self hsome)
      rw [List.filterMap_cons_some hcatalog, List.filter_cons_of_pos hsome, List.flatMap_cons,
        List.map_append, hitem, hrest]
      rfl

/-- A catalog that is imported once keeps the name of its import. -/
theorem mem_bindings_of_mem_present {layout : Layout}
    (honce : (locales (present plan layout)).Nodup) (h : binding ∈ present plan layout) :
    binding ∈ bindings plan layout := by
  have hperm : (registerAll [] (present plan layout)).Perm (present plan layout ++ []) :=
    registerAll_perm (by rwa [locales, locales, List.map_nil, List.append_nil])
  have hmem : binding ∈ registerAll [] (present plan layout) :=
    hperm.mem_iff.2 (List.mem_append_left _ h)
  rw [bindings_eq_registerAll, registerAll, List.foldl_append]
  exact mem_registerAll_of_mem hmem _

/-- A locale has one binding in a list that is in order. -/
theorem Sorted.eq_of_locale_eq (hsorted : Sorted all) (hbinding : binding ∈ all)
    (hother : other ∈ all) (h : binding.locale = other.locale) : binding = other :=
  List.inj_on_of_nodup_map hsorted.nodup hbinding hother h

/-- The names that are made for the locales whose catalogs are not imported. -/
def freshNames (plan : Plan) (layout : Layout) : List String :=
  ((locales (bindings plan layout)).filter
    fun locale ↦ !(locales (present plan layout)).contains locale).map nameFor

/-- The names that a registration adds: that of the initializer if it is not imported, and those
that are made for the locales whose catalogs are not. -/
def addedNames (plan : Plan) (module : Module) : List String :=
  (initializerEdits plan (Layout.ofModule module)).map (fun _ ↦ initializerName) ++
    freshNames plan (Layout.ofModule module)

/-- Where no catalog is imported twice, the names of all catalogs are those of the imports and those
that are made. -/
theorem map_name_bindings_perm {layout : Layout} (honce : (locales (present plan layout)).Nodup) :
    ((bindings plan layout).map Binding.name).Perm
      ((present plan layout).map Binding.name ++ freshNames plan layout) := by
  have hsorted := sorted_bindings plan layout
  let known (binding : Binding) : Bool := (locales (present plan layout)).contains binding.locale
  have hknown : ((bindings plan layout).filter known).Perm (present plan layout) := by
    refine (List.perm_ext_iff_of_nodup ?_ (List.Nodup.of_map _ honce)).2 fun binding ↦ ?_
    · exact (List.Nodup.of_map _ hsorted.nodup).filter _
    · rw [List.mem_filter]
      constructor
      · rintro ⟨hmem, hcontains⟩
        obtain ⟨other, hother, hlocale⟩ := List.mem_map.1 (List.contains_iff_mem.1 hcontains)
        have hregistered := mem_bindings_of_mem_present honce hother
        exact hsorted.eq_of_locale_eq hregistered hmem hlocale ▸ hother
      · intro hmem
        exact ⟨mem_bindings_of_mem_present honce hmem,
          List.contains_iff_mem.2 (List.mem_map_of_mem hmem)⟩
  have hfresh : ((bindings plan layout).filter fun binding ↦ !known binding).map Binding.name =
      freshNames plan layout := by
    unfold freshNames locales
    rw [List.filter_map, List.map_map]
    refine List.map_congr_left fun binding hbinding ↦ ?_
    obtain ⟨hmem, hunknown⟩ := List.mem_filter.1 hbinding
    refine (registers_bindings plan layout).derived binding hmem
      fun statement hstatement name himports ↦ ?_
    have hpresent := mem_locales_present.2 ⟨statement, hstatement, name, himports⟩
    rw [Bool.not_eq_true', ← Bool.not_eq_true] at hunknown
    exact hunknown (List.contains_iff_mem.2 hpresent)
  have hsplit := (List.filter_append_perm known (bindings plan layout)).map Binding.name
  rw [List.map_append, hfresh] at hsplit
  exact hsplit.symm.trans ((hknown.map Binding.name).append_right _)

/-- Every name that a module imports is imported in the output of a registration as well. -/
theorem ImportsApart.exists_same (h : ImportsApart plan module)
    (himported : imported ∈ ImportBinding.ofModule module) :
    ∃ same ∈ writtenBindings plan module, SameImport imported same := by
  rcases List.mem_append.1 ((ofModule_perm plan module).mem_iff.1 himported) with hother | hcatalog
  · exact ⟨imported, List.mem_append_left _ (List.mem_append_left _ hother), rfl, rfl, rfl⟩
  · obtain ⟨node, hnode, hitem⟩ := List.mem_flatMap.1 hcatalog
    obtain ⟨hmem, hsome⟩ := List.mem_filter.1 hnode
    obtain ⟨binding, hbinding⟩ := Option.isSome_iff_exists.1 hsome
    obtain ⟨typeOnly, hsingle⟩ := ofItem_of_single hbinding (h.single node hmem hsome)
    have hpresent : binding ∈ present plan (Layout.ofModule module) := by
      rw [Layout.ofModule, present_ofItems]
      exact List.mem_filterMap.2 ⟨node, hmem, hbinding⟩
    have hregistered := mem_bindings_of_mem_present h.once hpresent
    rw [hsingle] at hitem
    rw [List.mem_singleton.1 hitem]
    exact ⟨writtenImport plan binding,
      List.mem_append_right _ (List.mem_map_of_mem hregistered), rfl, rfl, rfl⟩

/-- The names that are bound afterwards: those that were, and those that are added. -/
theorem ImportsApart.map_bound_perm (h : ImportsApart plan module) :
    ((writtenBindings plan module).map ImportBinding.bound).Perm
      (boundNames module ++ addedNames plan module) := by
  have hcatalogs : (catalogBindings plan module).map ImportBinding.bound =
      (present plan (Layout.ofModule module)).map Binding.name := by
    rw [Layout.ofModule, present_ofItems]
    exact bound_eq_name_of_single h.single
  have hsource := (ofModule_perm plan module).map ImportBinding.bound
  rw [List.map_append, hcatalogs] at hsource
  have hnames := map_name_bindings_perm h.once
  have hwritten : (writtenBindings plan module).map ImportBinding.bound =
      (otherBindings plan module).map ImportBinding.bound ++
        ((initializerEdits plan (Layout.ofModule module)).map fun _ ↦ initializerName) ++
        (bindings plan (Layout.ofModule module)).map Binding.name := by
    unfold writtenBindings
    rw [List.map_append, List.map_append, List.map_map, List.map_map]
    rfl
  rw [hwritten, addedNames]
  refine (hnames.append_left _).trans (List.Perm.trans ?_ (hsource.symm.append_right _))
  rw [List.append_assoc, List.append_assoc]
  refine List.Perm.append_left _ ?_
  rw [← List.append_assoc, ← List.append_assoc]
  exact List.perm_append_comm.append_right _

/-! ## Imports that are kept -/

/-- What an import of a catalog binds is still bound only to the name that its locale has now. -/
theorem exists_registered_of_same (hlibrary : localeOf? plan plan.library = none)
    (hnames : (boundNames module).Nodup)
    (hnode : node ∈ module.items) (hcatalog : catalogOf? plan node = some binding)
    (himported : imported ∈ ImportBinding.ofItem node)
    (hsame : ∃ same ∈ writtenBindings plan module, SameImport imported same) :
    ∃ registered ∈ bindings plan (Layout.ofModule module),
      registered.locale = binding.locale ∧ registered.name = imported.bound := by
  obtain ⟨same, hwritten, hsource, -, hbound⟩ := hsame
  rcases List.mem_append.1 hwritten with hkept | hregistered
  · rcases List.mem_append.1 hkept with hother | hinitializer
    · -- Another import binds the name as well, but the names of the source are different.
      have hsome := isCatalogImport_of_catalogOf? hcatalog
      have hmem : imported ∈ catalogBindings plan module :=
        List.mem_flatMap.2 ⟨node, List.mem_filter.2 ⟨hnode, hsome⟩, himported⟩
      have hsplit := ((ofModule_perm plan module).map ImportBinding.bound).nodup_iff.1 hnames
      rw [List.map_append] at hsplit
      have htwice := List.disjoint_of_nodup_append hsplit (List.mem_map_of_mem hother)
      exact absurd (hbound ▸ List.mem_map_of_mem hmem) htwice
    · obtain ⟨edit, -, rfl⟩ := List.mem_map.1 hinitializer
      exact absurd hsource.symm (source_ne_library hlibrary hcatalog himported)
  · obtain ⟨registered, hmem, rfl⟩ := List.mem_map.1 hregistered
    rw [source_of_catalogOf? hcatalog himported] at hsource
    exact ⟨registered, hmem, specifierOf_injective plan hsource, hbound⟩

/-- Imports of one catalog whose names are still bound bind the same name, that of the locale. -/
theorem bound_eq_of_locale_eq (hlibrary : localeOf? plan plan.library = none)
    (hnames : (boundNames module).Nodup)
    (hsame : ∀ imported ∈ ImportBinding.ofModule module,
      ∃ same ∈ writtenBindings plan module, SameImport imported same)
    {first second : Node} (hfirst : first ∈ module.items) (hsecond : second ∈ module.items)
    (hbinding : catalogOf? plan first = some binding) (hother : catalogOf? plan second = some other)
    (hlocale : binding.locale = other.locale) (himported : imported ∈ ImportBinding.ofItem first)
    (hitem : same ∈ ImportBinding.ofItem second) : imported.bound = same.bound := by
  obtain ⟨registered, hregistered, hlocale', hname⟩ := exists_registered_of_same hlibrary hnames
    hfirst hbinding himported (hsame _ (List.mem_flatMap.2 ⟨first, hfirst, himported⟩))
  obtain ⟨again, hagain, hlocale'', hname'⟩ := exists_registered_of_same hlibrary hnames
    hsecond hother hitem (hsame _ (List.mem_flatMap.2 ⟨second, hsecond, hitem⟩))
  have heq := (sorted_bindings plan _).eq_of_locale_eq hregistered hagain
    (hlocale'.trans (hlocale.trans hlocale''.symm))
  rw [← hname, ← hname', heq]

/-- Where the names of a source are different, so are those of each import of a catalog, and two
imports of catalogs have none in common. -/
theorem nodup_of_catalogs (plan : Plan) (hnames : (boundNames module).Nodup) :
    (∀ node ∈ module.items.filter (isCatalogImport plan),
      ((ImportBinding.ofItem node).map ImportBinding.bound).Nodup) ∧
    (module.items.filter (isCatalogImport plan)).Pairwise fun first second ↦
      List.Disjoint ((ImportBinding.ofItem first).map ImportBinding.bound)
        ((ImportBinding.ofItem second).map ImportBinding.bound) := by
  have hsplit := ((ofModule_perm plan module).map ImportBinding.bound).nodup_iff.1 hnames
  rw [List.map_append] at hsplit
  have hcatalogs := (List.nodup_append.1 hsplit).2.1
  rw [catalogBindings, List.map_flatMap, List.nodup_flatMap] at hcatalogs
  exact hcatalogs

/-- Imports of catalogs whose names are all still bound are apart. -/
theorem importsApart_of_same (hlibrary : localeOf? plan plan.library = none)
    (hnames : (boundNames module).Nodup)
    (hsame : ∀ imported ∈ ImportBinding.ofModule module,
      ∃ same ∈ writtenBindings plan module, SameImport imported same) :
    ImportsApart plan module := by
  obtain ⟨heach, hapart⟩ := nodup_of_catalogs plan hnames
  constructor
  · intro node hnode hsome
    obtain ⟨binding, hbinding⟩ := Option.isSome_iff_exists.1 hsome
    obtain ⟨typeOnly, hdefault⟩ := exists_default_of_catalogOf? hbinding
    have hnodup := heach node (List.mem_filter.2 ⟨hnode, hsome⟩)
    match hitem : ImportBinding.ofItem node with
    | [] =>
      rw [hitem] at hdefault
      cases hdefault
    | [_] => rfl
    | first :: second :: rest =>
      have hfirst : first ∈ ImportBinding.ofItem node := by simp [hitem]
      have hsecond : second ∈ ImportBinding.ofItem node := by simp [hitem]
      have heq := bound_eq_of_locale_eq hlibrary hnames hsame hnode hnode hbinding hbinding rfl
        hfirst hsecond
      rw [hitem] at hnodup
      exact absurd (heq ▸ List.mem_cons_self) (List.nodup_cons.1 hnodup).1
  · rw [Layout.ofModule, present_ofItems, locales, List.Nodup, List.pairwise_map,
      List.pairwise_filterMap]
    rw [List.pairwise_filter] at hapart
    refine hapart.imp_of_mem fun {first second} hfirst hsecond hdisjoint ↦ ?_
    intro binding hbinding other hother hlocale
    obtain ⟨typeOnly, himported⟩ := exists_default_of_catalogOf? hbinding
    obtain ⟨typeOnly', hitem⟩ := exists_default_of_catalogOf? hother
    have heq := bound_eq_of_locale_eq hlibrary hnames hsame hfirst hsecond hbinding hother hlocale
      himported hitem
    exact hdisjoint (isCatalogImport_of_catalogOf? hbinding)
      (isCatalogImport_of_catalogOf? hother) (List.mem_map_of_mem himported)
      (heq ▸ List.mem_map_of_mem hitem)

/-- A text is a module whose imports bind every name that those of another module bind, to the same
imports, and bind no name twice. -/
def KeepsImports (markup : Bool) (module : Module) (output : String) : Prop :=
  ∃ again, Module.parse? markup output = some again ∧
    (∀ imported ∈ ImportBinding.ofModule module,
      ∃ same ∈ ImportBinding.ofModule again, SameImport imported same) ∧
    (boundNames again).Nodup

/-- Let the imports of a source bind different names. An output that is no module does not keep
them. One whose imports bind what was written keeps them exactly when the imports of catalogs bind a
single name each, no catalog is imported twice, and the names that are added are different from each
other and from those that the source imports. -/
theorem keepsImports_iff (hlibrary : localeOf? plan plan.library = none)
    (h : ofSource plan path code = .ok outcome) :
    ∃ module, Module.parse? path.hasMarkup code = some module ∧
      ((boundNames module).Nodup →
        (Module.parse? path.hasMarkup outcome.output = none →
          ¬ KeepsImports path.hasMarkup module outcome.output) ∧
        ∀ again, Module.parse? path.hasMarkup outcome.output = some again →
          (ImportBinding.ofModule again).Perm (writtenBindings plan module) →
          (KeepsImports path.hasMarkup module outcome.output ↔
            ImportsApart plan module ∧ (boundNames module ++ addedNames plan module).Nodup)) := by
  obtain ⟨module, hmodule, -⟩ := ofSource_eq_ok_iff.1 h
  refine ⟨module, hmodule, fun hnames ↦ ⟨?_, ?_⟩⟩
  · rintro hnone ⟨again, hagain, -⟩
    rw [hnone] at hagain
    cases hagain
  · intro again hagain hwritten
    have hbound := hwritten.map ImportBinding.bound
    constructor
    · rintro ⟨same, hsame, hkept, hnodup⟩
      cases hagain.symm.trans hsame
      have hapart := importsApart_of_same hlibrary hnames fun imported himported ↦ by
        obtain ⟨other, hother, hequal⟩ := hkept imported himported
        exact ⟨other, hwritten.mem_iff.1 hother, hequal⟩
      exact ⟨hapart, (hbound.trans hapart.map_bound_perm).nodup_iff.1 hnodup⟩
    · rintro ⟨hapart, hnodup⟩
      refine ⟨again, hagain, fun imported himported ↦ ?_, ?_⟩
      · obtain ⟨other, hother, hequal⟩ := hapart.exists_same himported
        exact ⟨other, hwritten.mem_iff.2 hother, hequal⟩
      · exact (hbound.trans hapart.map_bound_perm).nodup_iff.2 hnodup

/-- What the entry file imports after its catalog was registered. -/
theorem ofModule_registeredEntry :
    (Module.parse? (Path.hasMarkup ⟨"App.tsx"⟩) (registeredEntry "\n")).map
        ImportBinding.ofModule =
      some [.value "localise-ai-sdk" "initLocalisation",
        ⟨"../translations/en.json", .byDefault, "en", false⟩] := by
  decide +kernel

/-- The import of a catalog is added to an entry file that imports the initializer alone. -/
theorem keepsImports_entry :
    ∃ module outcome, ofSource plainPlan ⟨"App.tsx"⟩ (entry "\n") = .ok outcome ∧
      Module.parse? (Path.hasMarkup ⟨"App.tsx"⟩) (entry "\n") = some module ∧
      KeepsImports (Path.hasMarkup ⟨"App.tsx"⟩) module outcome.output := by
  have hedits : (Module.parse? (Path.hasMarkup ⟨"App.tsx"⟩) (entry "\n")).map (fun module ↦
      ((catalogStatements plainPlan (Layout.ofModule module)).mapM (removal? (entry "\n").toList),
        editsOf plainPlan module [])) =
      some (some [], [.insertAt 51 "\nimport en from \"../translations/en.json\";"]) := by
    decide +kernel
  have happly : Edit.applyAll? (entry "\n")
      [.insertAt 51 "\nimport en from \"../translations/en.json\";"] =
        some (registeredEntry "\n") := by
    rw [Edit.applyAll?, List.mergeSort_singleton]
    decide +kernel
  have hbefore : (Module.parse? (Path.hasMarkup ⟨"App.tsx"⟩) (entry "\n")).map (fun module ↦
      (decide (ImportsApart plainPlan module), boundNames module, addedNames plainPlan module,
        writtenBindings plainPlan module)) =
      some (true, ["initLocalisation"], ["en"],
        [.value "localise-ai-sdk" "initLocalisation",
          ⟨"../translations/en.json", .byDefault, "en", false⟩]) := by
    decide +kernel
  obtain ⟨outcome, houtcome, houtput⟩ := exists_ofSource_of_edits hedits happly
  obtain ⟨again, hagain, hbindings⟩ := Option.map_eq_some_iff.1 ofModule_registeredEntry
  rw [← houtput] at hagain
  obtain ⟨module, hmodule, hkeeps⟩ := keepsImports_iff (by decide) houtcome
  rw [hmodule, Option.map_some] at hbefore
  obtain ⟨hapart, hevaluated⟩ := Prod.mk.inj (Option.some.inj hbefore)
  obtain ⟨hbound, hevaluated⟩ := Prod.mk.inj hevaluated
  obtain ⟨hadded, hwritten⟩ := Prod.mk.inj hevaluated
  have hnames : (boundNames module).Nodup := by
    rw [hbound]
    decide
  have hperm : (ImportBinding.ofModule again).Perm (writtenBindings plainPlan module) := by
    rw [hwritten, hbindings]
  refine ⟨module, outcome, houtcome, hmodule,
    ((hkeeps hnames).2 again hagain hperm).2 ⟨of_decide_eq_true hapart, ?_⟩⟩
  rw [hbound, hadded]
  decide

/-- An entry file that imports something else from a catalog as well. -/
def catalogMeta : String :=
  initializerLine ++ "\nimport en, \x7b meta \x7d from \"../translations/en.json\";" ++
    callLines "\n"

/-- The edits that register the catalog: its import is taken out and put in again. -/
def catalogMetaEdits : List Edit :=
  [.delete 52 104, .insertAt 51 "\nimport en from \"../translations/en.json\";"]

/-- What an import of a catalog binds besides the catalog is no longer bound. -/
theorem not_keepsImports_catalogMeta :
    ∃ module outcome, ofSource plainPlan ⟨"App.tsx"⟩ catalogMeta = .ok outcome ∧
      Module.parse? (Path.hasMarkup ⟨"App.tsx"⟩) catalogMeta = some module ∧
      (boundNames module).Nodup ∧
      ¬ KeepsImports (Path.hasMarkup ⟨"App.tsx"⟩) module outcome.output := by
  have hedits : (Module.parse? (Path.hasMarkup ⟨"App.tsx"⟩) catalogMeta).map (fun module ↦
      ((catalogStatements plainPlan (Layout.ofModule module)).mapM (removal? catalogMeta.toList),
        editsOf plainPlan module [.delete 52 104])) =
      some (some [.delete 52 104], catalogMetaEdits) := by
    decide +kernel
  have happly : Edit.applyAll? catalogMeta catalogMetaEdits = some (registeredEntry "\n") := by
    rw [catalogMetaEdits, Edit.applyAll?_pair _ (by decide)]
    decide +kernel
  have hbefore : (Module.parse? (Path.hasMarkup ⟨"App.tsx"⟩) catalogMeta).map
      ImportBinding.ofModule =
      some [.value "localise-ai-sdk" "initLocalisation",
        ⟨"../translations/en.json", .byDefault, "en", false⟩,
        .value "../translations/en.json" "meta"] := by
    decide +kernel
  obtain ⟨outcome, houtcome, houtput⟩ := exists_ofSource_of_edits hedits happly
  obtain ⟨module, hmodule, hbindings⟩ := Option.map_eq_some_iff.1 hbefore
  refine ⟨module, outcome, houtcome, hmodule, ?_, ?_⟩
  · rw [boundNames, hbindings]
    decide
  · rintro ⟨again, hagain, hkept, -⟩
    obtain ⟨same, hsame, hafter⟩ := Option.map_eq_some_iff.1 ofModule_registeredEntry
    rw [houtput] at hagain
    cases hagain.symm.trans hsame
    have hmeta : ImportBinding.value "../translations/en.json" "meta" ∈
        ImportBinding.ofModule module := by
      rw [hbindings]
      decide
    obtain ⟨imported, himported, hequal⟩ := hkept _ hmeta
    have hbound : imported.bound ∈ boundNames again := List.mem_map_of_mem himported
    rw [boundNames, hafter, hequal.bound] at hbound
    exact absurd hbound (by decide)

end Phrasebook.Registration
