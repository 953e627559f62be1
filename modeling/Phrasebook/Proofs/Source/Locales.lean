import Phrasebook.Proofs.Source.Literal
import Phrasebook.Proofs.Source.Registration

/-!
# Every locale once

The locales that are registered are those of the catalogs that are imported, those of the plan and
the standard locale. Each of them gets one line in the block of imports, one property in a call
that is added, and one property in a call that is there and lacks it. A catalog keeps the name that
its first import binds; every other catalog is bound to the name that is made of its locale.
-/

namespace Phrasebook

open Syntax

namespace Registration

variable {layout : Layout} {statement : ImportStatement} {binding other : Binding}
variable {known added all : List Binding} {locale : String} {nodes : List Node}
variable {plan : Plan} {path : Path} {code : String} {module : Module}

/-- An import registers a locale: it binds the catalog of the locale to a name. -/
structure ImportsCatalog (plan : Plan) (binding : Binding) (statement : ImportStatement) :
    Prop where
  source : statement.source = specifierOf plan binding.locale
  plain : '/' ∉ binding.locale.toList
  bound : statement.default? = some binding.name

theorem eq_specifierOf_of_localeOf? {source : String} (h : localeOf? plan source = some locale) :
    source = specifierOf plan locale := by
  unfold localeOf? at h
  dsimp only at h
  split at h
  · next hstart =>
    obtain ⟨file, hsource⟩ := List.isPrefixOf_iff_prefix.1 hstart
    rw [← hsource, List.drop_left] at h
    split at h
    · next hending =>
      obtain ⟨front, rfl⟩ := List.isSuffixOf_iff_suffix.1 hending
      rw [List.length_append, Nat.add_sub_cancel, List.take_left] at h
      split at h
      · cases h
      · cases h
        rw [← String.toList_inj, ← hsource, toList_specifierOf, String.toList_ofList,
          String.toList_ofList]
    · cases h
  · cases h

/-- An import registers a locale exactly when it binds the catalog of the locale. -/
theorem bindingOf?_eq_some_iff :
    bindingOf? plan statement = some binding ↔ ImportsCatalog plan binding statement := by
  unfold bindingOf?
  constructor
  · intro h
    obtain ⟨locale, hlocale, hname⟩ := Option.bind_eq_some_iff.1 h
    obtain ⟨name, hbound, rfl⟩ := Option.map_eq_some_iff.1 hname
    exact ⟨eq_specifierOf_of_localeOf? hlocale, plain_of_localeOf? hlocale, hbound⟩
  · rintro ⟨hsource, hplain, hbound⟩
    rw [hsource, localeOf?_specifierOf plan hplain, hbound]
    rfl

/-- The bindings of the catalogs that a module imports. -/
def present (plan : Plan) (layout : Layout) : List Binding :=
  layout.imports.filterMap (bindingOf? plan)

theorem mem_present :
    binding ∈ present plan layout ↔
      ∃ statement ∈ layout.imports, ImportsCatalog plan binding statement := by
  simp only [present, List.mem_filterMap, bindingOf?_eq_some_iff]

theorem mem_locales_present :
    locale ∈ locales (present plan layout) ↔
      ∃ statement ∈ layout.imports, ∃ name, ImportsCatalog plan ⟨locale, name⟩ statement := by
  constructor
  · intro h
    obtain ⟨binding, hbinding, rfl⟩ := List.mem_map.1 h
    obtain ⟨statement, hstatement, himports⟩ := mem_present.1 hbinding
    exact ⟨statement, hstatement, binding.name, himports⟩
  · rintro ⟨statement, hstatement, name, himports⟩
    exact List.mem_map_of_mem (mem_present.2 ⟨statement, hstatement, himports⟩)

theorem mem_register_of_mem (h : binding ∈ known) (other : Binding) :
    binding ∈ register other known := by
  induction known with
  | nil => cases h
  | cons first rest ih =>
    unfold register
    split
    · exact h
    · split
      · exact List.mem_cons_of_mem _ h
      · rcases List.mem_cons.1 h with rfl | hmem
        · exact List.mem_cons_self
        · exact List.mem_cons_of_mem _ (ih hmem)

theorem eq_or_mem_of_mem_register (h : binding ∈ register other known) :
    binding = other ∨ binding ∈ known := by
  induction known with
  | nil => exact .inl (List.mem_singleton.1 h)
  | cons first rest ih =>
    unfold register at h
    split at h
    · exact .inr h
    · split at h
      · exact List.mem_cons.1 h
      · rcases List.mem_cons.1 h with rfl | hmem
        · exact .inr List.mem_cons_self
        · exact (ih hmem).imp_right (List.mem_cons_of_mem _)

theorem mem_registerAll_of_mem (h : binding ∈ known) (added : List Binding) :
    binding ∈ registerAll known added := by
  induction added generalizing known with
  | nil => exact h
  | cons first rest ih => exact ih (mem_register_of_mem h first)

theorem mem_or_mem_of_mem_registerAll (h : binding ∈ registerAll known added) :
    binding ∈ added ∨ binding ∈ known := by
  induction added generalizing known with
  | nil => exact .inr h
  | cons first rest ih =>
    rcases ih h with hrest | hknown
    · exact .inl (List.mem_cons_of_mem _ hrest)
    · rcases eq_or_mem_of_mem_register hknown with rfl | hmem
      · exact .inl List.mem_cons_self
      · exact .inr hmem

/-- The first binding of a locale is the one that is registered. -/
theorem mem_registerAll_of_first {before after : List Binding}
    (hbefore : binding.locale ∉ locales before) :
    binding ∈ registerAll [] (before ++ binding :: after) := by
  have hnew : binding.locale ∉ locales (registerAll [] before) := by
    rw [mem_locales_registerAll]
    rintro (hmem | hnil)
    · exact hbefore hmem
    · cases hnil
  have hadded : binding ∈ register binding (registerAll [] before) :=
    (register_perm hnew).mem_iff.2 List.mem_cons_self
  have hlater := mem_registerAll_of_mem hadded after
  unfold registerAll at hlater ⊢
  rw [List.foldl_append, List.foldl_cons]
  exact hlater

/-- Bindings have every locale that a module imports or a plan names, in order and once, each with
the name of its first import, or with the name that is made of it. -/
structure Registers (plan : Plan) (layout : Layout) (all : List Binding) : Prop where
  sorted : Sorted all
  mem_iff : ∀ locale, locale ∈ locales all ↔
    (∃ statement ∈ layout.imports, ∃ name, ImportsCatalog plan ⟨locale, name⟩ statement) ∨
      locale ∈ plan.locales ∨ locale = plan.standardLocale
  kept : ∀ before statement after binding, layout.imports = before ++ statement :: after →
    ImportsCatalog plan binding statement →
    (∀ earlier ∈ before, ∀ name, ¬ ImportsCatalog plan ⟨binding.locale, name⟩ earlier) →
    binding ∈ all
  derived : ∀ binding ∈ all,
    (∀ statement ∈ layout.imports, ∀ name,
      ¬ ImportsCatalog plan ⟨binding.locale, name⟩ statement) →
    binding.name = nameFor binding.locale

/-- The bindings of a registration have every locale that is imported or named, in order and once.
-/
theorem registers_bindings (plan : Plan) (layout : Layout) :
    Registers plan layout (bindings plan layout) where
  sorted := sorted_bindings plan layout
  mem_iff := by
    intro locale
    rw [mem_locales_bindings, ← mem_locales_present, List.mem_append, List.mem_singleton, present]
  kept := by
    intro before statement after binding hlayout himports hfirst
    have hbefore : binding.locale ∉ locales (before.filterMap (bindingOf? plan)) := by
      intro hmem
      obtain ⟨other, hother, hlocale⟩ := List.mem_map.1 hmem
      obtain ⟨earlier, hearlier, hcatalog⟩ := List.mem_filterMap.1 hother
      refine hfirst earlier hearlier other.name ?_
      rw [← hlocale]
      exact bindingOf?_eq_some_iff.1 hcatalog
    rw [bindings_eq_registerAll, hlayout, List.filterMap_append,
      List.filterMap_cons_some (bindingOf?_eq_some_iff.2 himports), List.append_assoc,
      List.cons_append]
    exact mem_registerAll_of_first hbefore
  derived := by
    intro binding hbinding hnone
    rw [bindings_eq_registerAll] at hbinding
    rcases mem_or_mem_of_mem_registerAll hbinding with hadded | hnil
    · rcases List.mem_append.1 hadded with hpresent | hplanned
      · obtain ⟨statement, hstatement, himports⟩ := mem_present.1 hpresent
        exact absurd himports (hnone statement hstatement binding.name)
      · obtain ⟨locale, -, rfl⟩ := List.mem_map.1 hplanned
        rfl
    · cases hnil

def importLine (plan : Plan) (binding : Binding) : String :=
  "import " ++ binding.name ++ " from " ++ Json.quote (specifierOf plan binding.locale) ++ ";"

theorem importPrecedes_trans (first second third : String × String)
    (hfirst : importPrecedes first second = true) (hsecond : importPrecedes second third = true) :
    importPrecedes first third = true := by
  simp only [importPrecedes, Bool.or_eq_true, Bool.and_eq_true, decide_eq_true_eq, beq_iff_eq]
    at hfirst hsecond ⊢
  rcases hfirst with hlt | ⟨heq, hle⟩
  · rcases hsecond with hlater | ⟨hsame, -⟩
    · exact .inl (String.lt_trans hlt hlater)
    · exact .inl (hsame ▸ hlt)
  · rcases hsecond with hlater | ⟨hsame, hname⟩
    · exact .inl (heq ▸ hlater)
    · exact .inr ⟨heq.trans hsame, String.le_trans hle hname⟩

theorem importPrecedes_total (first second : String × String) :
    (importPrecedes first second || importPrecedes second first) = true := by
  simp only [importPrecedes, Bool.or_eq_true, Bool.and_eq_true, decide_eq_true_eq, beq_iff_eq]
  by_cases hsame : first.1 = second.1
  · rcases String.le_total first.2 second.2 with hle | hge
    · exact .inl (.inr ⟨hsame, hle⟩)
    · exact .inr (.inr ⟨hsame.symm, hge⟩)
  · by_cases hlt : first.1 < second.1
    · exact .inl (.inl hlt)
    · exact .inr (.inl (lt_of_ne_of_not_lt hsame hlt))

/-- Whether the import of one catalog comes before that of another one. -/
def precedesIn (plan : Plan) (first second : Binding) : Bool :=
  importPrecedes (specifierOf plan first.locale, first.name)
    (specifierOf plan second.locale, second.name)

theorem importLines_eq (plan : Plan) (all : List Binding) :
    importLines plan all = (all.mergeSort (precedesIn plan)).map (importLine plan) := by
  have hmap : (all.mergeSort (precedesIn plan)).map
      (fun binding ↦ (specifierOf plan binding.locale, binding.name)) = catalogImports plan all :=
    List.map_mergeSort fun _ _ _ _ ↦ rfl
  have hlines : importLines plan all = (catalogImports plan all).map fun entry ↦
      "import " ++ entry.2 ++ " from " ++ Json.quote entry.1 ++ ";" := rfl
  rw [hlines, ← hmap, List.map_map]
  rfl

/-- The block of imports has one line for every binding, in the order of the modules. -/
theorem exists_importLines_eq (plan : Plan) (hsorted : Sorted all) :
    ∃ ordered : List Binding, ordered.Perm all ∧
      (ordered.Pairwise fun first second ↦
        specifierOf plan first.locale < specifierOf plan second.locale) ∧
      importLines plan all = ordered.map (importLine plan) := by
  have hperm : (all.mergeSort (precedesIn plan)).Perm all := List.mergeSort_perm ..
  have hnodup : ((all.mergeSort (precedesIn plan)).map Binding.locale).Nodup :=
    (hperm.map Binding.locale).nodup_iff.2 hsorted.nodup
  have hordered : (all.mergeSort (precedesIn plan)).Pairwise fun first second ↦
      precedesIn plan first second = true := by
    apply List.pairwise_mergeSort
    · exact fun first second third ↦ importPrecedes_trans
        (specifierOf plan first.locale, first.name) (specifierOf plan second.locale, second.name)
        (specifierOf plan third.locale, third.name)
    · exact fun first second ↦ importPrecedes_total
        (specifierOf plan first.locale, first.name) (specifierOf plan second.locale, second.name)
  refine ⟨_, hperm, ?_, importLines_eq plan all⟩
  refine ((List.pairwise_map.1 hnodup).and hordered).imp fun {first second} h ↦ ?_
  obtain ⟨hne, hbefore⟩ := h
  simp only [precedesIn, importPrecedes, Bool.or_eq_true, Bool.and_eq_true, decide_eq_true_eq,
    beq_iff_eq] at hbefore
  exact hbefore.resolve_right fun hsame ↦ hne (specifierOf_injective plan hsame.1)

/-! ## The call -/

def isInitialCall : Node → Bool
  | .mk .call _ (callee :: _) => callee.isNamed initializerName
  | _ => false

theorem isInitialCall_of_ne_call {node : Node} (h : node.kind ≠ .call) :
    isInitialCall node = false := by
  unfold isInitialCall
  split
  · exact absurd rfl h
  · rfl

theorem isInitialCall_of_parts_eq_nil {node : Node} (h : node.parts = []) :
    isInitialCall node = false := by
  unfold isInitialCall
  split
  · cases h
  · rfl

def describe (call : Node) : InitialCall :=
  describeCall call.span call.parts

/-- The first call in a call of the initializer is that call itself. -/
theorem callIn?_of_isInitialCall {node : Node} (h : isInitialCall node = true) :
    callIn? node = some (describe node) := by
  obtain ⟨kind, span, parts⟩ := node
  unfold isInitialCall at h
  split at h
  · next callSpan callee rest hnode =>
    obtain ⟨rfl, rfl, rfl⟩ := Node.mk.inj hnode
    obtain ⟨calleeKind, calleeSpan, calleeParts⟩ := callee
    obtain rfl : calleeKind = .name initializerName := beq_iff_eq.1 h
    rw [callIn?]
    exact if_pos rfl
  · cases h

theorem callIn?_of_not_isInitialCall {node : Node} (h : isInitialCall node = false) :
    callIn? node = callAmong? node.parts := by
  obtain ⟨kind, span, parts⟩ := node
  unfold callIn?
  split
  · next name calleeSpan calleeParts rest =>
    have hother : name ≠ initializerName := by
      rintro rfl
      exact Bool.eq_false_iff.1 h (beq_self_eq_true (Kind.name initializerName))
    exact if_neg hother
  · rfl

/-- The call that properties are added to is the first one in the tree. -/
theorem callAmong?_eq (nodes : List Node) :
    callAmong? nodes = ((Node.allOf nodes).find? isInitialCall).map describe := by
  match nodes with
  | [] => rfl
  | .mk kind span parts :: rest =>
    have hparts := callAmong?_eq parts
    have hrest := callAmong?_eq rest
    rw [callAmong?, hrest, Node.allOf, Node.all, List.cons_append, List.find?_cons,
      List.find?_append]
    cases hcall : isInitialCall (.mk kind span parts) with
    | true =>
      rw [callIn?_of_isInitialCall hcall]
      rfl
    | false =>
      rw [callIn?_of_not_isInitialCall hcall, Node.parts, hparts]
      cases (Node.allOf parts).find? isInitialCall <;> rfl

/-- The second argument of a call, without the dots that spread it. -/
def secondArgument? (call : Node) : Option Node :=
  (Node.argumentsOf call.parts)[1]?.map Node.withoutSpread

/-- The names that a call passes properties under, where it has an object literal or no second
argument. -/
def passedNames? (call : Node) : Option (List String) :=
  match secondArgument? call with
  | none => some []
  | some (.mk .object _ properties) => some (properties.filterMap propertyName?)
  | some _ => none

/-- Where an argument is put that a call lacks: behind the first one, or before the parenthesis that
closes the call. -/
def argumentOffset (call : Node) : Nat :=
  match Node.argumentsOf call.parts with
  | [] => call.stop - 1
  | first :: _ => first.withoutSpread.stop

/-- The edits that put properties into a call: none for no property, else one with all of them,
behind the last property, in the place of empty braces, or as an argument. -/
inductive Completes (call : Node) (properties : List String) : List Edit → Prop where
  | complete (none : properties = []) : Completes call properties []
  | behind {span : Span} {others : List Node} {last : Node} (missing : properties ≠ [])
      (second : secondArgument? call = some (.mk .object span others))
      (last_eq : others.getLast? = some last) :
      Completes call properties
        [.insertAt last.withoutSpread.stop (", " ++ ", ".intercalate properties)]
  | within {span : Span} (missing : properties ≠ [])
      (second : secondArgument? call = some (.mk .object span [])) :
      Completes call properties [⟨span.start, span.stop, objectOf properties⟩]
  | argument (missing : properties ≠ []) (second : secondArgument? call = none) :
      Completes call properties
        [.insertAt (argumentOffset call) (", " ++ objectOf properties)]

theorem describe_of_missing {call : Node} (h : secondArgument? call = none) :
    describe call = ⟨[], .missing (argumentOffset call)⟩ := by
  unfold secondArgument? at h
  unfold describe describeCall argumentOffset
  split
  · next hnone => rw [hnone]; rfl
  · next first hfirst => rw [hfirst]
  · next first second rest harguments =>
    rw [harguments] at h
    cases h

/-- A call with an object literal is described by the names of its properties and the range of the
literal. -/
theorem describe_of_object {call : Node} {span : Span} {properties : List Node}
    (h : secondArgument? call = some (.mk .object span properties)) :
    describe call = ⟨properties.filterMap propertyName?, .object span.start span.stop
      (properties.getLast?.map fun last ↦ last.withoutSpread.stop)⟩ := by
  unfold secondArgument? at h
  unfold describe describeCall
  split
  · next hnone =>
    rw [hnone] at h
    cases h
  · next first hfirst =>
    rw [hfirst] at h
    cases h
  · next first second rest harguments =>
    rw [harguments] at h
    have hsecond : second.withoutSpread = .mk .object span properties := Option.some.inj h
    rw [hsecond]

/-- A call that passes names gets the properties of exactly the locales that it does not name. -/
theorem completes_propertyEdits {call : Node} {names : List String}
    (h : passedNames? call = some names) (all : List Binding) :
    missingProperties (describe call) all =
        (all.filter fun binding ↦ !names.contains binding.locale).map property ∧
      ∀ properties, Completes call properties (propertyEdits (describe call) properties) := by
  unfold passedNames? at h
  split at h
  · next hmissing =>
    cases h
    rw [describe_of_missing hmissing]
    refine ⟨rfl, fun properties ↦ ?_⟩
    cases properties with
    | nil => exact .complete rfl
    | cons first rest => exact .argument nofun hmissing
  · next span properties hobject =>
    cases h
    rw [describe_of_object hobject]
    refine ⟨rfl, fun added ↦ ?_⟩
    cases added with
    | nil => exact .complete rfl
    | cons first rest =>
      cases hlast : properties.getLast? with
      | none =>
        obtain rfl := List.getLast?_eq_none_iff.1 hlast
        exact .within nofun hobject
      | some last => exact .behind nofun hobject hlast
  · cases h

/-! ## What a registration emits -/

/-- The lines of imports, the edits of a call that is there and the call that is added where there
is none, as a registration of bindings in a module emits them. -/
structure Emits (plan : Plan) (module : Module) (all : List Binding) (lines : List String)
    (properties : List Edit) (call? : Option String) : Prop where
  /-- One line for each binding, in the order of the modules. -/
  lines : ∃ ordered : List Binding, ordered.Perm all ∧
    (ordered.Pairwise fun first second ↦
      specifierOf plan first.locale < specifierOf plan second.locale) ∧
    lines = ordered.map (importLine plan)
  /-- A call that is there gets one property for each binding whose locale it does not name. -/
  completed : ∀ call, (Node.allOf module.items).find? isInitialCall = some call →
    call? = none ∧ ∀ names, passedNames? call = some names →
      Completes call
        ((all.filter fun binding ↦ !names.contains binding.locale).map Registration.property)
        properties
  /-- A call that is added has one property for each binding. -/
  called : (Node.allOf module.items).find? isInitialCall = none →
    properties = [] ∧ call? = some (initializerName ++ "(" ++ Json.quote plan.standardLocale ++
      ", " ++ objectOf (all.map Registration.property) ++ ");")

def completion (module : Module) (all : List Binding) : List Edit :=
  (((Node.allOf module.items).find? isInitialCall).map fun call ↦
    propertyEdits (describe call) (missingProperties (describe call) all)).getD []

def addedCall? (plan : Plan) (module : Module) (all : List Binding) : Option String :=
  if ((Node.allOf module.items).find? isInitialCall).isSome then none
  else some (callStatement plan all)

/-- A registration emits the lines of the imports and what completes the call, or the call itself.
-/
theorem emits (plan : Plan) (module : Module) (hsorted : Sorted all) :
    Emits plan module all (importLines plan all) (completion module all)
      (addedCall? plan module all) where
  lines := exists_importLines_eq plan hsorted
  completed := by
    intro call hcall
    unfold completion addedCall?
    rw [hcall]
    refine ⟨rfl, fun names hnames ↦ ?_⟩
    obtain ⟨hmissing, hcompletes⟩ := completes_propertyEdits hnames all
    rw [Option.map_some, Option.getD_some, hmissing]
    exact hcompletes _
  called := by
    intro hnone
    unfold completion addedCall?
    rw [hnone]
    exact ⟨rfl, rfl⟩

/-- The block of imports and the added call, as they are put in. -/
def block (plan : Plan) (module : Module) : Edit :=
  let all := bindings plan (Layout.ofModule module)
  blockEdit (blockOffset? plan (Layout.ofModule module)) (importLines plan all)
    (addedCall? plan module all)

/-- The edits of a registration, given those that take the imports of catalogs out. -/
def editsOf (plan : Plan) (module : Module) (removals : List Edit) : List Edit :=
  initializerEdits plan (Layout.ofModule module) ++ removals ++
    completion module (bindings plan (Layout.ofModule module)) ++ [block plan module]

/-- A registration applies its edits, and reports all locales. -/
theorem map_ofModule?_eq (plan : Plan) (code : String) (module : Module) :
    (ofModule? plan code module).map (fun outcome ↦ (outcome.output, outcome.locales)) =
      ((catalogStatements plan (Layout.ofModule module)).mapM (removal? code.toList)).bind
        fun removals ↦ (Edit.applyAll? code (editsOf plan module removals)).map fun output ↦
          (output, locales (bindings plan (Layout.ofModule module))) := by
  unfold ofModule? editsOf block completion addedCall?
  rw [callAmong?_eq]
  dsimp only
  rw [Option.map_bind]
  refine congrArg (Option.bind _) (funext fun removals ↦ ?_)
  rw [Function.comp_apply, Option.map_map]
  cases (Node.allOf module.items).find? isInitialCall <;> rfl

/-- What a registration comes to: the locales of its bindings, and the source with all its edits
applied. -/
theorem exists_ofSource_iff (hmodule : Module.parse? path.hasMarkup code = some module)
    (output : String) (registered : List String) :
    (∃ outcome, ofSource plan path code = .ok outcome ∧ outcome.output = output ∧
        outcome.locales = registered) ↔
      registered = locales (bindings plan (Layout.ofModule module)) ∧
        ∃ removals,
          (catalogStatements plan (Layout.ofModule module)).mapM (removal? code.toList) =
            some removals ∧
          Edit.applyAll? code (editsOf plan module removals) = some output := by
  have heq := map_ofModule?_eq plan code module
  constructor
  · rintro ⟨outcome, houtcome, rfl, rfl⟩
    obtain ⟨same, hsame, hregistered⟩ := ofSource_eq_ok_iff.1 houtcome
    cases hmodule.symm.trans hsame
    rw [hregistered, Option.map_some] at heq
    obtain ⟨removals, hremovals, happlied⟩ := Option.bind_eq_some_iff.1 heq.symm
    obtain ⟨output, houtput, hsame⟩ := Option.map_eq_some_iff.1 happlied
    obtain ⟨rfl, hlocales⟩ := Prod.mk.inj hsame
    exact ⟨hlocales.symm, removals, hremovals, houtput⟩
  · rintro ⟨rfl, removals, hremovals, houtput⟩
    rw [hremovals, Option.bind_some, houtput, Option.map_some] at heq
    obtain ⟨outcome, houtcome, hsame⟩ := Option.map_eq_some_iff.1 heq
    obtain ⟨hsame, hlocales⟩ := Prod.mk.inj hsame
    exact ⟨outcome, ofSource_eq_ok_iff.2 ⟨module, hmodule, houtcome⟩, hsame, hlocales⟩

/-- A registration whose edits are known applies them. -/
theorem exists_ofSource_of_edits {output : String} {removals edits : List Edit}
    (h : (Module.parse? path.hasMarkup code).map (fun module ↦
      ((catalogStatements plan (Layout.ofModule module)).mapM (removal? code.toList),
        editsOf plan module removals)) = some (some removals, edits))
    (happly : Edit.applyAll? code edits = some output) :
    ∃ outcome, ofSource plan path code = .ok outcome ∧ outcome.output = output := by
  obtain ⟨module, hmodule, hevaluated⟩ := Option.map_eq_some_iff.1 h
  obtain ⟨hremovals, hedits⟩ := Prod.mk.inj hevaluated
  rw [← hedits] at happly
  obtain ⟨outcome, houtcome, houtput, -⟩ :=
    (exists_ofSource_iff hmodule _ _).2 ⟨rfl, removals, hremovals, happly⟩
  exact ⟨outcome, houtcome, houtput⟩

end Registration

end Phrasebook
