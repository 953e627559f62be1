import Phrasebook.Proofs.Source.CatalogImports
import Phrasebook.Proofs.Source.Places

/-!
# The initializer after a registration

A registration should leave a module that imports the initializer under its own name, and that calls
it as often as before, or once if it was not called. Where the output reads back as the tree that
was written, the calls are as they should be, and the name is imported exactly when an import of the
source binds it already, or when none brings the initializer in, under whatever name. But the output
need not be a module at all: an argument that is added to a call without arguments stands behind a
comma that nothing stands before.
-/

namespace Phrasebook.Registration

open Syntax

variable {plan : Plan} {path : Path} {code : String} {outcome : Outcome} {module again : Module}
variable {node other : Node} {nodes others items rest : List Node} {kind : Kind} {span now : Span}
variable {binding : Binding} {locale : String}

def callsIn (node : Node) : Nat :=
  (Node.all node).countP isInitialCall

def callsAmong (nodes : List Node) : Nat :=
  (Node.allOf nodes).countP isInitialCall

theorem callsAmong_nil : callsAmong [] = 0 := rfl

theorem callsAmong_cons (node : Node) (rest : List Node) :
    callsAmong (node :: rest) = callsIn node + callsAmong rest :=
  List.countP_append ..

theorem callsAmong_append (first second : List Node) :
    callsAmong (first ++ second) = callsAmong first + callsAmong second := by
  unfold callsAmong
  rw [Node.allOf_append, List.countP_append]

theorem callsAmong_eq_zero (h : ∀ node ∈ nodes, callsIn node = 0) : callsAmong nodes = 0 := by
  induction nodes with
  | nil => rfl
  | cons node rest ih =>
    rw [callsAmong_cons, h node List.mem_cons_self,
      ih fun later hlater ↦ h later (List.mem_cons_of_mem _ hlater)]

theorem callsIn_of_parts_eq_nil (h : node.parts = []) : callsIn node = 0 := by
  have hno := isInitialCall_of_parts_eq_nil h
  obtain ⟨kind, span, parts⟩ := node
  obtain rfl : parts = [] := h
  unfold callsIn
  rw [Node.all, List.countP_cons_of_neg (Bool.eq_false_iff.1 hno)]
  rfl

theorem callsIn_call (span : Span) (callee : Node) (arguments : List Node) :
    callsIn (.mk .call span (callee :: arguments)) =
      callsIn callee + callsAmong arguments + if callee.isNamed initializerName then 1 else 0 := by
  rw [← callsAmong_cons]
  unfold callsIn callsAmong
  rw [Node.all, List.countP_cons]
  rfl

theorem callsIn_of_ne_call (hkind : kind ≠ .call) (span : Span) (parts : List Node) :
    callsIn (.mk kind span parts) = callsAmong parts := by
  have hno : isInitialCall (.mk kind span parts) = false := isInitialCall_of_ne_call hkind
  unfold callsIn callsAmong
  rw [Node.all, List.countP_cons_of_neg (Bool.eq_false_iff.1 hno)]

/-- A tree has no call that properties can be added to if it calls the initializer nowhere. -/
theorem callAmong?_eq_none_iff : callAmong? nodes = none ↔ callsAmong nodes = 0 := by
  rw [callAmong?_eq, Option.map_eq_none_iff, List.find?_eq_none]
  exact List.countP_eq_zero.symm

def isPassed : Node → Bool
  | .mk (.shorthand _) _ [] => true
  | .mk .property _ [.mk (.name _) _ [], .mk (.name _) _ []] => true
  | .mk .property _ [.mk (.string _) _ [], .mk (.name _) _ []] => true
  | _ => false

/-- Whether a node is an object of properties that pass catalogs. -/
def isPassedObject : Node → Bool
  | .mk .object _ properties => properties.all isPassed
  | _ => false

/-- Whether a registration adds such a part to a node of some kind: a property to an object, an
object to the arguments of a call, or the name of the initializer to an import. -/
def isGained : Kind → Node → Bool
  | .object, part => isPassed part
  | .call, part => isPassedObject part
  | .importing _ _, .mk (.importNamed imported bound false) _ [] =>
    imported == initializerName && bound == initializerName
  | _, _ => false

/-- Whether an item is an import that a registration adds: of a catalog, or of the initializer. -/
def isAddedImport : Node → Bool
  | .mk (.importing _ false) _ [.mk (.importDefault _) _ []] => true
  | .mk (.importing source false) _ [part] => isGained (.importing source false) part
  | _ => false

def isAddedCall : Node → Bool
  | .mk .statement _ [.mk .call _ [.mk (.name name) _ [], .mk (.string _) _ [], argument]] =>
    name == initializerName && isPassedObject argument
  | _ => false

theorem callsIn_of_isPassed (h : isPassed node = true) : callsIn node = 0 := by
  unfold isPassed at h
  split at h
  · rfl
  · rfl
  · rfl
  · cases h

theorem callsIn_of_isPassedObject (h : isPassedObject node = true) : callsIn node = 0 := by
  unfold isPassedObject at h
  split at h
  · next span properties =>
    rw [callsIn_of_ne_call (by decide)]
    exact callsAmong_eq_zero fun property hproperty ↦
      callsIn_of_isPassed (List.all_eq_true.1 h property hproperty)
  · cases h

theorem callsIn_of_isGained (h : isGained kind node = true) : callsIn node = 0 := by
  unfold isGained at h
  split at h
  · exact callsIn_of_isPassed h
  · exact callsIn_of_isPassedObject h
  · rfl
  · cases h

theorem callsIn_of_isAddedImport (h : isAddedImport node = true) : callsIn node = 0 := by
  unfold isAddedImport at h
  split at h
  · rfl
  · rw [callsIn_of_ne_call (by exact Kind.noConfusion), callsAmong_cons, callsIn_of_isGained h,
      callsAmong_nil]
  · cases h

/-- The call that a registration adds is the only one of the initializer in its item. -/
theorem callsIn_of_isAddedCall (h : isAddedCall node = true) : callsIn node = 1 := by
  unfold isAddedCall at h
  split at h
  · next outer inner name first second text argument =>
    obtain ⟨hname, hargument⟩ := Bool.and_eq_true_iff.1 h
    rw [beq_iff_eq] at hname
    subst hname
    rw [callsIn_of_ne_call (by decide), callsAmong_cons, callsAmong_nil, callsIn_call,
      callsAmong_cons, callsAmong_cons, callsIn_of_isPassedObject hargument, callsAmong_nil]
    rfl
  · cases h

/-! ## Trees that grew -/

mutual

/-- A node reads as another one, with what a registration adds to a call or an import. -/
inductive Grown : Node → Node → Prop where
  | call {span now : Span} {callee same : Node} {parts others : List Node}
      (callee_grown : Grown callee same) (parts_grown : GrownParts .call parts others) :
    Grown (.mk .call span (callee :: parts)) (.mk .call now (same :: others))
  | other {kind : Kind} {span now : Span} {parts others : List Node} (hkind : kind ≠ .call)
      (parts_grown : GrownParts kind parts others) :
    Grown (.mk kind span parts) (.mk kind now others)

/-- The parts of a node of some kind read as others, among which some were added. -/
inductive GrownParts : Kind → List Node → List Node → Prop where
  | nil {kind : Kind} : GrownParts kind [] []
  | cons {kind : Kind} {node other : Node} {rest others : List Node} (first : Grown node other)
      (later : GrownParts kind rest others) : GrownParts kind (node :: rest) (other :: others)
  | gained {kind : Kind} {added : Node} {rest others : List Node}
      (first : isGained kind added = true) (later : GrownParts kind rest others) :
    GrownParts kind rest (added :: others)

end

/-- The items of a module read as others, where imports of catalogs were taken out and imports were
put in. -/
inductive GrownItems (plan : Plan) : List Node → List Node → Prop where
  | nil : GrownItems plan [] []
  | cons {node other : Node} {rest others : List Node} (first : Grown node other)
      (later : GrownItems plan rest others) : GrownItems plan (node :: rest) (other :: others)
  | removed {node : Node} {rest others : List Node} (first : isCatalogImport plan node = true)
      (names : ∀ part ∈ node.parts, part.parts = []) (later : GrownItems plan rest others) :
    GrownItems plan (node :: rest) others
  | imported {added : Node} {rest others : List Node} (first : isAddedImport added = true)
      (later : GrownItems plan rest others) : GrownItems plan rest (added :: others)

theorem Grown.kind_eq (h : Grown node other) : other.kind = node.kind := by
  cases h <;> rfl

mutual

/-- What is added to a node calls nothing. -/
theorem Grown.callsIn_eq {node other : Node} (h : Grown node other) :
    callsIn other = callsIn node := by
  cases h with
  | call hcallee hparts =>
    rw [callsIn_call, callsIn_call, hcallee.callsIn_eq, hparts.callsAmong_eq, Node.isNamed,
      Node.isNamed, hcallee.kind_eq]
  | other hkind hparts =>
    rw [callsIn_of_ne_call hkind, callsIn_of_ne_call hkind, hparts.callsAmong_eq]

theorem GrownParts.callsAmong_eq {kind : Kind} {nodes others : List Node}
    (h : GrownParts kind nodes others) : callsAmong others = callsAmong nodes := by
  cases h with
  | nil => rfl
  | cons hfirst hlater =>
    rw [callsAmong_cons, callsAmong_cons, hfirst.callsIn_eq, hlater.callsAmong_eq]
  | gained hfirst hlater =>
    rw [callsAmong_cons, callsIn_of_isGained hfirst, hlater.callsAmong_eq, Nat.zero_add]

end

/-- An import of names calls nothing. -/
theorem callsIn_of_isCatalogImport (h : isCatalogImport plan node = true)
    (hnames : ∀ part ∈ node.parts, part.parts = []) : callsIn node = 0 := by
  obtain ⟨kind, span, parts⟩ := node
  have himport : kind ≠ .call := by
    rintro rfl
    cases h
  rw [callsIn_of_ne_call himport]
  exact callsAmong_eq_zero fun part hpart ↦ callsIn_of_parts_eq_nil (hnames part hpart)

theorem GrownItems.callsAmong_eq (h : GrownItems plan items others) :
    callsAmong others = callsAmong items := by
  induction h with
  | nil => rfl
  | cons hfirst _ ih => rw [callsAmong_cons, callsAmong_cons, hfirst.callsIn_eq, ih]
  | removed hfirst hnames _ ih =>
    rw [callsAmong_cons, callsIn_of_isCatalogImport hfirst hnames, ih, Nat.zero_add]
  | imported hfirst _ ih =>
    rw [callsAmong_cons, callsIn_of_isAddedImport hfirst, ih, Nat.zero_add]

/-- A source reads as what a registration writes: its imports bind what was written, and its items
are those that there were, with imports among them that were added, and with a call where there was
none. -/
structure ReadsAs (plan : Plan) (module again : Module) : Prop where
  imports : (ImportBinding.ofModule again).Perm (writtenBindings plan module)
  kept : callAmong? module.items ≠ none → GrownItems plan module.items again.items
  called : callAmong? module.items = none → ∃ before call after,
    again.items = before ++ call :: after ∧ isAddedCall call = true ∧
      GrownItems plan module.items (before ++ after)

/-- What reads as written has the calls that there were, or one if there was none. -/
theorem ReadsAs.callsAmong_eq (h : ReadsAs plan module again) :
    callsAmong again.items = max 1 (callsAmong module.items) := by
  by_cases hcalls : callAmong? module.items = none
  · obtain ⟨before, call, after, hitems, hcall, hgrown⟩ := h.called hcalls
    have hsame := hgrown.callsAmong_eq
    rw [callAmong?_eq_none_iff.1 hcalls, callsAmong_append] at hsame
    rw [hitems, callsAmong_append, callsAmong_cons, callsIn_of_isAddedCall hcall,
      callAmong?_eq_none_iff.1 hcalls]
    omega
  · have hsame := (h.kept hcalls).callsAmong_eq
    have hsome : callsAmong module.items ≠ 0 := fun hzero ↦
      hcalls (callAmong?_eq_none_iff.2 hzero)
    omega

/-! ## The name of the initializer -/

/-- An import of a value binds the name of the initializer, and comes from the library. -/
structure BindsInitializer (library : String) (binding : ImportBinding) : Prop where
  source : binding.source = library
  bound : binding.bound = initializerName
  typeOnly : binding.typeOnly = false

theorem underscore_mem_nameChars {characters : List Char} (h : '/' ∈ characters) :
    '_' ∈ nameChars characters := by
  have hwritten : '_' ∈ characters.map fun c ↦ if isNameChar c then c else '_' :=
    List.mem_map.2 ⟨'/', h, by decide⟩
  unfold nameChars
  dsimp only
  split
  · next hnil =>
    rw [hnil] at hwritten
    cases hwritten
  · split
    · exact List.mem_cons_self
    · exact hwritten

/-- The name that is made of a locale with a slash is not that of the initializer. -/
theorem nameFor_ne_initializerName (h : '/' ∈ locale.toList) :
    nameFor locale ≠ initializerName := by
  intro hsame
  have hmem := underscore_mem_nameChars h
  rw [← String.toList_ofList (l := nameChars locale.toList)] at hmem
  have hname : (String.ofList (nameChars locale.toList)) = initializerName := hsame
  rw [hname] at hmem
  exact absurd hmem (by decide)

/-- No catalog is imported under the name of the initializer from the library, unless the library is
itself a catalog. -/
theorem not_bindsInitializer_of_registered (hlibrary : localeOf? plan plan.library = none)
    {registered : Binding} (h : registered ∈ bindings plan (Layout.ofModule module)) :
    ¬ BindsInitializer plan.library (writtenImport plan registered) := by
  rintro ⟨hsource, hbound, -⟩
  by_cases hslash : '/' ∈ registered.locale.toList
  · have hderived : registered.name = nameFor registered.locale := by
      refine (registers_bindings plan _).derived registered h fun statement _ name himports ↦ ?_
      exact himports.plain hslash
    exact nameFor_ne_initializerName hslash (hderived.symm.trans hbound)
  · exact specifierOf_ne_library hlibrary hslash hsource

/-- The initializer is imported exactly when nothing brings it in. -/
theorem initializerEdits_eq_nil_iff :
    initializerEdits plan (Layout.ofModule module) = [] ↔
      ∃ binding ∈ ImportBinding.ofModule module,
        binding.BringsIn plan.library initializerName := by
  rw [← Conversion.importsName_iff_bringsIn]
  unfold initializerEdits Conversion.ensureImportAt
  split
  · next hname => exact ⟨fun _ ↦ hname, fun _ ↦ rfl⟩
  · next hname =>
    refine ⟨fun hnil ↦ ?_, fun hany ↦ absurd hany hname⟩
    split at hnil
    · cases hnil
    · split at hnil <;> cases hnil

/-- What is written binds the name of the initializer exactly when an import of the source does, or
when none brings the initializer in. -/
theorem exists_written_bindsInitializer_iff (hlibrary : localeOf? plan plan.library = none) :
    (∃ binding ∈ writtenBindings plan module, BindsInitializer plan.library binding) ↔
      (∃ binding ∈ ImportBinding.ofModule module, BindsInitializer plan.library binding) ∨
        ∀ binding ∈ ImportBinding.ofModule module,
          ¬ binding.BringsIn plan.library initializerName := by
  have hsource := ofModule_perm plan module
  constructor
  · rintro ⟨binding, hwritten, hbinds⟩
    rcases List.mem_append.1 hwritten with hkept | hregistered
    · rcases List.mem_append.1 hkept with hother | hinitializer
      · exact .inl ⟨binding, hsource.mem_iff.2 (List.mem_append_left _ hother), hbinds⟩
      · right
        intro present hpresent hbrings
        rw [initializerEdits_eq_nil_iff.2 ⟨present, hpresent, hbrings⟩] at hinitializer
        cases hinitializer
    · obtain ⟨registered, hmem, rfl⟩ := List.mem_map.1 hregistered
      exact absurd hbinds (not_bindsInitializer_of_registered hlibrary hmem)
  · rintro (⟨binding, hbinding, hbinds⟩ | hnone)
    · rcases List.mem_append.1 (hsource.mem_iff.1 hbinding) with hother | hcatalog
      · exact ⟨binding, List.mem_append_left _ (List.mem_append_left _ hother), hbinds⟩
      · obtain ⟨node, hnode, hitem⟩ := List.mem_flatMap.1 hcatalog
        obtain ⟨registered, hregistered⟩ :=
          Option.isSome_iff_exists.1 (List.mem_filter.1 hnode).2
        exact absurd hbinds.source (source_ne_library hlibrary hregistered hitem)
    · cases hedits : initializerEdits plan (Layout.ofModule module) with
      | nil =>
        obtain ⟨binding, hbinding, hbrings⟩ := initializerEdits_eq_nil_iff.1 hedits
        exact absurd hbrings (hnone binding hbinding)
      | cons edit rest =>
        refine ⟨.value plan.library initializerName, ?_, rfl, rfl, rfl⟩
        unfold writtenBindings
        rw [hedits]
        exact List.mem_append_left _ (List.mem_append_right _ List.mem_cons_self)

/-- A text is a module that imports the initializer under its own name and has the calls of another
module, or one if that has none. -/
def YieldsInitializer (markup : Bool) (library : String) (module : Module) (output : String) :
    Prop :=
  ∃ again, Module.parse? markup output = some again ∧
    (∃ binding ∈ ImportBinding.ofModule again, BindsInitializer library binding) ∧
    callsAmong again.items = max 1 (callsAmong module.items)

/-- An output that is no module has no initializer. One that reads as what was written has it
exactly when an import of the source binds its name already, or when none brings it in. -/
theorem yieldsInitializer_iff (hlibrary : localeOf? plan plan.library = none)
    (h : ofSource plan path code = .ok outcome) :
    ∃ module, Module.parse? path.hasMarkup code = some module ∧
      (Module.parse? path.hasMarkup outcome.output = none →
        ¬ YieldsInitializer path.hasMarkup plan.library module outcome.output) ∧
      ∀ again, Module.parse? path.hasMarkup outcome.output = some again →
        ReadsAs plan module again →
        (YieldsInitializer path.hasMarkup plan.library module outcome.output ↔
          (∃ binding ∈ ImportBinding.ofModule module, BindsInitializer plan.library binding) ∨
            ∀ binding ∈ ImportBinding.ofModule module,
              ¬ binding.BringsIn plan.library initializerName) := by
  obtain ⟨module, hmodule, -⟩ := ofSource_eq_ok_iff.1 h
  refine ⟨module, hmodule, ?_, ?_⟩
  · rintro hnone ⟨again, hagain, -⟩
    rw [hnone] at hagain
    cases hagain
  · intro again hagain hreads
    rw [← exists_written_bindsInitializer_iff hlibrary]
    constructor
    · rintro ⟨same, hsame, ⟨binding, hbinding, hbinds⟩, -⟩
      cases hagain.symm.trans hsame
      exact ⟨binding, hreads.imports.mem_iff.1 hbinding, hbinds⟩
    · rintro ⟨binding, hbinding, hbinds⟩
      exact ⟨again, hagain, ⟨binding, hreads.imports.mem_iff.2 hbinding, hbinds⟩,
        hreads.callsAmong_eq⟩

/-! ## A call with one argument -/

mutual

/-- Whether a node reads as another one, with parts added behind those that there were. -/
def growsInto : Node → Node → Bool
  | .mk kind _ parts, other =>
    other.kind == kind && !(kind == .call && parts.isEmpty) && growInto kind parts other.parts

/-- Whether parts of a node of some kind read as others, with some added behind them. -/
def growInto (kind : Kind) : List Node → List Node → Bool
  | [], others => others.all (isGained kind)
  | _ :: _, [] => false
  | node :: rest, other :: later => growsInto node other && growInto kind rest later

end

mutual

/-- A node that is found to grow into another one has grown. -/
theorem grown_of_growsInto {node other : Node} (h : growsInto node other = true) :
    Grown node other := by
  match node, other with
  | .mk kind span parts, .mk otherKind now others =>
    rw [growsInto] at h
    obtain ⟨hleft, hparts⟩ := Bool.and_eq_true_iff.1 h
    obtain ⟨hkind, hcallee⟩ := Bool.and_eq_true_iff.1 hleft
    obtain rfl : otherKind = kind := beq_iff_eq.1 hkind
    by_cases hcall : otherKind = .call
    · subst hcall
      match parts, others with
      | [], _ => cases hcallee
      | callee :: arguments, [] =>
        rw [Node.parts, growInto] at hparts
        cases hparts
      | callee :: arguments, same :: later =>
        rw [Node.parts, growInto] at hparts
        obtain ⟨hsame, hlater⟩ := Bool.and_eq_true_iff.1 hparts
        exact .call (grown_of_growsInto hsame) (grownParts_of_growInto hlater)
    · exact .other hcall (grownParts_of_growInto hparts)

theorem grownParts_of_growInto {kind : Kind} {nodes others : List Node}
    (h : growInto kind nodes others = true) : GrownParts kind nodes others := by
  match nodes, others with
  | [], others =>
    rw [growInto] at h
    induction others with
    | nil => exact .nil
    | cons added later ih =>
      obtain ⟨hadded, hlater⟩ := Bool.and_eq_true_iff.1 h
      exact .gained hadded (ih hlater)
  | node :: rest, [] =>
    rw [growInto] at h
    cases h
  | node :: rest, other :: later =>
    rw [growInto] at h
    obtain ⟨hfirst, hlater⟩ := Bool.and_eq_true_iff.1 h
    exact .cons (grown_of_growsInto hfirst) (grownParts_of_growInto hlater)

end

/-- An entry file that calls the initializer without an object. -/
def unpassed (arguments : String) : String :=
  initializerLine ++ "\ninitLocalisation(" ++ arguments ++ ");\n"

/-- The entry file after its catalog was registered. -/
def passed (arguments : String) : String :=
  initializerLine ++ "\nimport en from \"../translations/en.json\";" ++
    "\ninitLocalisation(" ++ arguments ++ ", \x7b en \x7d);\n"

/-- The edits that register the catalog: an argument is put in at an offset, and an import. -/
def passingEdits (offset : Nat) : List Edit :=
  [.insertAt offset ", \x7b en \x7d", .insertAt 51 "\nimport en from \"../translations/en.json\";"]

/-- Whether the items of an entry file and of its output read as they should: the call gets an
argument, and an import is put before it. -/
def readsPassed : List Node → List Node → Bool
  | [first, call], [same, added, now] =>
    growsInto first same && isAddedImport added && growsInto call now
  | _, _ => false

/-- Items that are read as they should have grown by an import and an argument. -/
theorem grownItems_of_readsPassed (h : readsPassed items others = true) :
    GrownItems plan items others := by
  unfold readsPassed at h
  split at h
  · next first call same added now =>
    obtain ⟨hleft, hcall⟩ := Bool.and_eq_true_iff.1 h
    obtain ⟨hfirst, hadded⟩ := Bool.and_eq_true_iff.1 hleft
    exact .cons (grown_of_growsInto hfirst)
      (.imported hadded (.cons (grown_of_growsInto hcall) .nil))
  · cases h

/-- The catalog is passed behind the locale that the initializer is called with. -/
theorem yieldsInitializer_oneArgument :
    ∃ module outcome, ofSource plainPlan ⟨"App.tsx"⟩ (unpassed "\"en\"") = .ok outcome ∧
      Module.parse? (Path.hasMarkup ⟨"App.tsx"⟩) (unpassed "\"en\"") = some module ∧
      YieldsInitializer (Path.hasMarkup ⟨"App.tsx"⟩) "localise-ai-sdk" module outcome.output := by
  have hedits : (Module.parse? (Path.hasMarkup ⟨"App.tsx"⟩) (unpassed "\"en\"")).map
      (fun module ↦
        ((catalogStatements plainPlan (Layout.ofModule module)).mapM
            (removal? (unpassed "\"en\"").toList),
          editsOf plainPlan module [])) = some (some [], passingEdits 73) := by
    decide +kernel
  have happly : Edit.applyAll? (unpassed "\"en\"") (passingEdits 73) =
      some (passed "\"en\"") := by
    rw [passingEdits, Edit.applyAll?_pair _ (by decide)]
    decide +kernel
  have hreads : ((Module.parse? (Path.hasMarkup ⟨"App.tsx"⟩) (unpassed "\"en\"")).any
      fun module ↦
        (Module.parse? (Path.hasMarkup ⟨"App.tsx"⟩) (passed "\"en\"")).any fun again ↦
          readsPassed module.items again.items && (callAmong? module.items).isSome &&
            ImportBinding.ofModule again == writtenBindings plainPlan module &&
            ImportBinding.ofModule module == [.value "localise-ai-sdk" initializerName]) =
      true := by
    decide +kernel
  obtain ⟨outcome, houtcome, houtput⟩ := exists_ofSource_of_edits hedits happly
  obtain ⟨module, hmodule, hfound⟩ := (Option.any_eq_true ..).1 hreads
  obtain ⟨again, hagain, hfound⟩ := (Option.any_eq_true ..).1 hfound
  obtain ⟨hfound, hbindings⟩ := Bool.and_eq_true_iff.1 hfound
  obtain ⟨hfound, hwritten⟩ := Bool.and_eq_true_iff.1 hfound
  obtain ⟨hitems, hcall⟩ := Bool.and_eq_true_iff.1 hfound
  rw [beq_iff_eq] at hbindings hwritten
  have hreadsAs : ReadsAs plainPlan module again :=
    { imports := by rw [hwritten]
      kept := fun _ ↦ grownItems_of_readsPassed hitems
      called := fun hnone ↦ by rw [hnone] at hcall; cases hcall }
  rw [← houtput] at hagain
  obtain ⟨same, hsame, -, hyields⟩ := yieldsInitializer_iff (by decide) houtcome
  cases hmodule.symm.trans hsame
  refine ⟨module, outcome, houtcome, hmodule, (hyields again hagain hreadsAs).2 (.inl ?_)⟩
  refine ⟨.value "localise-ai-sdk" initializerName, ?_, rfl, rfl, rfl⟩
  rw [hbindings]
  exact List.mem_cons_self

/-- A call without arguments gets one behind a comma, and the output is no module. -/
theorem not_yieldsInitializer_noArguments :
    ∃ module outcome, ofSource plainPlan ⟨"App.tsx"⟩ (unpassed "") = .ok outcome ∧
      Module.parse? (Path.hasMarkup ⟨"App.tsx"⟩) (unpassed "") = some module ∧
      ¬ YieldsInitializer (Path.hasMarkup ⟨"App.tsx"⟩) "localise-ai-sdk" module
        outcome.output := by
  have hedits : (Module.parse? (Path.hasMarkup ⟨"App.tsx"⟩) (unpassed "")).map (fun module ↦
      ((catalogStatements plainPlan (Layout.ofModule module)).mapM
          (removal? (unpassed "").toList),
        editsOf plainPlan module [])) = some (some [], passingEdits 69) := by
    decide +kernel
  have happly : Edit.applyAll? (unpassed "") (passingEdits 69) = some (passed "") := by
    rw [passingEdits, Edit.applyAll?_pair _ (by decide)]
    decide +kernel
  have hunreadable : Module.parse? (Path.hasMarkup ⟨"App.tsx"⟩) (passed "") = none := by
    decide +kernel
  obtain ⟨outcome, houtcome, houtput⟩ := exists_ofSource_of_edits hedits happly
  obtain ⟨module, hmodule, -⟩ := ofSource_eq_ok_iff.1 houtcome
  refine ⟨module, outcome, houtcome, hmodule, ?_⟩
  rintro ⟨again, hagain, -⟩
  rw [houtput, hunreadable] at hagain
  cases hagain

end Phrasebook.Registration
