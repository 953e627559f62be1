import Phrasebook.Proofs.Source.Bindings
import Phrasebook.Proofs.Source.Splice

/-!
# Registering locales twice

The second registration of the same locales takes the imports of the catalogs out and puts them in
again. Where the output of the first one is read as it was written, both registrations find the same
bindings, and the text stays as it is exactly when a line feed follows the block of imports: any
other line end behind it is taken out with the last import and comes back as a line feed.
-/

namespace Phrasebook.Registration

open Syntax

variable {plan : Plan} {path : Path} {code : String} {outcome : Outcome} {all : List Binding}
variable {module : Module} {before after : List Char}

/-- The imports of the catalogs, each with its module and its name, in the order of the modules. -/
def catalogImports (plan : Plan) (all : List Binding) : List (String × String) :=
  (all.map fun binding ↦ (specifierOf plan binding.locale, binding.name)).mergeSort importPrecedes

theorem catalogImports_perm (plan : Plan) (all : List Binding) :
    (catalogImports plan all).Perm
      (all.map fun binding ↦ (specifierOf plan binding.locale, binding.name)) :=
  List.mergeSort_perm ..

def blockLines (plan : Plan) (all : List Binding) : List (List Char) :=
  (importLines plan all).map String.toList

theorem blockLines_ne_nil (h : all ≠ []) : blockLines plan all ≠ [] := by
  have hlength : (blockLines plan all).length = all.length := by
    have himports := (catalogImports_perm plan all).length_eq
    rw [List.length_map] at himports
    unfold blockLines importLines
    rw [List.length_map, List.length_map]
    exact himports
  intro hnil
  rw [hnil] at hlength
  exact h (List.length_eq_zero_iff.1 hlength.symm)

theorem toList_intercalate_lineFeed {lines : List String} (h : lines ≠ []) :
    ("\n" ++ "\n".intercalate lines).toList = onLines (lines.map String.toList) := by
  induction lines with
  | nil => exact absurd rfl h
  | cons line rest ih =>
    cases rest with
    | nil =>
      rw [String.intercalate_singleton, String.toList_append]
      simp [onLines]
    | cons next rest =>
      have hrest := ih (List.cons_ne_nil next rest)
      rw [String.intercalate_cons_cons, String.append_assoc, String.toList_append,
        String.toList_append, hrest, List.map_cons, onLines, List.flatMap_cons]
      rfl

/-- The imports of a source that register a locale. -/
def catalogStatements (plan : Plan) (layout : Layout) : List ImportStatement :=
  layout.imports.filter fun statement ↦ (bindingOf? plan statement).isSome

/-- A source in which some text stands before the block of imports is read as it was written: the
initializer is imported and called with every locale, the block goes where it is, and the imports
of the catalogs are its lines. -/
structure ReadsBack (plan : Plan) (all : List Binding) (module : Module) (before : List Char) :
    Prop where
  initializer : ((Layout.ofModule module).importsFrom plan.library).any
    (fun statement ↦ statement.importsName initializerName) = true
  call : (callAmong? module.items).any
    (fun call ↦ (missingProperties call all).isEmpty || call.target == .other) = true
  place : blockOffset? plan (Layout.ofModule module) = some (Text.size before)
  catalogs : (catalogStatements plan (Layout.ofModule module)).map
      (fun statement ↦ (statement.source, statement.default?)) =
    (catalogImports plan all).map fun (source, name) ↦ (source, some name)
  spans : (catalogStatements plan (Layout.ofModule module)).map
      (fun statement ↦ (statement.start, statement.stop)) =
    spansFrom (Text.size before + 1) (blockLines plan all)

instance (plan : Plan) (all : List Binding) (module : Module) (before : List Char) :
    Decidable (ReadsBack plan all module before) :=
  decidable_of_iff (_ ∧ _ ∧ _ ∧ _ ∧ _)
    ⟨fun ⟨initializer, call, place, catalogs, spans⟩ ↦ ⟨initializer, call, place, catalogs, spans⟩,
      fun ⟨initializer, call, place, catalogs, spans⟩ ↦ ⟨initializer, call, place, catalogs, spans⟩⟩

/-- The bindings that are read back are those that were written. -/
theorem ReadsBack.filterMap_perm (h : ReadsBack plan all module before)
    (hplain : ∀ locale ∈ locales all, '/' ∉ locale.toList) :
    ((Layout.ofModule module).imports.filterMap (bindingOf? plan)).Perm all := by
  let bind (entry : String × Option String) : Option Binding :=
    (localeOf? plan entry.1).bind fun locale ↦ entry.2.map fun name ↦ ⟨locale, name⟩
  have hstatements : (Layout.ofModule module).imports.filterMap (bindingOf? plan) =
      (catalogStatements plan (Layout.ofModule module)).filterMap (bindingOf? plan) := by
    unfold catalogStatements
    rw [List.filterMap_filter]
    apply List.filterMap_congr
    intro statement _
    cases hbinding : bindingOf? plan statement <;> simp
  have hpairs : (catalogStatements plan (Layout.ofModule module)).filterMap (bindingOf? plan) =
      ((catalogStatements plan (Layout.ofModule module)).map
        fun statement ↦ (statement.source, statement.default?)).filterMap bind := by
    rw [List.filterMap_map]
    rfl
  have hall : (all.map fun binding ↦ (specifierOf plan binding.locale, binding.name)).filterMap
      (fun entry ↦ bind (entry.1, some entry.2)) = all := by
    rw [List.filterMap_map]
    refine (List.filterMap_congr fun binding hbinding ↦ ?_).trans List.filterMap_some
    have hlocale := localeOf?_specifierOf plan (hplain _ (List.mem_map_of_mem hbinding))
    simp only [Function.comp_apply, bind, hlocale, Option.bind_some, Option.map_some]
  rw [hstatements, hpairs, h.catalogs, List.filterMap_map]
  have himports := (catalogImports_perm plan all).filterMap fun entry ↦ bind (entry.1, some entry.2)
  rw [hall] at himports
  exact himports

theorem mem_locales_of_bindings (plan : Plan) (layout : Layout) :
    ∀ locale ∈ plan.locales ++ [plan.standardLocale], locale ∈ locales (bindings plan layout) :=
  fun _ hlocale ↦ mem_locales_bindings.2 (.inr hlocale)

theorem bindings_ne_nil (plan : Plan) (layout : Layout) : bindings plan layout ≠ [] := by
  have hstandard := mem_locales_of_bindings plan layout plan.standardLocale
    (List.mem_append_right _ List.mem_cons_self)
  intro hnil
  rw [hnil] at hstandard
  cases hstandard

/-- Registering the locales of a source that is read as it was written takes the block of imports
out and puts it in again, and does nothing else. -/
theorem ReadsBack.ofModule? (h : ReadsBack plan all module before)
    (hbindings : bindings plan (Layout.ofModule module) = all) (hne : all ≠ [])
    (after : List Char) :
    ∃ second, Registration.ofModule? plan
        (String.ofList (before ++ (onLines (blockLines plan all) ++ after))) module = some second ∧
      second.output =
        String.ofList (before ++ (onLines (blockLines plan all) ++ '\n' :: withoutLineEnd after)) ∧
      second.locales = locales all := by
  obtain ⟨call, hcall, hpassed⟩ := (Option.any_eq_true ..).1 h.call
  have hinitializer : initializerEdits plan (Layout.ofModule module) = [] := by
    unfold initializerEdits Conversion.ensureImportAt
    exact if_pos h.initializer
  have hproperties : propertyEdits call (missingProperties call all) = [] := by
    unfold propertyEdits
    rcases Bool.or_eq_true_iff.1 hpassed with hnone | hother
    · rw [if_pos hnone]
    · rw [beq_iff_eq.1 hother]
      split <;> rfl
  have hremovals := mapM_removal? h.spans after
  have hlines : importLines plan all ≠ [] := fun hnil ↦
    blockLines_ne_nil hne (congrArg (List.map String.toList) hnil)
  have hblock : ("\n" ++ "\n".intercalate (importLines plan all) ++ "").toList =
      onLines (blockLines plan all) := by
    rw [String.append_empty]
    exact toList_intercalate_lineFeed hlines
  have happly := applyAll?_onLines hblock (blockLines_ne_nil hne) before after
  unfold Registration.ofModule?
  dsimp only
  unfold catalogStatements at hremovals
  rw [hbindings, hcall, String.toList_ofList, hremovals, hinitializer, h.place]
  dsimp only [Option.map_some, Option.getD_some, Option.bind_some, Option.isSome_some, blockEdit,
    Option.map_none, Option.getD_none]
  rw [hproperties, List.nil_append, List.append_nil, if_pos rfl, Option.map_none, Option.getD_none,
    happly, Option.map_some]
  exact ⟨_, rfl, rfl, rfl⟩

/-- Registering the locales again, in the output of a registration, succeeds, changes nothing and
reports the same locales. -/
def RegistersAgain (plan : Plan) (path : Path) (outcome : Outcome) : Prop :=
  ∃ second, ofSource plan path outcome.output = .ok second ∧ second.output = outcome.output ∧
    second.locales = outcome.locales

/-- A registration succeeds on the sources that are modules and whose edits can be applied. -/
theorem ofSource_eq_ok_iff :
    ofSource plan path code = .ok outcome ↔
      ∃ module, Module.parse? path.hasMarkup code = some module ∧
        ofModule? plan code module = some outcome := by
  unfold ofSource
  cases Module.parse? path.hasMarkup code with
  | none => simp
  | some module =>
    cases houtcome : ofModule? plan code module with
    | none => simp [houtcome]
    | some other => simp [houtcome]

theorem locales_of_ofModule? (h : ofModule? plan code module = some outcome) :
    outcome.locales = locales (bindings plan (Layout.ofModule module)) := by
  unfold ofModule? at h
  obtain ⟨removals, -, happlied⟩ := Option.bind_eq_some_iff.1 h
  obtain ⟨output, -, rfl⟩ := Option.map_eq_some_iff.1 happlied
  rfl

/-- A registration whose output is no module cannot be repeated. One whose output is read as it was
written can be repeated exactly when a line feed follows the block of imports. -/
theorem registersAgain_iff
    (hplain : ∀ locale ∈ plan.locales ++ [plan.standardLocale], '/' ∉ locale.toList)
    (h : ofSource plan path code = .ok outcome) :
    ∃ module, Module.parse? path.hasMarkup code = some module ∧
      (Module.parse? path.hasMarkup outcome.output = none → ¬ RegistersAgain plan path outcome) ∧
      ∀ again before after, Module.parse? path.hasMarkup outcome.output = some again →
        ReadsBack plan (bindings plan (Layout.ofModule module)) again before →
        outcome.output.toList =
          before ++ (onLines (blockLines plan (bindings plan (Layout.ofModule module))) ++ after) →
        (RegistersAgain plan path outcome ↔ after.head? = some '\n') := by
  obtain ⟨module, hmodule, houtcome⟩ := ofSource_eq_ok_iff.1 h
  refine ⟨module, hmodule, ?_, ?_⟩
  · rintro hnone ⟨second, hsecond, -⟩
    obtain ⟨again, hagain, -⟩ := ofSource_eq_ok_iff.1 hsecond
    rw [hnone] at hagain
    cases hagain
  · intro again before after hagain hback htext
    have hall : ∀ locale ∈ locales (bindings plan (Layout.ofModule module)), '/' ∉ locale.toList :=
      fun locale ↦ plain_of_mem_bindings hplain
    -- Both registrations know the same bindings: those of the second one are all read back.
    have hbindings := bindings_eq_of_perm (sorted_bindings plan (Layout.ofModule module))
      (mem_locales_of_bindings plan (Layout.ofModule module)) (hback.filterMap_perm hall)
    obtain ⟨second, hsecond, houtput, hlocales⟩ :=
      hback.ofModule? hbindings (bindings_ne_nil plan (Layout.ofModule module)) after
    rw [← htext, String.ofList_toList] at hsecond
    have hlocales' : second.locales = outcome.locales :=
      hlocales.trans (locales_of_ofModule? houtcome).symm
    rw [← lineFeed_withoutLineEnd_iff]
    constructor
    · rintro ⟨same, hsame, hunchanged, -⟩
      obtain ⟨module', hmodule', hsame⟩ := ofSource_eq_ok_iff.1 hsame
      cases hagain.symm.trans hmodule'
      cases hsecond.symm.trans hsame
      have hchars := congrArg String.toList (houtput.symm.trans hunchanged)
      rw [String.toList_ofList, htext] at hchars
      exact List.append_cancel_left (List.append_cancel_left hchars)
    · intro hfeed
      refine ⟨second, ofSource_eq_ok_iff.2 ⟨again, hagain, hsecond⟩, ?_, hlocales'⟩
      rw [houtput, hfeed, ← htext, String.ofList_toList]

/-- The catalog of one locale, in a directory beside that of the entry file. -/
def plainPlan : Plan where
  directory := "../translations"
  locales := ["en"]
  standardLocale := "en"
  library := "localise-ai-sdk"

/-- The line of an entry file that imports the initializer. -/
def initializerLine : String :=
  "import \x7b initLocalisation \x7d from \"localise-ai-sdk\";"

/-- What follows that line, with a line end of some kind: the initializer is called. -/
def callLines (lineEnd : String) : String :=
  lineEnd ++ "initLocalisation(\"en\", \x7b en \x7d);" ++ lineEnd

/-- An entry file with line ends of some kind, and the file after the catalog was registered. -/
def entry (lineEnd : String) : String :=
  initializerLine ++ callLines lineEnd

/-- The entry file after the catalog was registered. -/
def registeredEntry (lineEnd : String) : String :=
  initializerLine ++ "\nimport en from \"../translations/en.json\";" ++ callLines lineEnd

/-- Whether an entry file with some line ends is registered and read back as it was written. -/
def readsEntryBack (lineEnd : String) : Bool :=
  ((Module.parse? true (entry lineEnd)).any fun module ↦
    ofModule? plainPlan (entry lineEnd) module == some ⟨registeredEntry lineEnd, ["en"], false⟩ &&
      bindings plainPlan (Layout.ofModule module) == [⟨"en", "en"⟩]) &&
  (Module.parse? true (registeredEntry lineEnd)).any fun module ↦
    decide (ReadsBack plainPlan [⟨"en", "en"⟩] module initializerLine.toList)

theorem toList_registeredEntry (lineEnd : String) :
    (registeredEntry lineEnd).toList = initializerLine.toList ++
      (onLines (blockLines plainPlan [⟨"en", "en"⟩]) ++ (callLines lineEnd).toList) := by
  have hblock : onLines (blockLines plainPlan [⟨"en", "en"⟩]) =
      "\nimport en from \"../translations/en.json\";".toList := by
    decide +kernel
  rw [hblock, registeredEntry, String.toList_append, String.toList_append, List.append_assoc]

/-- What is found in an entry file that is read back. -/
theorem exists_of_readsEntryBack {lineEnd : String} (h : readsEntryBack lineEnd = true) :
    ∃ module again,
      Module.parse? true (entry lineEnd) = some module ∧
      Module.parse? true (registeredEntry lineEnd) = some again ∧
      ofModule? plainPlan (entry lineEnd) module = some ⟨registeredEntry lineEnd, ["en"], false⟩ ∧
      bindings plainPlan (Layout.ofModule module) = [⟨"en", "en"⟩] ∧
      ReadsBack plainPlan [⟨"en", "en"⟩] again initializerLine.toList := by
  obtain ⟨hfirst, hsecond⟩ := Bool.and_eq_true_iff.1 h
  obtain ⟨module, hmodule, hfound⟩ := (Option.any_eq_true ..).1 hfirst
  obtain ⟨again, hagain, hback⟩ := (Option.any_eq_true ..).1 hsecond
  obtain ⟨houtcome, hbindings⟩ := Bool.and_eq_true_iff.1 hfound
  exact ⟨module, again, hmodule, hagain, beq_iff_eq.1 houtcome, beq_iff_eq.1 hbindings,
    of_decide_eq_true hback⟩

theorem registersAgain_entry :
    ∃ outcome, ofSource plainPlan ⟨"App.tsx"⟩ (entry "\n") = .ok outcome ∧
      RegistersAgain plainPlan ⟨"App.tsx"⟩ outcome := by
  have hmarkup : Path.hasMarkup ⟨"App.tsx"⟩ = true := by decide +kernel
  obtain ⟨module, again, hmodule, hagain, houtcome, hbindings, hback⟩ :=
    exists_of_readsEntryBack (by decide +kernel : readsEntryBack "\n" = true)
  rw [← hmarkup] at hmodule hagain
  have hregistered := ofSource_eq_ok_iff.2 ⟨module, hmodule, houtcome⟩
  obtain ⟨same, hsame, -, hagain_iff⟩ := registersAgain_iff (by decide) hregistered
  cases hmodule.symm.trans hsame
  rw [hbindings] at hagain_iff
  exact ⟨_, hregistered,
    (hagain_iff again _ _ hagain hback (toList_registeredEntry "\n")).2 (by decide)⟩

/-- A carriage return before the line feed behind the block of imports is lost. -/
theorem not_registersAgain_entry :
    ∃ outcome, ofSource plainPlan ⟨"App.tsx"⟩ (entry "\r\n") = .ok outcome ∧
      ¬ RegistersAgain plainPlan ⟨"App.tsx"⟩ outcome := by
  have hmarkup : Path.hasMarkup ⟨"App.tsx"⟩ = true := by decide +kernel
  obtain ⟨module, again, hmodule, hagain, houtcome, hbindings, hback⟩ :=
    exists_of_readsEntryBack (by decide +kernel : readsEntryBack "\r\n" = true)
  have hplain : ∀ locale ∈ locales [⟨"en", "en"⟩], '/' ∉ locale.toList := by decide
  have hsame : bindings plainPlan (Layout.ofModule again) = [⟨"en", "en"⟩] :=
    bindings_eq_of_perm (List.pairwise_singleton ..) (by decide) (hback.filterMap_perm hplain)
  obtain ⟨second, hsecond, houtput, -⟩ :=
    hback.ofModule? hsame (by simp) (callLines "\r\n").toList
  rw [← toList_registeredEntry, String.ofList_toList] at hsecond
  rw [← hmarkup] at hmodule hagain
  refine ⟨_, ofSource_eq_ok_iff.2 ⟨module, hmodule, houtcome⟩, ?_⟩
  rintro ⟨other, hother, hunchanged, -⟩
  obtain ⟨again', hagain', hother⟩ := ofSource_eq_ok_iff.1 hother
  cases hagain.symm.trans hagain'
  cases hsecond.symm.trans hother
  have hchars := congrArg String.toList (houtput.symm.trans hunchanged)
  rw [String.toList_ofList, toList_registeredEntry] at hchars
  have hfeed := List.append_cancel_left (List.append_cancel_left hchars)
  exact absurd ((lineFeed_withoutLineEnd_iff _).1 hfeed) (by decide)

end Phrasebook.Registration
