import Mathlib.Data.List.Sort
import Phrasebook.Proofs.Catalog.Index
import Phrasebook.Proofs.Source.Conversion
import Phrasebook.Proofs.Source.Edits
import Phrasebook.Proofs.Source.Rendered

/-!
# Converting a source twice

The second conversion of a source, with the catalog that the first one left behind, changes nothing
exactly when the output of the first one is a module without sites. It is one whenever it reads back
as the tree of the source with a lookup in the place of each site. It need not be a module at all:
an import that is put at the top of a source stands before the line that names its interpreter.
-/

namespace Phrasebook

namespace Conversion

variable {options : ConversionOptions} {path : Path} {scope code : String}
variable {before after : KeyedCatalog} {conversion : Conversion}

/-- Converting the output of a conversion, with the catalog that it left behind, succeeds, replaces
nothing, adds no key and changes neither the text nor the catalog. -/
def RunsAgain (options : ConversionOptions) (path : Path) (scope : String)
    (conversion : Conversion) (after : KeyedCatalog) : Prop :=
  ∃ again, ofSource options path scope conversion.output after = .ok (again, after) ∧
    again.replacements = 0 ∧ again.newKeys = 0 ∧ again.output = conversion.output

/-- A module without sites is converted into itself. -/
theorem ofModule?_of_sites_eq_nil {module : Syntax.Module}
    (h : (Collection.ofModule options.excluded module).sites = [])
    (huncut : (Collection.ofModule options.excluded module).cutsCharacter = false) :
    ∃ again, ofModule? options scope code module before = some (again, before) ∧
      again.replacements = 0 ∧ again.newKeys = 0 ∧ again.output = code := by
  have hassign : assignKeys (.start scope) before
      (Collection.ofModule options.excluded module).sites = ([], before, 0) := by
    rw [h]
    rfl
  have happly : Edit.applyAll? code (([] : List KeyedSite).map siteEdit ++ []) = some code :=
    Edit.applyAll?_nil code
  simp only [ofModule?_eq_some_iff, huncut, true_and]
  unfold ofCollection?
  simp only [hassign, List.isEmpty_nil, if_true, happly, Option.map_some]
  exact ⟨_, rfl, rfl, rfl, rfl⟩

/-- A conversion that replaces nothing had no site before it. -/
theorem sites_eq_nil_of_ofModule? {module : Syntax.Module}
    (h : ofModule? options scope code module before = some (conversion, after))
    (hcount : conversion.replacements = 0) :
    (Collection.ofModule options.excluded module).sites = [] := by
  obtain ⟨output, -, houtput⟩ := Option.map_eq_some_iff.1 (ofModule?_eq_some_iff.1 h).2
  cases houtput
  have hsites := sites_assignKeys (.start scope) before
    (Collection.ofModule options.excluded module).sites
  rw [← hsites, List.length_eq_zero_iff.1 hcount]
  rfl

/-- A conversion runs again exactly when its output is a module without sites in which no text that
is looked at is cut. There is no site whenever the output is the tree of the source with a lookup in
the place of each site. -/
theorem runsAgain_iff (h : ofSource options path scope code before = .ok (conversion, after)) :
    ∃ module, Syntax.Module.parse? path.hasMarkup code = some module ∧
      (RunsAgain options path scope conversion after ↔
        ∃ again, Syntax.Module.parse? path.hasMarkup conversion.output = some again ∧
          (Collection.ofModule options.excluded again).sites = [] ∧
          (Collection.ofModule options.excluded again).cutsCharacter = false) ∧
      ∀ again, Syntax.Module.parse? path.hasMarkup conversion.output = some again →
        Collection.RenderedItems module.text options.excluded module.items again.items →
        (RunsAgain options path scope conversion after ↔
          (Collection.ofModule options.excluded again).cutsCharacter = false) := by
  obtain ⟨module, hmodule, -⟩ := ofSource_eq_ok_iff.1 h
  have hagain : ∀ again, Syntax.Module.parse? path.hasMarkup conversion.output = some again →
      (Collection.ofModule options.excluded again).sites = [] →
      (Collection.ofModule options.excluded again).cutsCharacter = false →
      RunsAgain options path scope conversion after := by
    intro again hparse hsites huncut
    obtain ⟨outcome, houtcome, hcounts⟩ := ofModule?_of_sites_eq_nil hsites huncut
    exact ⟨outcome, ofSource_eq_ok_iff.2 ⟨again, hparse, houtcome⟩, hcounts⟩
  have hfound : RunsAgain options path scope conversion after →
      ∃ again, Syntax.Module.parse? path.hasMarkup conversion.output = some again ∧
        (Collection.ofModule options.excluded again).sites = [] ∧
        (Collection.ofModule options.excluded again).cutsCharacter = false := by
    rintro ⟨outcome, houtcome, hcount, -⟩
    obtain ⟨again, hparse, hconverted⟩ := ofSource_eq_ok_iff.1 houtcome
    exact ⟨again, hparse, sites_eq_nil_of_ofModule? hconverted hcount,
      (ofModule?_eq_some_iff.1 hconverted).1⟩
  refine ⟨module, hmodule, ⟨hfound, ?_⟩, ?_⟩
  · rintro ⟨again, hparse, hsites, huncut⟩
    exact hagain again hparse hsites huncut
  · intro again hparse hrendered
    constructor
    · intro hruns
      obtain ⟨same, hsame, -, huncut⟩ := hfound hruns
      cases hparse.symm.trans hsame
      exact huncut
    · exact hagain again hparse hrendered.sites_eq_nil

def plainOptions : ConversionOptions where
  library := "localise-ai-sdk"
  style := .imported
  excluded := []

/-- A source with one site, which imports the lookup function already. -/
def welcome : String :=
  "import \x7b t \x7d from \"localise-ai-sdk\";\nconst a = <p>Welcome</p>;\n"

theorem runsAgain_welcome :
    ∃ conversion after,
      ofSource plainOptions ⟨"a.tsx"⟩ "a" welcome (.ofCatalog .empty) = .ok (conversion, after) ∧
      conversion.replacements = 1 ∧ RunsAgain plainOptions ⟨"a.tsx"⟩ "a" conversion after := by
  have hevaluated : (ofSource plainOptions ⟨"a.tsx"⟩ "a" welcome (.ofCatalog .empty)).toOption.map
      (fun outcome ↦ (outcome.1.replacements,
        (Syntax.Module.parse? true outcome.1.output).map fun again ↦
          let collection := Collection.ofModule plainOptions.excluded again
          (collection.sites, collection.cutsCharacter))) = some (1, some ([], false)) := by
    decide +kernel
  cases hconverted : ofSource plainOptions ⟨"a.tsx"⟩ "a" welcome (.ofCatalog .empty) with
  | error fault =>
    rw [hconverted] at hevaluated
    cases hevaluated
  | ok outcome =>
    obtain ⟨conversion, after⟩ := outcome
    rw [hconverted] at hevaluated
    obtain ⟨hcount, hsites⟩ := Prod.mk.inj (Option.some.inj hevaluated)
    obtain ⟨again, hparse, hagain⟩ := Option.map_eq_some_iff.1 hsites
    obtain ⟨hnone, huncut⟩ := Prod.mk.inj hagain
    obtain ⟨module, -, hruns, -⟩ := runsAgain_iff hconverted
    exact ⟨conversion, after, rfl, hcount, hruns.2 ⟨again, hparse, hnone, huncut⟩⟩

/-- A script that names its interpreter, with one site. -/
def script : String :=
  "#!/usr/bin/env node\nconst A = () => <b>Hi</b>;\n"

/-- The script with the import above the line that names the interpreter. -/
def convertedScript : String :=
  "import \x7b t \x7d from \"localise-ai-sdk\";\n#!/usr/bin/env node\n" ++
    "const A = () => <b>\x7bt(\"screens.shebang_screen.text_1\")\x7d</b>;\n"

/-- The edits of the script: the import goes to the very top. -/
def scriptEdits : List Edit :=
  [⟨39, 41, "\x7bt(\"screens.shebang_screen.text_1\")\x7d"⟩,
    .insertAt 0 "import \x7b t \x7d from \"localise-ai-sdk\";\n"]

theorem edits_script :
    ((Syntax.Module.parse? true script).map fun module ↦
      let collection := Collection.ofModule plainOptions.excluded module
      let keyed := (assignKeys (.start "screens.shebang_screen") (.ofCatalog .empty)
        collection.sites).1
      (collection.cutsCharacter, keyed.map siteEdit ++ if keyed.isEmpty then [] else
        accessEdits plainOptions module collection)) = some (false, scriptEdits) := by
  decide +kernel

theorem applyAll?_scriptEdits : Edit.applyAll? script scriptEdits = some convertedScript := by
  rw [scriptEdits, Edit.applyAll?_pair _ (by decide)]
  decide +kernel

theorem not_runsAgain_script :
    ∃ conversion after,
      ofSource plainOptions ⟨"screens/ShebangScreen.tsx"⟩ "screens.shebang_screen" script
        (.ofCatalog .empty) = .ok (conversion, after) ∧
      ¬ RunsAgain plainOptions ⟨"screens/ShebangScreen.tsx"⟩ "screens.shebang_screen" conversion
        after := by
  have hmarkup : Path.hasMarkup ⟨"screens/ShebangScreen.tsx"⟩ = true := by decide +kernel
  have hunreadable : Syntax.Module.parse? true convertedScript = none := by decide +kernel
  obtain ⟨module, hmodule, hedits⟩ := Option.map_eq_some_iff.1 edits_script
  have hconverted : ∃ conversion after,
      ofModule? plainOptions "screens.shebang_screen" script module (.ofCatalog .empty) =
        some (conversion, after) ∧ conversion.output = convertedScript := by
    obtain ⟨huncut, hedits⟩ := Prod.mk.inj hedits
    simp only [ofModule?_eq_some_iff, huncut, true_and]
    unfold ofCollection?
    dsimp only
    rw [hedits, applyAll?_scriptEdits]
    exact ⟨_, _, rfl, rfl⟩
  obtain ⟨conversion, after, hconverted, houtput⟩ := hconverted
  refine ⟨conversion, after, ofSource_eq_ok_iff.2 ⟨module, ?_, hconverted⟩, ?_⟩
  · rw [hmarkup]
    exact hmodule
  · rintro ⟨again, hagain, -⟩
    obtain ⟨second, hsecond, -⟩ := ofSource_eq_ok_iff.1 hagain
    rw [hmarkup, houtput, hunreadable] at hsecond
    cases hsecond

end Conversion

end Phrasebook
