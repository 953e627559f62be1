import Phrasebook.Proofs.Lookup.Fill
import Phrasebook.Proofs.Plural.Edges

/-!
# What a lookup gives

A lookup whose template has no expression that one of its arguments counts for does nothing but
fill the template. The blanks at the edges of the template are then the blanks at the edges of what
is filled in between.
-/

namespace Phrasebook.Lookup

variable {template stored : String} {arguments : List Argument} {catalog : Catalog} {key : String}

/-- Whether a lookup with arguments of some names may choose a branch of the expression in a
template. -/
def Counts (template : String) (names : List String) : Prop :=
  ∃ plural, Plural.expressionOf? template = some plural ∧ plural.kind = "plural" ∧
    (plural.argument ∈ names ∨ countArgument ∈ names)

theorem argument?_eq_none {name : String} (h : name ∉ arguments.map Argument.name) :
    argument? arguments name = none := by
  unfold argument?
  rw [Option.map_eq_none_iff, List.find?_eq_none]
  intro argument hmem hsame
  exact h (List.mem_map.2 ⟨argument, hmem, beq_iff_eq.1 hsame⟩)

theorem selectBranch?_eq_none (h : ¬ Counts template (arguments.map Argument.name)) :
    selectBranch? template arguments = none := by
  unfold selectBranch?
  cases hfind : Plural.find? template with
  | none => rfl
  | some located =>
    rw [Option.bind_some]
    split
    · next hkind =>
      have hexpression : Plural.expressionOf? template = some located.plural := by
        rw [Plural.expressionOf?, hfind, Option.map_some]
      have hnames : located.plural.argument ∉ arguments.map Argument.name ∧
          countArgument ∉ arguments.map Argument.name :=
        not_or.1 fun hcounts ↦ h ⟨_, hexpression, beq_iff_eq.1 hkind, hcounts⟩
      unfold countFor?
      rw [argument?_eq_none hnames.1, argument?_eq_none hnames.2]
      rfl
    · rfl

theorem templateOf_eq (hkey : catalog.get? key = some template) (hne : template ≠ "") :
    templateOf catalog key = template := by
  have hempty : template.isEmpty = false := by
    rw [← Bool.not_eq_true, String.isEmpty_iff]
    exact hne
  unfold templateOf
  rw [hkey]
  exact if_neg (Bool.eq_false_iff.1 hempty)

/-- A template whose expression counts none of the arguments is filled as it stands. -/
theorem resolve_eq_fill (hkey : catalog.get? key = some template) (hne : template ≠ "")
    (h : ¬ Counts template (arguments.map Argument.name)) :
    resolve catalog key arguments = String.ofList (fill arguments template.toList) := by
  unfold resolve
  dsimp only
  rw [templateOf_eq hkey hne, selectBranch?_eq_none h, Option.getD_none]
  split
  · next hnone =>
    rw [List.isEmpty_iff.1 hnone, fill_eq_self fun _ _ ↦ rfl, String.ofList_toList]
  · rfl

theorem fill_edges (arguments : List Argument) (template : String) :
    String.ofList (fill arguments template.toList) =
      Text.lead template ++ String.ofList (fill arguments (Text.trimChars template.toList)) ++
        Text.trail template := by
  have hlead : ∀ c ∈ Text.leadChars template.toList, Text.isBlank c = true :=
    fun _ ↦ Text.isBlank_of_mem_leadChars
  have htrail : ∀ c ∈ Text.trailChars template.toList, Text.isBlank c = true :=
    fun _ ↦ Text.isBlank_of_mem_trailChars
  have hfill := fill_between_blanks hlead htrail arguments (Text.trimChars template.toList)
  rw [Text.lead_append_trim_append_trail] at hfill
  rw [hfill, String.ofList_append, String.ofList_append]
  rfl

/-- A template that is stored with other blanks at its edges is filled with those. -/
theorem resolve_of_trim_eq (hkey : catalog.get? key = some stored)
    (htrim : Text.trim stored = Text.trim template) (hvisible : Text.trim template ≠ "")
    (h : ¬ Counts template (arguments.map Argument.name)) :
    resolve catalog key arguments =
      Text.lead stored ++ String.ofList (fill arguments (Text.trimChars template.toList)) ++
        Text.trail stored := by
  have hne : stored ≠ "" := by
    rintro rfl
    exact hvisible htrim.symm
  have huncounted : ¬ Counts stored (arguments.map Argument.name) := by
    rw [Counts, Plural.expressionOf?_congr htrim]
    exact h
  have hmiddle : Text.trimChars stored.toList = Text.trimChars template.toList :=
    String.ofList_injective htrim
  rw [resolve_eq_fill hkey hne huncounted, fill_edges, hmiddle]

end Phrasebook.Lookup
