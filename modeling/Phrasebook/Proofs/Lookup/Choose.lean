import Phrasebook.Proofs.Lookup.Resolve
import Phrasebook.Proofs.Number.Whole
import Phrasebook.Proofs.Plural.Rendered

/-!
# Choosing a branch

A template with a text for one and a text for all other numbers is looked up with a count: the text
for one is chosen for one, the other text for all other numbers. The number signs of the text become
the count, and then its placeholders are filled.
-/

namespace Phrasebook.Lookup

variable {one other stored : String} {catalog : Catalog} {key : String} {number : Number}
variable {value : ArgumentValue}

def chosen (one other : String) (number : Number) : String :=
  if number.isOne then one else other

theorem isSelector_one : Plural.IsSelector "one".toList :=
  .of_all (by decide) (by decide)

theorem isSelector_other : Plural.IsSelector "other".toList :=
  .of_all (by decide) (by decide)

/-- An expression made of two balanced bodies is read back as it was written. -/
theorem isCanonical_oneOther (hone : Plural.IsBalanced one.toList)
    (hother : Plural.IsBalanced other.toList) :
    (Plural.oneOther countArgument one other).IsCanonical where
  argument := by
    show Plural.isWord countArgument.toList = true
    decide
  kind := by
    show Plural.isWord "plural".toList = true
    decide
  filled := List.cons_ne_nil _ _
  branches := by
    intro branch hbranch
    rcases List.mem_cons.1 hbranch with rfl | hbranch
    · exact ⟨isSelector_one, hone⟩
    · cases List.mem_singleton.1 hbranch
      exact ⟨isSelector_other, hother⟩

/-- No selector but `one` and `other` is written, so that none names a number. -/
theorem branchFor?_oneOther (argument one other : String) (number : Number) :
    branchFor? (Plural.oneOther argument one other) number = some (chosen one other number) := by
  have hexact : (Plural.oneOther argument one other).body? ("=" ++ number.render) = none := by
    have hne : ∀ word : String, word.toList.head? ≠ some '=' →
        (word == "=" ++ number.render) = false := by
      intro word hword
      apply beq_eq_false_iff_ne.2
      rintro rfl
      apply hword
      rw [String.toList_append]
      rfl
    unfold Plural.body? Plural.oneOther
    rw [List.find?_cons_of_neg, List.find?_cons_of_neg, List.find?_nil, Option.map_none]
    · exact Bool.eq_false_iff.1 (hne "other" (by decide))
    · exact Bool.eq_false_iff.1 (hne "one" (by decide))
  unfold branchFor? chosen
  rw [hexact, Option.none_or]
  cases number.isOne with
  | true => rfl
  | false => rfl

theorem fillCount_eq_self {count body : List Char} (h : '#' ∉ body) :
    fillCount count body = body := by
  unfold fillCount
  induction body with
  | nil => rfl
  | cons c body ih =>
    have hc : c ≠ '#' := fun hsame ↦ h (hsame ▸ List.mem_cons_self)
    rw [List.flatMap_cons, if_neg hc, ih fun hmem ↦ h (List.mem_cons_of_mem c hmem)]
    rfl

/-- The text that a lookup chooses from a template, and fills in with its count. -/
def shown (value : ArgumentValue) (one other : String) (number : Number) : List Char :=
  fill [⟨countArgument, value⟩]
    (fillCount number.render.toList (chosen one other number).toList)

/-- The branch takes the place of the expression that it is chosen from. -/
theorem selectBranch?_oneOther {before after : String} (hbefore : '{' ∉ before.toList)
    (hone : Plural.IsBalanced one.toList) (hother : Plural.IsBalanced other.toList)
    (hnumber : value.number? = some number) :
    selectBranch? (before ++ (Plural.oneOther countArgument one other).render ++ after)
        [⟨countArgument, value⟩] =
      some (before ++
        String.ofList (fillCount number.render.toList (chosen one other number).toList) ++
          after) := by
  have hcount : countFor? (Plural.oneOther countArgument one other) [⟨countArgument, value⟩] =
      some number := hnumber
  unfold selectBranch?
  rw [Plural.find?_render (isCanonical_oneOther hone hother) hbefore, Option.bind_some]
  dsimp only
  rw [hcount, Option.bind_some, branchFor?_oneOther]
  rfl

/-- A template that is stored with other blanks at its edges gives the chosen text with those. -/
theorem resolve_oneOther (hkey : catalog.get? key = some stored)
    (htrim : Text.trim stored = Text.trim (Plural.oneOther countArgument one other).render)
    (hone : Plural.IsBalanced one.toList) (hother : Plural.IsBalanced other.toList)
    (hnumber : value.number? = some number) :
    resolve catalog key [⟨countArgument, value⟩] =
      Text.lead stored ++ String.ofList (shown value one other number) ++ Text.trail stored := by
  have hstored : Text.lead stored ++ (Plural.oneOther countArgument one other).render ++
      Text.trail stored = stored := by
    rw [← Plural.trim_render, ← htrim]
    exact Text.lead_append_trim_append_trail_string stored
  have hne : stored ≠ "" := by
    rintro rfl
    rw [Plural.trim_render] at htrim
    cases (congrArg String.toList htrim).trans (Plural.toList_render _)
  have hlead : ∀ c ∈ (Text.lead stored).toList, Text.isBlank c = true := by
    intro c hc
    rw [Text.lead, String.toList_ofList] at hc
    exact Text.isBlank_of_mem_leadChars hc
  have htrail : ∀ c ∈ (Text.trail stored).toList, Text.isBlank c = true := by
    intro c hc
    rw [Text.trail, String.toList_ofList] at hc
    exact Text.isBlank_of_mem_trailChars hc
  have hselect : selectBranch? stored [⟨countArgument, value⟩] =
      some (Text.lead stored ++
        String.ofList (fillCount number.render.toList (chosen one other number).toList) ++
          Text.trail stored) := by
    have hbefore : '{' ∉ (Text.lead stored).toList := fun hmem ↦
      (Plural.ne_brace_of_isBlank (hlead '{' hmem)).1 rfl
    rw [← selectBranch?_oneOther hbefore hone hother hnumber, hstored]
  have hgiven : [Argument.mk countArgument value].isEmpty ≠ true := Bool.false_ne_true
  unfold resolve
  dsimp only
  rw [templateOf_eq hkey hne, hselect, Option.getD_some, if_neg hgiven,
    String.toList_append, String.toList_append, String.toList_ofList,
    fill_between_blanks hlead htrail, String.ofList_append, String.ofList_append,
    String.ofList_toList, String.ofList_toList]
  rfl

/-- A text without a number sign and without a placeholder for the count is shown as it is. -/
theorem shown_eq_chosen (hsign : '#' ∉ (chosen one other number).toList)
    (hnames : countArgument ∉ placeholderNames (chosen one other number).toList) :
    String.ofList (shown value one other number) = chosen one other number := by
  unfold shown
  rw [fillCount_eq_self hsign, fill_eq_self, String.ofList_toList]
  intro name hname
  apply argument?_eq_none
  intro hmem
  cases List.mem_singleton.1 hmem
  exact hnames hname

end Phrasebook.Lookup
