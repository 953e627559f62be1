import Phrasebook.Plural.Basic
import Phrasebook.Proofs.Text.Blank

/-!
# Plural expressions between blanks

The expression of a text does not depend on the blanks at the edges of the text: they hold no brace,
so they neither open nor close an expression.
-/

namespace Phrasebook.Plural

variable {lead text tail : List Char} {first second : String} {depth : Nat}

theorem ne_brace_of_isBlank {c : Char} (h : Text.isBlank c = true) : c ≠ '{' ∧ c ≠ '}' := by
  constructor
  · rintro rfl
    exact absurd h (by decide)
  · rintro rfl
    exact absurd h (by decide)

theorem closeBrace?_blanks (h : ∀ c ∈ tail, Text.isBlank c = true) :
    closeBrace? depth tail = none := by
  induction tail generalizing depth with
  | nil => unfold closeBrace?; rfl
  | cons c tail ih =>
    obtain ⟨hopen, hclose⟩ := ne_brace_of_isBlank (h c List.mem_cons_self)
    have hrest : closeBrace? depth tail = none := ih fun d hd ↦ h d (List.mem_cons_of_mem c hd)
    rw [closeBrace?.eq_5 _ _ _ hopen (fun _ ↦ hclose) (fun _ _ ↦ hclose), hrest]
    rfl

/-- Blanks at the end of a text have no part in closing a brace. -/
theorem closeBrace?_append_blanks (h : ∀ c ∈ tail, Text.isBlank c = true) :
    closeBrace? depth (text ++ tail) =
      (closeBrace? depth text).map fun found ↦ (found.1, found.2 ++ tail) := by
  fun_induction closeBrace? depth text with
  | case1 => exact closeBrace?_blanks h
  | case2 depth rest ih =>
    rw [List.cons_append, closeBrace?, ih]
    cases closeBrace? (depth + 1) rest <;> rfl
  | case3 rest => rfl
  | case4 depth rest ih =>
    rw [List.cons_append, closeBrace?, ih]
    cases closeBrace? depth rest <;> rfl
  | case5 depth c rest hopen hzero hsucc ih =>
    rw [List.cons_append, closeBrace?.eq_5 _ _ _ hopen hzero hsucc, ih]
    cases closeBrace? depth rest <;> rfl

theorem findChars?_blanks (h : ∀ c ∈ tail, Text.isBlank c = true) : findChars? tail = none := by
  induction tail with
  | nil => rfl
  | cons c tail ih =>
    have hopen := (ne_brace_of_isBlank (h c List.mem_cons_self)).1
    rw [findChars?, if_neg hopen, ih fun d hd ↦ h d (List.mem_cons_of_mem c hd)]
    rfl

/-- Blanks at the end of a text do not change which expression is found in it. -/
theorem findChars?_append_blanks (h : ∀ c ∈ tail, Text.isBlank c = true) (text : List Char) :
    findChars? (text ++ tail) =
      (findChars? text).map fun found ↦ (found.1, found.2.1, found.2.2 ++ tail) := by
  induction text with
  | nil => exact findChars?_blanks h
  | cons c rest ih =>
    rw [List.cons_append, findChars?, findChars?, ih]
    by_cases hopen : c = '{'
    · rw [if_pos hopen, if_pos hopen, closeBrace?_append_blanks h]
      cases closeBrace? 0 rest with
      | none => cases findChars? rest <;> rfl
      | some found =>
        obtain ⟨body, after⟩ := found
        dsimp only [Option.map_some, Option.bind_some]
        cases ofBody? body with
        | none => cases findChars? rest <;> rfl
        | some plural => rfl
    · rw [if_neg hopen, if_neg hopen]
      cases findChars? rest <;> rfl

theorem findChars?_blanks_append (h : ∀ c ∈ lead, Text.isBlank c = true) (text : List Char) :
    findChars? (lead ++ text) = (findChars? text).map fun found ↦ (lead ++ found.1, found.2) := by
  induction lead with
  | nil => exact Option.map_id'.symm
  | cons c lead ih =>
    have hopen := (ne_brace_of_isBlank (h c List.mem_cons_self)).1
    rw [List.cons_append, findChars?, if_neg hopen, ih fun d hd ↦ h d (List.mem_cons_of_mem c hd)]
    cases findChars? text <;> rfl

/-- The first expression in a text, without the text around it. -/
def expressionOf? (text : String) : Option Plural :=
  (find? text).map (·.plural)

/-- The first expression in a text is that of the text without the blanks at its edges. -/
theorem expressionOf?_eq (text : String) :
    expressionOf? text = (findChars? (Text.trimChars text.toList)).map fun found ↦ found.2.1 := by
  have hedges := Text.lead_append_trim_append_trail text.toList
  have hlead : ∀ c ∈ Text.leadChars text.toList, Text.isBlank c = true :=
    fun c ↦ Text.isBlank_of_mem_leadChars
  have htrail : ∀ c ∈ Text.trailChars text.toList, Text.isBlank c = true :=
    fun c ↦ Text.isBlank_of_mem_trailChars
  have hfound := findChars?_append_blanks htrail
    (Text.leadChars text.toList ++ Text.trimChars text.toList)
  rw [hedges, findChars?_blanks_append hlead] at hfound
  unfold expressionOf? find?
  rw [hfound]
  cases findChars? (Text.trimChars text.toList) <;> rfl

/-- Texts that differ in the blanks at their edges only hold the same expression. -/
theorem expressionOf?_congr (h : Text.trim first = Text.trim second) :
    expressionOf? first = expressionOf? second := by
  have hchars : Text.trimChars first.toList = Text.trimChars second.toList :=
    String.ofList_injective h
  rw [expressionOf?_eq, expressionOf?_eq, hchars]

end Phrasebook.Plural
