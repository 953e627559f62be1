import Phrasebook.Proofs.Lookup.Choose
import Phrasebook.Proofs.Plural.Braces

/-!
# What a lookup does to braces

A lookup takes braces away in pairs that belong together: those of an expression around the branch
that it chooses, and those of a placeholder around the value that it puts in. As long as no value
brings a brace without its partner, the text that is shown has the same braces as the template.
-/

namespace Phrasebook

open Plural

namespace Number

variable {c : Char}

/-- A character of a written number: a digit, or one of the others that occur. -/
def IsWritten (c : Char) : Prop :=
  c.isDigit = true ∨ c ∈ ['-', '.', 'N', 'a', 'i', 'n', 'f']

instance : Decidable (IsWritten c) :=
  inferInstanceAs (Decidable (_ ∨ _))

theorem IsWritten.ne (h : IsWritten c) : c ≠ '{' ∧ c ≠ '}' ∧ c ≠ '#' := by
  refine ⟨?_, ?_, ?_⟩
  all_goals
    rintro rfl
    revert h
    unfold IsWritten
    decide

theorem isWritten_of_mem_writeOut {digits : List Char} (hdigits : ∀ d ∈ digits, d.isDigit = true)
    {exponent : Int} (hc : c ∈ Notation.plain.writeOut digits exponent) : IsWritten c := by
  unfold Notation.writeOut at hc
  have hzero : ∀ count, ∀ d ∈ List.replicate count '0', IsWritten d := by
    intro count d hd
    rw [List.eq_of_mem_replicate hd]
    exact .inl (by decide)
  split at hc
  · rcases List.mem_append.1 hc with hc | hc
    · rcases List.mem_append.1 hc with hc | hc
      · exact .inl (hdigits c hc)
      · exact hzero _ c hc
    · cases hc
  · dsimp only at hc
    split at hc
    · rcases List.mem_cons.1 hc with rfl | hc
      · exact .inl (by decide)
      rcases List.mem_cons.1 hc with rfl | hc
      · exact .inr (by decide)
      rcases List.mem_append.1 hc with hc | hc
      · exact hzero _ c hc
      · exact .inl (hdigits c hc)
    · rcases List.mem_append.1 hc with hc | hc
      · exact .inl (hdigits c (List.mem_of_mem_take hc))
      rcases List.mem_cons.1 hc with rfl | hc
      · exact .inr (by decide)
      · exact .inl (hdigits c (List.mem_of_mem_drop hc))

/-- Every character of a rendered number is one that numbers are written with. -/
theorem isWritten_of_mem_render (number : Number) (hc : c ∈ number.render.toList) :
    IsWritten c := by
  unfold render write at hc
  cases number with
  | undefined =>
    have hall : "NaN".toList.all (fun d ↦ decide (IsWritten d)) = true := by decide
    exact of_decide_eq_true (List.all_eq_true.1 hall c hc)
  | infinite negative =>
    have hall : (if negative then "-inf" else "inf").toList.all
        (fun d ↦ decide (IsWritten d)) = true := by
      cases negative <;> decide
    exact of_decide_eq_true (List.all_eq_true.1 hall c hc)
  | finite negative mantissa exponent =>
    rw [String.toList_ofList] at hc
    rcases List.mem_append.1 hc with hc | hc
    · cases negative with
      | true =>
        cases List.mem_singleton.1 hc
        exact .inr (by decide)
      | false => cases hc
    · exact isWritten_of_mem_writeOut
        (fun _ ↦ Nat.isDigit_of_mem_toDigits (by decide) (by decide)) hc

theorem isBalanced_render (number : Number) : IsBalanced number.render.toList :=
  .of_forall_ne fun _ hc ↦
    ⟨(isWritten_of_mem_render number hc).ne.1, (isWritten_of_mem_render number hc).ne.2.1⟩

end Number

namespace Lookup

variable {text after : List Char} {template selected name key : String} {catalog : Catalog}
variable {arguments : List Argument}

/-- A count that closes the braces it opens leaves those of a body as they are. -/
theorem sameBraces_fillCount {count : List Char} (hcount : IsBalanced count) (body : List Char) :
    SameBraces (fillCount count body) body := by
  induction body with
  | nil => exact .refl []
  | cons c body ih =>
    have hhead : SameBraces (if c = '#' then count else [c]) [c] := by
      split
      · next hsign =>
        rw [hsign]
        exact hcount.sameBraces (by decide)
      · exact .refl [c]
    exact hhead.append ih

/-- The branch of an expression is in one of its bodies. -/
theorem exists_of_branchFor? {plural : Plural} {number : Number} {body : String}
    (h : branchFor? plural number = some body) :
    ∃ branch ∈ plural.branches, branch.body = body := by
  have hbody : ∀ selector, plural.body? selector = some body →
      ∃ branch ∈ plural.branches, branch.body = body := by
    intro selector hselector
    obtain ⟨branch, hbranch, hsame⟩ := Option.map_eq_some_iff.1 hselector
    exact ⟨branch, List.mem_of_find?_eq_some hbranch, hsame⟩
  rcases Option.or_eq_some_iff.1 h with hexact | ⟨-, h⟩
  · exact hbody _ hexact
  rcases Option.or_eq_some_iff.1 h with hone | ⟨-, hother⟩
  · split at hone
    · exact hbody _ hone
    · cases hone
  · exact hbody _ hother

/-- Choosing a branch leaves a text with the same braces open as its template. -/
theorem sameBraces_selectBranch? (h : selectBranch? template arguments = some selected) :
    SameBraces selected.toList template.toList := by
  obtain ⟨located, hfind, h⟩ := Option.bind_eq_some_iff.1 h
  split at h
  · obtain ⟨number, -, h⟩ := Option.bind_eq_some_iff.1 h
    obtain ⟨body, hbranch, rfl⟩ := Option.map_eq_some_iff.1 h
    obtain ⟨⟨before, plural, behind⟩, hfound, rfl⟩ := Option.map_eq_some_iff.1 hfind
    obtain ⟨branch, hmem, rfl⟩ := exists_of_branchFor? hbranch
    obtain ⟨-, -, -, hbodies⟩ := exists_of_findChars? hfound
    have hbody := (sameBraces_fillCount number.isBalanced_render branch.body.toList).isBalanced
      (hbodies branch hmem)
    simp only [String.toList_append, String.toList_ofList]
    exact sameBraces_of_findChars? hfound hbody
  · cases h

/-- A placeholder stands between two pairs of braces, with no brace in between. -/
theorem exists_of_placeholder? (h : placeholder? text = some (name, after)) :
    ∃ inner, text = '{' :: '{' :: (inner ++ '}' :: '}' :: after) ∧
      ∀ c ∈ inner, c ≠ '{' ∧ c ≠ '}' := by
  unfold placeholder? at h
  split at h
  · next rest =>
    dsimp only at h
    split at h
    · next hclosed =>
      split at h
      · cases h
        have hname : ∀ c, continuesName c = true → c ≠ '{' ∧ c ≠ '}' := by
          intro c hc
          constructor
          · rintro rfl
            exact absurd hc (by decide)
          · rintro rfl
            exact absurd hc (by decide)
        let inner := rest.dropWhile Text.isBlank
        refine ⟨rest.takeWhile Text.isBlank ++ (inner.takeWhile continuesName ++
          (inner.dropWhile continuesName).takeWhile Text.isBlank), ?_, fun c hc ↦ ?_⟩
        · rw [List.append_assoc, List.append_assoc, ← hclosed, List.takeWhile_append_dropWhile,
            List.takeWhile_append_dropWhile, List.takeWhile_append_dropWhile]
        · rcases List.mem_append.1 hc with hc | hc
          · exact ne_brace_of_isBlank (List.mem_takeWhile_imp hc)
          rcases List.mem_append.1 hc with hc | hc
          · exact hname c (List.mem_takeWhile_imp hc)
          · exact ne_brace_of_isBlank (List.mem_takeWhile_imp hc)
      · cases h
    · cases h
  · cases h

theorem exists_of_argument? {value : ArgumentValue} (h : argument? arguments name = some value) :
    ∃ argument ∈ arguments, argument.value = value := by
  obtain ⟨argument, hfound, hvalue⟩ := Option.map_eq_some_iff.1 h
  exact ⟨argument, List.mem_of_find?_eq_some hfound, hvalue⟩

/-- What is filled in has the braces of the text when the values are balanced. -/
theorem sameBraces_fill (h : ∀ argument ∈ arguments, IsBalanced argument.value.render.toList)
    (text : List Char) : SameBraces (fill arguments text) text := by
  induction text using fill.induct with
  | case1 text name after hfound _ ih =>
    obtain ⟨inner, htext, hinner⟩ := exists_of_placeholder? hfound
    let written := '{' :: (('{' :: (inner ++ ['}'])) ++ ['}'])
    have hwhole : text = written ++ after := by
      rw [htext]
      simp [written]
    have hwritten : IsBalanced written := (IsBalanced.of_forall_ne hinner).braces.braces
    have hreplaced : IsBalanced
        (replaced arguments name (text.take (text.length - after.length))) := by
      rw [hwhole, List.length_append, Nat.add_sub_cancel, List.take_left]
      unfold replaced
      cases hvalue : argument? arguments name with
      | none => exact hwritten
      | some value =>
        obtain ⟨argument, hmem, rfl⟩ := exists_of_argument? hvalue
        exact h argument hmem
    rw [fill_placeholder hfound]
    have hboth := (hreplaced.sameBraces hwritten).append ih
    rwa [← hwhole] at hboth
  | case2 =>
    rw [fill_nil]
    exact .refl []
  | case3 c rest hfound ih =>
    rw [fill_cons hfound]
    exact (SameBraces.refl [c]).append ih

/-- A lookup with balanced values shows a text with the braces of the template. -/
theorem sameBraces_resolve (hkey : catalog.get? key = some template) (hne : template ≠ "")
    (h : ∀ argument ∈ arguments, IsBalanced argument.value.render.toList) :
    SameBraces (resolve catalog key arguments).toList template.toList := by
  have hselected : SameBraces ((selectBranch? template arguments).getD template).toList
      template.toList := by
    cases hselect : selectBranch? template arguments with
    | none => exact .refl _
    | some selected => exact sameBraces_selectBranch? hselect
  unfold resolve
  dsimp only
  rw [templateOf_eq hkey hne]
  split
  · exact hselected
  · rw [String.toList_ofList]
    exact (sameBraces_fill h _).trans hselected

end Lookup

end Phrasebook
