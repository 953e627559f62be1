import Phrasebook.Proofs.Plural.Rendered

/-!
# Texts with the same braces

Two texts have the same braces when they do the same to the open braces around them, whatever that
is: they close as many, open as many, and go as deep. Pieces with the same braces make up texts with
the same braces. An expression that is found in a text stands between two braces that belong
together, and so does the body of each of its branches; whichever body takes the place of the
expression, the braces of the text stay the same.
-/

namespace Phrasebook.Plural

variable {text first second inside behind : List Char} {depth after : Nat} {branch : Branch}
variable {branches : List Branch} {plural : Plural}

/-- Two texts leave as many braces open as each other, however many are open before them. -/
def SameBraces (first second : List Char) : Prop :=
  ∀ depth, openAfter? depth first = openAfter? depth second

namespace SameBraces

variable {third : List Char}

theorem refl (text : List Char) : SameBraces text text := fun _ ↦ rfl

theorem symm (h : SameBraces first second) : SameBraces second first := fun depth ↦ (h depth).symm

theorem trans (h : SameBraces first second) (h' : SameBraces second third) :
    SameBraces first third := fun depth ↦ (h depth).trans (h' depth)

theorem append {tail other : List Char} (h : SameBraces first second)
    (htail : SameBraces tail other) : SameBraces (first ++ tail) (second ++ other) := by
  intro depth
  rw [openAfter?_append, openAfter?_append, h depth]
  exact Option.bind_congr fun inner _ ↦ htail inner

theorem isBalanced (h : SameBraces first second) (hsecond : IsBalanced second) :
    IsBalanced first :=
  (h 0).trans hsecond

end SameBraces

theorem IsBalanced.sameBraces (hfirst : IsBalanced first) (hsecond : IsBalanced second) :
    SameBraces first second := by
  intro depth
  rw [hfirst.openAfter?, hsecond.openAfter?]

/-- The text up to a closing brace closes what it opens, besides the braces around it. -/
theorem eq_of_closeBrace? (h : closeBrace? depth text = some (inside, behind)) :
    text = inside ++ '}' :: behind ∧ openAfter? depth inside = some 0 := by
  fun_induction closeBrace? depth text generalizing inside behind with
  | case1 => cases h
  | case2 depth rest ih =>
    obtain ⟨found, hfound, hsame⟩ := Option.map_eq_some_iff.1 h
    cases hsame
    obtain ⟨htext, hopen⟩ := ih hfound
    exact ⟨congrArg _ htext, hopen⟩
  | case3 rest =>
    cases h
    exact ⟨rfl, rfl⟩
  | case4 depth rest ih =>
    obtain ⟨found, hfound, hsame⟩ := Option.map_eq_some_iff.1 h
    cases hsame
    obtain ⟨htext, hopen⟩ := ih hfound
    exact ⟨congrArg _ htext, hopen⟩
  | case5 depth c rest hbrace hzero hsucc ih =>
    obtain ⟨found, hfound, hsame⟩ := Option.map_eq_some_iff.1 h
    cases hsame
    obtain ⟨htext, hopen⟩ := ih hfound
    refine ⟨congrArg _ htext, ?_⟩
    rw [openAfter?.eq_5 _ _ _ hbrace hzero hsucc]
    exact hopen

theorem isBalanced_of_branches? (h : branches? text = some branches) (hbranch : branch ∈ branches) :
    IsBalanced branch.body.toList := by
  fun_induction branches? text generalizing branches with
  | case1 =>
    cases h
    cases hbranch
  | case2 => cases h
  | case3 =>
    rename_i hclosed _ ih
    obtain ⟨others, hothers, hsame⟩ := Option.map_eq_some_iff.1 h
    cases hsame
    rcases List.mem_cons.1 hbranch with rfl | hmem
    · rw [String.toList_ofList]
      exact (eq_of_closeBrace? hclosed).2
    · exact ih hothers hmem
  | case4 => cases h
  | case5 => cases h

/-- The body of every branch of an expression that was read closes the braces that it opens. -/
theorem isBalanced_of_ofBody? (h : ofBody? text = some plural)
    (hbranch : branch ∈ plural.branches) : IsBalanced branch.body.toList := by
  obtain ⟨⟨argument, rest⟩, -, h⟩ := Option.bind_eq_some_iff.1 h
  obtain ⟨⟨kind, rest⟩, -, h⟩ := Option.bind_eq_some_iff.1 h
  dsimp only at h
  split at h
  · split at h
    · next first others hbranches =>
      cases h
      exact isBalanced_of_branches? hbranches hbranch
    · cases h
  · cases h

/-- Where an expression is found, a text is put together from what stands before it, the expression
between braces that belong together, and what stands behind it. -/
theorem exists_of_findChars? {before : List Char}
    (h : findChars? text = some (before, plural, behind)) :
    ∃ inside, text = before ++ ('{' :: (inside ++ ['}'])) ++ behind ∧ IsBalanced inside ∧
      ∀ branch ∈ plural.branches, IsBalanced branch.body.toList := by
  induction text generalizing before with
  | nil => cases h
  | cons c rest ih =>
    rw [findChars?] at h
    rcases Option.or_eq_some_iff.1 h with hhere | ⟨-, hlater⟩
    · split at hhere
      · next hopen =>
        obtain ⟨⟨inside, after⟩, hclosed, hhere⟩ := Option.bind_eq_some_iff.1 hhere
        obtain ⟨found, hbody, hsame⟩ := Option.map_eq_some_iff.1 hhere
        cases hsame
        obtain ⟨htext, hbalanced⟩ := eq_of_closeBrace? hclosed
        refine ⟨inside, ?_, hbalanced, fun branch ↦ isBalanced_of_ofBody? hbody⟩
        rw [hopen, htext]
        simp
      · cases hhere
    · obtain ⟨⟨earlier, found⟩, hfound, hsame⟩ := Option.map_eq_some_iff.1 hlater
      cases hsame
      obtain ⟨inside, htext, hbalanced, hbodies⟩ := ih hfound
      exact ⟨inside, congrArg (c :: ·) htext, hbalanced, hbodies⟩

/-- A balanced text can take the place of an expression that is found. -/
theorem sameBraces_of_findChars? {before body : List Char}
    (h : findChars? text = some (before, plural, behind)) (hbody : IsBalanced body) :
    SameBraces (before ++ body ++ behind) text := by
  obtain ⟨inside, rfl, hinside, -⟩ := exists_of_findChars? h
  exact ((SameBraces.refl before).append (hbody.sameBraces hinside.braces)).append (.refl behind)

end Phrasebook.Plural
