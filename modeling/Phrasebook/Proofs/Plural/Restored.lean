import Mathlib.Data.List.Forall2
import Phrasebook.Proofs.Plural.Suffixes

/-!
# Plural expressions whose words are restored

An expression whose words were translated along is found again in the text that normalization makes
of the text around it: with the known words mapped back, with as many branches in the same order,
and with nothing else changed but that suffixes `(s)` are removed. Suffixes are removed from the
whole text, the expression included, but since its words and its selectors hold no parentheses only
the texts before, between and behind its braces lose any.
-/

namespace Phrasebook.Plural

variable {text rest front result other earlier : List Char} {plural : Plural}
variable {branches others : List Branch} {word : String}

theorem exists_of_isAmong {words : List String} (h : isAmong words word = true) :
    ∃ known ∈ words, word.toList.map Char.toLower = known.toList := by
  unfold isAmong at h
  rw [List.contains_eq_mem, decide_eq_true_eq] at h
  exact ⟨_, h, by rw [String.toList_ofList]⟩

theorem isAlphanumeric_of_isAlpha_toLower {c : Char} (h : c.toLower.isAlpha = true) :
    Text.isAlphanumeric c = true := by
  have halpha : c.isAlpha = true := by
    unfold Char.toLower at h
    split at h
    · next hupper => exact Bool.or_eq_true_iff.2 (.inl (decide_eq_true hupper))
    · exact h
  have hascii : c.toNat < 128 := by
    rcases Bool.or_eq_true_iff.1 halpha with hupper | hlower
    · have hlast : c.toNat ≤ 'Z'.toNat := (of_decide_eq_true hupper).2
      exact Nat.lt_of_le_of_lt hlast (by decide)
    · have hlast : c.toNat ≤ 'z'.toNat := of_decide_eq_true (Bool.and_eq_true_iff.1 hlower).2
      exact Nat.lt_of_le_of_lt hlast (by decide)
  unfold Text.isAlphanumeric Text.isAlphabetic
  rw [if_pos hascii, halpha, Bool.true_or]

/-- A known word for the kind of an expression is a word, whatever the case of its letters. -/
theorem isWord_of_isAmong (h : isAmong kindWords word = true) : isWord word.toList = true := by
  obtain ⟨known, hknown, hletters⟩ := exists_of_isAmong h
  have hall : (kindWords.all fun known ↦
      !known.toList.isEmpty && known.toList.all Char.isAlpha) = true := by decide
  have hknown' := List.all_eq_true.1 hall known hknown
  rw [Bool.and_eq_true_iff, Bool.not_eq_true', List.isEmpty_eq_false_iff,
    List.all_eq_true] at hknown'
  obtain ⟨hfilled, halpha⟩ := hknown'
  rw [← hletters] at hfilled halpha
  rw [isWord, Bool.and_eq_true_iff, List.all_eq_true]
  refine ⟨?_, fun c hc ↦ ?_⟩
  · cases hword : word.toList with
    | nil =>
      rw [hword] at hfilled
      exact absurd rfl hfilled
    | cons c rest => rfl
  · rw [isAlphanumeric_of_isAlpha_toLower (halpha _ (List.mem_map_of_mem hc)), Bool.true_or]

theorem hasMarkerChars_append {inWord : Bool} {c : Char} (hc : Text.isWordCharacter c = false)
    (h : hasMarkerChars false rest = true) : hasMarkerChars inWord (front ++ c :: rest) = true := by
  induction front generalizing inWord with
  | nil => rw [List.nil_append, hasMarkerChars, hc, h, Bool.or_true]
  | cons d front ih => rw [List.cons_append, hasMarkerChars, ih, Bool.or_true]

/-- A known word marks a text that begins with it, when no word goes on behind it. -/
theorem hasMarkerChars_word (h : isAmong kindWords word = true)
    (hrest : beginsInWord rest = false) : hasMarkerChars false (word.toList ++ rest) = true := by
  obtain ⟨known, hknown, hletters⟩ := exists_of_isAmong h
  have hdrop : dropWord? known.toList (word.toList ++ rest) = some rest :=
    dropWord?_eq_some_iff.2 ⟨word.toList, hletters, rfl⟩
  cases hword : word.toList with
  | nil =>
    have hfilled := isWord_of_isAmong h
    rw [hword] at hfilled
    cases hfilled
  | cons c letters =>
    rw [hword] at hdrop
    rw [List.cons_append] at hdrop ⊢
    rw [hasMarkerChars, Bool.not_false, Bool.true_and, Bool.or_eq_true, List.any_eq_true]
    refine .inl ⟨known, hknown, ?_⟩
    rw [hdrop]
    dsimp only
    rw [hrest, Bool.not_false]

/-- The kind of an expression marks the text around it, when it is a known word. -/
theorem hasMarker_render (h : isAmong kindWords plural.kind = true) (before after : String) :
    hasMarker (before ++ plural.render ++ after) = true := by
  have htext : (before ++ plural.render ++ after).toList =
      (before.toList ++ '{' :: (plural.argument.toList ++ [','])) ++ ' ' ::
        (plural.kind.toList ++ ',' ::
          (renderBranches plural.branches ++ '}' :: after.toList)) := by
    rw [toList_append_render_append, renderBody]
    simp
  have hcomma : ∀ rest, beginsInWord (',' :: rest) = false := fun rest ↦
    show Text.isWordCharacter ',' = false by decide
  rw [hasMarker, htext]
  exact hasMarkerChars_append (by decide) (hasMarkerChars_word h (hcomma _))

/-- An expression whose words were translated along: its kind is a known word, and its selectors
are words or numbers behind an equals sign. -/
structure IsTranslated (plural : Plural) : Prop where
  argument : isWord plural.argument.toList = true
  kind : isAmong kindWords plural.kind = true
  filled : plural.branches ≠ []
  selectors : ∀ branch ∈ plural.branches, isWord branch.selector.toList = true ∨
    ∃ digits, branch.selector.toList = '=' :: digits ∧ ∀ c ∈ digits, Text.isNumeric c = true
  bodies : ∀ branch ∈ plural.branches, IsBalanced branch.body.toList

theorem not_mem_word (h : isWord text = true) : '(' ∉ text := by
  intro hmem
  exact absurd (List.all_eq_true.1 (Bool.and_eq_true_iff.1 h).2 _ hmem) (by decide)

theorem IsSelector.of_isWord (h : isWord text = true) : IsSelector text where
  filled := by
    rintro rfl
    cases h
  unended := by
    intro c hc
    obtain ⟨hblank, -, hopen, -⟩ := of_mem_word h hc
    rw [endsSelector, hblank, Bool.or_false]
    exact beq_eq_false_iff_ne.2 hopen
  unclosed := fun hc ↦ (of_mem_word h hc).2.2.2 rfl

theorem isWord_of_forall_isNumeric {digits : List Char} (hfilled : digits ≠ [])
    (h : ∀ c ∈ digits, Text.isNumeric c = true) : isWord digits = true := by
  rw [isWord, Bool.and_eq_true_iff, List.all_eq_true]
  refine ⟨?_, fun c hc ↦ ?_⟩
  · rw [Bool.not_eq_true', List.isEmpty_eq_false_iff]
    exact hfilled
  · rw [Text.isAlphanumeric, h c hc, Bool.or_true, Bool.true_or]

/-- A selector that is a word, or digits behind an equals sign, is plain and holds no opening
parenthesis. -/
theorem isSelector_of_word_or_digits {selector : List Char}
    (h : isWord selector = true ∨
      ∃ digits, selector = '=' :: digits ∧ ∀ c ∈ digits, Text.isNumeric c = true) :
    IsSelector selector ∧ '(' ∉ selector := by
  rcases h with hword | ⟨digits, rfl, hdigits⟩
  · exact ⟨.of_isWord hword, not_mem_word hword⟩
  by_cases hfilled : digits = []
  · subst hfilled
    exact ⟨.of_all (by decide) (by decide), by decide⟩
  have hword := isWord_of_forall_isNumeric hfilled hdigits
  obtain ⟨-, hunended, hunclosed⟩ := IsSelector.of_isWord hword
  refine ⟨⟨List.cons_ne_nil _ _, fun c hc ↦ ?_, fun hc ↦ ?_⟩, fun hc ↦ ?_⟩
  · rcases List.mem_cons.1 hc with rfl | hc
    · decide
    · exact hunended c hc
  · rcases List.mem_cons.1 hc with hc | hc
    · cases hc
    · exact hunclosed hc
  · rcases List.mem_cons.1 hc with hc | hc
    · cases hc
    · exact not_mem_word hword hc

theorem isSelector_canonicalSelector {selector : String}
    (h : IsSelector selector.toList ∧ '(' ∉ selector.toList) :
    IsSelector (canonicalSelector selector).toList ∧ '(' ∉ (canonicalSelector selector).toList := by
  unfold canonicalSelector
  split
  · exact ⟨.of_isWord (by decide), by decide⟩
  split
  · exact ⟨.of_isWord (by decide), by decide⟩
  · exact h

namespace IsTranslated

theorem isCanonical (h : plural.IsTranslated) : plural.IsCanonical where
  argument := h.argument
  kind := isWord_of_isAmong h.kind
  filled := h.filled
  branches := fun branch hbranch ↦
    ⟨(isSelector_of_word_or_digits (h.selectors branch hbranch)).1, h.bodies branch hbranch⟩

theorem isWord_argument_canonical (h : plural.IsTranslated) :
    isWord plural.canonical.argument.toList = true := by
  unfold canonical
  dsimp only
  split
  · decide
  · exact h.argument

theorem restoreWords (h : plural.IsTranslated) {before : String} (hbefore : '{' ∉ before.toList)
    (after : String) :
    Plural.restoreWords (before ++ plural.render ++ after) =
      before ++ plural.canonical.render ++ after := by
  rw [Plural.restoreWords, find?_render h.isCanonical hbefore]
  dsimp only
  rw [if_pos h.kind]

theorem normalize (h : plural.IsTranslated) {before : String} (hbefore : '{' ∉ before.toList)
    (after : String) :
    Plural.normalize (before ++ plural.render ++ after) =
      withoutSuffixes (before ++ plural.canonical.render ++ after) := by
  rw [Plural.normalize, if_pos (hasMarker_render h.kind before after), h.restoreWords hbefore,
    withoutSuffixes]

end IsTranslated

def Branch.withoutSuffixes (branch : Branch) : Branch :=
  { branch with body := Plural.withoutSuffixes branch.body }

/-- An expression without the suffixes in its bodies. -/
def stripped (plural : Plural) : Plural :=
  { plural with branches := plural.branches.map Branch.withoutSuffixes }

theorem renderBranches_cons_append (branch : Branch) (branches : List Branch) (rest : List Char) :
    renderBranches (branch :: branches) ++ rest =
      (' ' :: (branch.selector.toList ++ [' ', '{'])) ++
        (branch.body.toList ++ '}' :: (renderBranches branches ++ rest)) := by
  unfold renderBranches
  rw [List.flatMap_cons, Branch.toList_render]
  simp

/-- Only the bodies lose suffixes when suffixes are removed from branches. -/
theorem suffixesRemoved_renderBranches (h : ∀ branch ∈ branches, '(' ∉ branch.selector.toList)
    (hrest : SuffixesRemoved [] rest result) (earlier : List Char) :
    SuffixesRemoved earlier (renderBranches branches ++ '}' :: rest)
      (renderBranches (branches.map Branch.withoutSuffixes) ++ '}' :: result) := by
  induction branches generalizing earlier with
  | nil => exact SuffixesRemoved.append_brace (.inr rfl) (.nil earlier) hrest
  | cons branch branches ih =>
    have hplain : '(' ∉ ' ' :: (branch.selector.toList ++ [' ', '{']) := by
      have hselector := h branch List.mem_cons_self
      simpa using hselector
    have hothers := ih (fun other hother ↦ h other (List.mem_cons_of_mem branch hother)) []
    have hbody := (suffixesRemoved_withoutSuffixes branch.body).append_brace (.inr rfl) hothers
    have hopened := hbody.behind_brace (.inl rfl)
      (earlier ++ ' ' :: (branch.selector.toList ++ [' ']))
    rw [renderBranches_cons_append, List.map_cons, renderBranches_cons_append]
    exact .keep_plain hplain (by simpa [Branch.withoutSuffixes] using hopened)

/-- The text of an expression, with what stands before its branches apart. -/
theorem renderBody_append (plural : Plural) (rest : List Char) :
    plural.renderBody ++ rest = (plural.argument.toList ++ ',' :: ' ' ::
      (plural.kind.toList ++ [','])) ++ (renderBranches plural.branches ++ rest) := by
  rw [renderBody]
  simp

/-- The suffixes around an expression and in its bodies are all that is removed from a text. -/
theorem withoutSuffixes_render (hargument : isWord plural.argument.toList = true)
    (hkind : isWord plural.kind.toList = true)
    (hselectors : ∀ branch ∈ plural.branches, '(' ∉ branch.selector.toList)
    (before after : String) :
    withoutSuffixes (before ++ plural.render ++ after) =
      withoutSuffixes before ++ plural.stripped.render ++ withoutSuffixes after := by
  have hplain : '(' ∉ plural.argument.toList ++ ',' :: ' ' :: (plural.kind.toList ++ [',']) := by
    have hargument' := not_mem_word hargument
    have hkind' := not_mem_word hkind
    simp [hargument', hkind']
  have hbranches :=
    suffixesRemoved_renderBranches hselectors (suffixesRemoved_withoutSuffixes after)
      (plural.argument.toList ++ ',' :: ' ' :: (plural.kind.toList ++ [',']))
  have hexpression : SuffixesRemoved [] _ _ := .keep_plain hplain hbranches
  apply withoutSuffixes_eq
  rw [toList_append_render_append, toList_append_render_append, renderBody_append,
    renderBody_append]
  exact (suffixesRemoved_withoutSuffixes before).append_brace (.inl rfl) hexpression

/-! ## Expressions in their own words again -/

/-- What a branch becomes: known words for `one` and `other` are mapped back, and the body stays as
it is but for its suffixes. -/
structure Branch.BecomesBranch (branch restored : Branch) : Prop where
  one : isAmong oneWords branch.selector = true → restored.selector = "one"
  other : isAmong oneWords branch.selector = false → isAmong otherWords branch.selector = true →
    restored.selector = "other"
  kept : isAmong oneWords branch.selector = false → isAmong otherWords branch.selector = false →
    restored.selector = branch.selector
  body : SuffixesRemoved [] branch.body.toList restored.body.toList

/-- What an expression with the text around it becomes: known words are mapped back, every branch
stays in its place, and the rest stays as it is but for its suffixes. -/
structure Becomes (located restored : Located) : Prop where
  before : SuffixesRemoved [] located.before.toList restored.before.toList
  count : isAmong countWords located.plural.argument = true → restored.plural.argument = "count"
  argument : isAmong countWords located.plural.argument = false →
    restored.plural.argument = located.plural.argument
  kind : restored.plural.kind = "plural"
  branches : List.Forall₂ Branch.BecomesBranch located.plural.branches restored.plural.branches
  after : SuffixesRemoved [] located.after.toList restored.after.toList

theorem becomesBranch_withoutSuffixes (branch : Branch) :
    branch.BecomesBranch
      { branch with selector := canonicalSelector branch.selector }.withoutSuffixes where
  one := fun hone ↦ by
    unfold Branch.withoutSuffixes canonicalSelector
    exact if_pos hone
  other := fun hone hother ↦ by
    unfold Branch.withoutSuffixes canonicalSelector
    dsimp only
    rw [if_neg (Bool.eq_false_iff.1 hone), if_pos hother]
  kept := fun hone hother ↦ by
    unfold Branch.withoutSuffixes canonicalSelector
    dsimp only
    rw [if_neg (Bool.eq_false_iff.1 hone), if_neg (Bool.eq_false_iff.1 hother)]
  body := suffixesRemoved_withoutSuffixes branch.body

/-- An expression with the text around it becomes its canonical form without suffixes. -/
theorem becomes_stripped_canonical (before : String) (plural : Plural) (after : String) :
    Becomes ⟨before, plural, after⟩
      ⟨withoutSuffixes before, plural.canonical.stripped, withoutSuffixes after⟩ where
  before := suffixesRemoved_withoutSuffixes before
  count := fun hcount ↦ if_pos hcount
  argument := fun hcount ↦ if_neg (Bool.eq_false_iff.1 hcount)
  kind := rfl
  branches := by
    unfold stripped canonical
    dsimp only
    rw [List.map_map, List.forall₂_map_right_iff]
    exact List.forall₂_same.2 fun branch _ ↦ becomesBranch_withoutSuffixes branch
  after := suffixesRemoved_withoutSuffixes after

/-- A translated expression becomes one that is read back as it was written. -/
theorem IsTranslated.isCanonical_stripped_canonical (h : plural.IsTranslated) :
    plural.canonical.stripped.IsCanonical where
  argument := h.isWord_argument_canonical
  kind := show isWord "plural".toList = true by decide
  filled := by
    have hfilled := h.filled
    simpa [stripped, canonical] using hfilled
  branches := by
    intro again hagain
    obtain ⟨restored, hrestored, rfl⟩ := List.mem_map.1 hagain
    obtain ⟨branch, hbranch, rfl⟩ := List.mem_map.1 hrestored
    exact
      { selector := (isSelector_canonicalSelector
          (isSelector_of_word_or_digits (h.selectors branch hbranch))).1
        body := (suffixesRemoved_withoutSuffixes branch.body).sameBraces.isBalanced
          (h.bodies branch hbranch) }

/-- An expression whose words were translated along is found again in the normalized text, with
known words mapped back, every branch in its place, and the text before it, behind it and in its
bodies as they were but for suffixes that do not follow the word `item`. -/
theorem find?_normalize (h : plural.IsTranslated) {before : String} (hbefore : '{' ∉ before.toList)
    (after : String) :
    ∃ restored, find? (normalize (before ++ plural.render ++ after)) = some restored ∧
      Becomes ⟨before, plural, after⟩ restored := by
  have hselectors : ∀ branch ∈ plural.canonical.branches, '(' ∉ branch.selector.toList := by
    intro restored hrestored
    obtain ⟨branch, hbranch, rfl⟩ := List.mem_map.1 hrestored
    exact (isSelector_canonicalSelector
      (isSelector_of_word_or_digits (h.selectors branch hbranch))).2
  have hplain : '{' ∉ (withoutSuffixes before).toList := fun hmem ↦
    hbefore ((suffixesRemoved_withoutSuffixes before).sublist.mem hmem)
  refine ⟨_, ?_, becomes_stripped_canonical before plural after⟩
  have hkind : isWord plural.canonical.kind.toList = true := show isWord "plural".toList = true by
    decide
  rw [h.normalize hbefore, withoutSuffixes_render h.isWord_argument_canonical hkind hselectors]
  exact find?_render h.isCanonical_stripped_canonical hplain (withoutSuffixes after)

/-- An expression in French words, with suffixes before it, behind it and in its bodies. -/
def translatedFiles : Located where
  before := "Fichier(s): "
  plural := ⟨"Compte", "PLURIEL", [⟨"=0", "aucun"⟩, ⟨"Un", "\x7b\x7bnom\x7d\x7d(s)"⟩,
    ⟨"few", "# Item ( S )"⟩, ⟨"AUTRES", "# fichier( s)"⟩]⟩
  after := "(s) \x7bici\x7d"

/-- The expression in the words that a lookup knows, with the suffix that follows the word. -/
def restoredFiles : Located where
  before := "Fichier: "
  plural := ⟨"count", "plural", [⟨"=0", "aucun"⟩, ⟨"one", "\x7b\x7bnom\x7d\x7d"⟩,
    ⟨"few", "# Item ( S )"⟩, ⟨"other", "# fichier"⟩]⟩
  after := " \x7bici\x7d"

theorem isTranslated_translatedFiles : translatedFiles.plural.IsTranslated where
  argument := by decide
  kind := by decide
  filled := by decide
  selectors := by
    have hall : ∀ branch ∈ translatedFiles.plural.branches, branch.selector.toList = ['=', '0'] ∨
        isWord branch.selector.toList = true := by decide
    intro branch hbranch
    exact (hall branch hbranch).symm.imp_right fun hzero ↦
      ⟨['0'], hzero, List.forall_mem_singleton.2 (by decide)⟩
  bodies := by decide

theorem find?_normalize_translatedFiles :
    find? (normalize (translatedFiles.before ++ translatedFiles.plural.render ++
        translatedFiles.after)) = some restoredFiles ∧ Becomes translatedFiles restoredFiles := by
  have hfound : find? (normalize (translatedFiles.before ++ translatedFiles.plural.render ++
      translatedFiles.after)) = some restoredFiles := by decide +kernel
  obtain ⟨restored, hrestored, hbecomes⟩ := find?_normalize isTranslated_translatedFiles
    (show '{' ∉ translatedFiles.before.toList by decide) translatedFiles.after
  rw [hfound] at hrestored
  cases hrestored
  exact ⟨hfound, hbecomes⟩

end Phrasebook.Plural
