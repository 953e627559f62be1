import Phrasebook.Proofs.Plural.Braces

/-!
# The expression that is found

What the search for a plural expression finds, in terms of the text that is searched: a brace opens
the expression, what stands between it and the brace that closes it can be read as an expression,
and no brace before it opens one. What was read is in order: its argument and its kind are words,
its selectors are plain, and the braces in its bodies are balanced. So the expressions that can be
read are exactly those that are found again after they were written.
-/

namespace Phrasebook.Plural

variable {text rest front before behind : List Char} {c : Char} {branches : List Branch}
variable {plural : Plural}

def selectorOf (text : List Char) : List Char :=
  (text.dropWhile Text.isBlank).takeWhile fun c ↦ !endsSelector c

/-- What stands behind the selector that a text begins with, and behind blanks. -/
def behindSelector (text : List Char) : List Char :=
  ((text.dropWhile Text.isBlank).dropWhile fun c ↦ !endsSelector c).dropWhile Text.isBlank

/-- A branch is read off a text that begins with a selector and a body between braces. -/
theorem branches?_of_closeBrace? {opened body : List Char}
    (hany : (text.dropWhile Text.isBlank).isEmpty = false)
    (hopened : behindSelector text = '{' :: opened)
    (hselector : ((selectorOf text).isEmpty || (selectorOf text).contains '}') = false)
    (hclosed : closeBrace? 0 opened = some (body, rest)) :
    branches? text =
      (branches? rest).map (⟨String.ofList (selectorOf text), String.ofList body⟩ :: ·) := by
  unfold behindSelector at hopened
  unfold selectorOf at hselector ⊢
  rw [branches?]
  simp only [hany, Bool.false_eq_true, if_false]
  split
  · next other hother =>
    rw [hopened] at hother
    cases hother
    rw [if_neg (Bool.eq_false_iff.1 hselector)]
    split
    · next found later hfound =>
      rw [hclosed] at hfound
      cases hfound
      rfl
    · next hnone =>
      rw [hclosed] at hnone
      cases hnone
  · next hother => exact absurd hopened (hother _)

/-- A text is divided at its first comma. -/
theorem splitComma?_eq_some_iff :
    splitComma? text = some (front, rest) ↔ text = front ++ ',' :: rest ∧ ',' ∉ front := by
  constructor
  · intro h
    unfold splitComma? at h
    split at h
    · next c behind hdrop =>
      cases h
      have hc : (text.dropWhile (· != ',')).head? = some c := by rw [hdrop, List.head?_cons]
      have hcomma := List.head?_dropWhile_not (· != ',') text
      rw [hc] at hcomma
      obtain rfl : c = ',' := by simpa using hcomma
      refine ⟨by rw [← hdrop, List.takeWhile_append_dropWhile], fun hmem ↦ ?_⟩
      simpa using List.mem_takeWhile_imp hmem
    · cases h
  · rintro ⟨rfl, hcomma⟩
    exact splitComma?_append hcomma rest

/-- There is no brace in a text that is a word between blanks. -/
theorem not_mem_of_isWord_trimChars (h : isWord (Text.trimChars text) = true) : '{' ∉ text := by
  rw [← Text.lead_append_trim_append_trail text]
  simp only [List.mem_append, not_or]
  refine ⟨⟨fun hmem ↦ ?_, fun hmem ↦ (of_mem_word h hmem).2.2.1 rfl⟩, fun hmem ↦ ?_⟩
  · exact (ne_brace_of_isBlank (Text.isBlank_of_mem_leadChars hmem)).1 rfl
  · exact (ne_brace_of_isBlank (Text.isBlank_of_mem_trailChars hmem)).1 rfl

/-- The parts that an expression is read from: its argument and its kind, words between blanks with
a comma behind each of them, and its branches. -/
structure ReadFrom (text argument kind rest : List Char) (plural : Plural) : Prop where
  text : text = argument ++ ',' :: (kind ++ ',' :: rest)
  argument_comma : ',' ∉ argument
  kind_comma : ',' ∉ kind
  argument_word : isWord (Text.trimChars argument) = true
  kind_word : isWord (Text.trimChars kind) = true
  argument : plural.argument = String.ofList (Text.trimChars argument)
  kind : plural.kind = String.ofList (Text.trimChars kind)
  branches : branches? rest = some plural.branches
  filled : plural.branches ≠ []

/-- The text between two braces is read as an expression exactly when it has the parts of one. -/
theorem ofBody?_eq_some_iff :
    ofBody? text = some plural ↔ ∃ argument kind rest, ReadFrom text argument kind rest plural := by
  constructor
  · intro h
    obtain ⟨⟨argument, middle⟩, hargument, hmiddle⟩ := Option.bind_eq_some_iff.1 h
    obtain ⟨⟨kind, rest⟩, hkind, hrest⟩ := Option.bind_eq_some_iff.1 hmiddle
    obtain ⟨rfl, hcomma⟩ := splitComma?_eq_some_iff.1 hargument
    obtain ⟨rfl, hcomma'⟩ := splitComma?_eq_some_iff.1 hkind
    dsimp only at hrest
    split at hrest
    · next hwords =>
      obtain ⟨hword, hword'⟩ := Bool.and_eq_true_iff.1 hwords
      split at hrest
      · next branch others hbranches =>
        cases hrest
        exact ⟨argument, kind, rest, rfl, hcomma, hcomma', hword, hword', rfl, rfl, hbranches,
          List.cons_ne_nil branch others⟩
      · cases hrest
    · cases hrest
  · rintro ⟨argument, kind, rest, rfl, hcomma, hcomma', hword, hword', hargument, hkind, hbranches,
      hfilled⟩
    unfold ofBody?
    rw [splitComma?_append hcomma, Option.bind_some]
    dsimp only
    rw [splitComma?_append hcomma', Option.bind_some]
    dsimp only
    rw [hword, hword', Bool.and_self, if_pos rfl, hbranches, ← hargument, ← hkind]
    obtain ⟨_, _, branches⟩ := plural
    cases branches with
    | nil => exact absurd rfl hfilled
    | cons branch others => rfl

theorem isSelector_of_branches? (h : branches? text = some branches) {branch : Branch}
    (hbranch : branch ∈ branches) : IsSelector branch.selector.toList := by
  fun_induction branches? text generalizing branches with
  | case1 =>
    cases h
    cases hbranch
  | case2 => cases h
  | case3 text trimmed hany selector opened hopened haccepted body rest hclosed =>
    rename_i ih
    obtain ⟨others, hothers, rfl⟩ := Option.map_eq_some_iff.1 h
    rcases List.mem_cons.1 hbranch with rfl | hmem
    · rw [Bool.not_eq_true, Bool.or_eq_false_iff, List.isEmpty_eq_false_iff, List.contains_eq_mem,
        decide_eq_false_iff_not] at haccepted
      obtain ⟨hfilled, hunclosed⟩ := haccepted
      rw [String.toList_ofList]
      exact ⟨hfilled, fun c hc ↦ by simpa using List.mem_takeWhile_imp hc, hunclosed⟩
    · exact ih hothers hmem
  | case4 => cases h
  | case5 => cases h

theorem isCanonical_of_ofBody? (h : ofBody? text = some plural) : plural.IsCanonical := by
  obtain ⟨argument, kind, rest, hread⟩ := ofBody?_eq_some_iff.1 h
  exact
    { argument := by rw [hread.argument, String.toList_ofList]; exact hread.argument_word
      kind := by rw [hread.kind, String.toList_ofList]; exact hread.kind_word
      filled := hread.filled
      branches := fun branch hbranch ↦
        ⟨isSelector_of_branches? hread.branches hbranch,
          isBalanced_of_branches? hread.branches hbranch⟩ }

/-- The expression that a brace before a text opens, with what stands behind it. -/
def opened? (text : List Char) : Option (Plural × List Char) :=
  (closeBrace? 0 text).bind fun (inside, behind) ↦
    (ofBody? inside).map fun plural ↦ (plural, behind)

/-- A brace opens an expression when the text up to the brace that closes it can be read as one. -/
theorem opened?_eq_some_iff :
    opened? text = some (plural, behind) ↔
      ∃ inside, text = inside ++ '}' :: behind ∧ IsBalanced inside ∧
        ofBody? inside = some plural := by
  unfold opened?
  constructor
  · intro h
    obtain ⟨⟨inside, later⟩, hclosed, hread⟩ := Option.bind_eq_some_iff.1 h
    obtain ⟨found, hbody, hsame⟩ := Option.map_eq_some_iff.1 hread
    cases hsame
    obtain ⟨htext, hbalanced⟩ := eq_of_closeBrace? hclosed
    exact ⟨inside, htext, hbalanced, hbody⟩
  · rintro ⟨inside, rfl, hbalanced, hbody⟩
    rw [closeBrace?_of_isBalanced hbalanced, Option.bind_some]
    dsimp only
    rw [hbody, Option.map_some]

/-! ## The first expression -/

/-- An expression is found at the start of a text, or else behind its first character. -/
theorem findChars?_cons (c : Char) (text : List Char) :
    findChars? (c :: text) =
      (if c = '{' then (opened? text).map fun found ↦ ([], found) else none).or
        ((findChars? text).map fun found ↦ (c :: found.1, found.2)) := by
  rw [findChars?]
  congr 1
  split
  · unfold opened?
    rw [Option.map_bind]
    congr 1
    funext found
    obtain ⟨inside, behind⟩ := found
    cases h : ofBody? inside <;> simp [h]
  · rfl

/-- The first expression of a text: it is read from what stands between two braces that belong
together, and no brace before them opens an expression. -/
structure FirstIn (text before : List Char) (plural : Plural) (behind : List Char) : Prop where
  encloses : ∃ inside, text = before ++ '{' :: (inside ++ '}' :: behind) ∧ IsBalanced inside ∧
    ofBody? inside = some plural
  earlier {front rest : List Char} :
    text = front ++ '{' :: rest → front.length < before.length → opened? rest = none

namespace FirstIn

theorem opens (h : FirstIn text before plural behind) :
    ∃ rest, text = before ++ '{' :: rest ∧ opened? rest = some (plural, behind) := by
  obtain ⟨inside, htext, hbalanced, hbody⟩ := h.encloses
  exact ⟨_, htext, opened?_eq_some_iff.2 ⟨inside, rfl, hbalanced, hbody⟩⟩

theorem of_opened? (h : opened? text = some (plural, behind)) :
    FirstIn ('{' :: text) [] plural behind := by
  obtain ⟨inside, rfl, hbalanced, hbody⟩ := opened?_eq_some_iff.1 h
  exact ⟨⟨inside, rfl, hbalanced, hbody⟩, fun _ hshort ↦ absurd hshort (Nat.not_lt_zero _)⟩

theorem cons (h : FirstIn text before plural behind) (hc : c = '{' → opened? text = none) :
    FirstIn (c :: text) (c :: before) plural behind := by
  obtain ⟨⟨inside, rfl, hread⟩, hearlier⟩ := h
  refine ⟨⟨inside, rfl, hread⟩, fun {front later} hsame hshort ↦ ?_⟩
  cases front with
  | nil =>
    cases hsame
    exact hc rfl
  | cons d front =>
    obtain ⟨-, hsame⟩ := List.cons.inj hsame
    exact hearlier hsame (Nat.lt_of_succ_lt_succ hshort)

theorem of_cons (h : FirstIn (c :: text) (c :: before) plural behind) :
    FirstIn text before plural behind ∧ (c = '{' → opened? text = none) := by
  obtain ⟨⟨inside, hsame, hread⟩, hearlier⟩ := h
  refine ⟨⟨⟨inside, (List.cons.inj hsame).2, hread⟩, fun {front later} heq hshort ↦ ?_⟩, ?_⟩
  · exact @hearlier (c :: front) later (congrArg (c :: ·) heq) (Nat.succ_lt_succ hshort)
  · rintro rfl
    exact @hearlier [] text rfl (Nat.succ_pos _)

end FirstIn

/-- The search finds the first expression of a text, and nothing else. -/
theorem findChars?_eq_some_iff :
    findChars? text = some (before, plural, behind) ↔ FirstIn text before plural behind := by
  induction text generalizing before with
  | nil =>
    refine ⟨fun h ↦ (Option.some_ne_none _ h.symm).elim, fun h ↦ ?_⟩
    obtain ⟨rest, hsame, -⟩ := h.opens
    cases before <;> cases hsame
  | cons c text ih =>
    rw [findChars?_cons, Option.or_eq_some_iff]
    by_cases hhere : c = '{' ∧ opened? text ≠ none
    · obtain ⟨rfl, hsome⟩ := hhere
      obtain ⟨found, hfound⟩ := Option.ne_none_iff_exists'.1 hsome
      rw [if_pos rfl, hfound]
      constructor
      · rintro (hsame | ⟨hnone, -⟩)
        · cases hsame
          exact .of_opened? hfound
        · cases hnone
      · intro h
        cases before with
        | nil =>
          obtain ⟨rest, hsame, hopened⟩ := h.opens
          cases hsame
          rw [hfound] at hopened
          exact .inl (congrArg _ hopened)
        | cons d before =>
          obtain ⟨rest, hsame, -⟩ := h.opens
          cases hsame
          exact absurd (h.of_cons.2 rfl) hsome
    · have hnone : c = '{' → opened? text = none := fun hc ↦
        of_not_not fun hsome ↦ hhere ⟨hc, hsome⟩
      have hskip : (if c = '{' then (opened? text).map fun found ↦ (([] : List Char), found)
          else none) = none := by
        split
        · next hc => rw [hnone hc, Option.map_none]
        · rfl
      rw [hskip]
      constructor
      · rintro (hsame | ⟨-, hlater⟩)
        · cases hsame
        · obtain ⟨⟨later, found⟩, hfound, hsame⟩ := Option.map_eq_some_iff.1 hlater
          cases hsame
          exact (ih.1 hfound).cons hnone
      · intro h
        cases before with
        | nil =>
          obtain ⟨rest, hsame, hopened⟩ := h.opens
          cases hsame
          rw [hnone rfl] at hopened
          cases hopened
        | cons d before =>
          obtain ⟨rest, hsame, -⟩ := h.opens
          cases hsame
          exact .inr ⟨rfl, Option.map_eq_some_iff.2 ⟨_, ih.2 h.of_cons.1, rfl⟩⟩

/-- What is found in a text is the first expression in it. -/
theorem find?_eq_some_iff {text : String} {located : Located} :
    find? text = some located ↔
      FirstIn text.toList located.before.toList located.plural located.after.toList := by
  rw [← findChars?_eq_some_iff]
  unfold find?
  constructor
  · intro h
    obtain ⟨⟨before, plural, behind⟩, hfound, rfl⟩ := Option.map_eq_some_iff.1 h
    simpa using hfound
  · intro h
    rw [h]
    simp

/-- The expressions that are found again, wherever they were written as the first thing in a text
that opens a brace, are those whose argument and kind are words, with branches whose selectors are
plain and whose bodies are balanced. -/
theorem isCanonical_iff_find?_render (plural : Plural) :
    plural.IsCanonical ↔ ∀ before after : String, '{' ∉ before.toList →
      find? (before ++ plural.render ++ after) = some ⟨before, plural, after⟩ := by
  constructor
  · intro h before after hbefore
    exact find?_render h hbefore after
  · intro h
    have hfirst := find?_eq_some_iff.1 (h "" "" (by decide))
    obtain ⟨inside, -, -, hbody⟩ := hfirst.encloses
    exact isCanonical_of_ofBody? hbody

/-- An expression with an explicit number, with a placeholder and with a body that holds an
expression itself. -/
def nestedItems : Plural where
  argument := "n"
  kind := "plural"
  branches :=
    [⟨"=0", "none"⟩, ⟨"one", "\x7b\x7bname\x7d\x7d has one"⟩,
      ⟨"other", "\x7bn, plural, other \x7b#\x7d\x7d left"⟩]

theorem isCanonical_nestedItems : nestedItems.IsCanonical where
  argument := by decide
  kind := by decide
  filled := by decide
  branches := by
    have hall : ∀ branch ∈ nestedItems.branches, branch.selector.toList ≠ [] ∧
        (branch.selector.toList.all fun c ↦ !endsSelector c && c != '}') = true ∧
          IsBalanced branch.body.toList := by decide
    intro branch hbranch
    obtain ⟨hfilled, hselector, hbody⟩ := hall branch hbranch
    exact ⟨.of_all hfilled hselector, hbody⟩

theorem isCanonical_iff_find?_render_nestedItems :
    nestedItems.IsCanonical ∧ '{' ∉ "\x7d You: ".toList ∧
      find? ("\x7d You: " ++ nestedItems.render ++ " \x7b") =
        some ⟨"\x7d You: ", nestedItems, " \x7b"⟩ :=
  ⟨isCanonical_nestedItems, by decide,
    (isCanonical_iff_find?_render nestedItems).1 isCanonical_nestedItems "\x7d You: " " \x7b"
      (by decide)⟩

end Phrasebook.Plural
