import Phrasebook.Proofs.Plural.Edges

/-!
# Reading a plural expression that was written

An expression in its canonical form is found again, with its argument, its kind and its branches,
wherever it is the first thing in a text that opens a brace. For that its argument and its kind have
to be words, its selectors plain, and the braces in its bodies have to be balanced.
-/

namespace Phrasebook.Plural

variable {text rest first second : List Char} {depth after : Nat}

/-- How many braces are open behind a text within `depth` open ones; nothing when it closes more
braces than are open. -/
def openAfter? : Nat → List Char → Option Nat
  | depth, [] => some depth
  | depth, '{' :: rest => openAfter? (depth + 1) rest
  | 0, '}' :: _ => none
  | depth + 1, '}' :: rest => openAfter? depth rest
  | depth, _ :: rest => openAfter? depth rest

/-- A text that closes the braces that it opens, and no others. -/
def IsBalanced (text : List Char) : Prop :=
  openAfter? 0 text = some 0

instance (text : List Char) : Decidable (IsBalanced text) :=
  inferInstanceAs (Decidable (openAfter? 0 text = some 0))

theorem openAfter?_append (depth : Nat) (first second : List Char) :
    openAfter? depth (first ++ second) = (openAfter? depth first).bind (openAfter? · second) := by
  fun_induction openAfter? depth first with
  | case1 depth => rfl
  | case2 depth rest ih => rw [List.cons_append, openAfter?, ih]
  | case3 rest => rfl
  | case4 depth rest ih => rw [List.cons_append, openAfter?, ih]
  | case5 depth c rest hopen hzero hsucc ih =>
    rw [List.cons_append, openAfter?.eq_5 _ _ _ hopen hzero hsucc, ih]

/-- Within more open braces, more of them are open behind a text. -/
theorem openAfter?_add (h : openAfter? depth text = some after) (more : Nat) :
    openAfter? (depth + more) text = some (after + more) := by
  fun_induction openAfter? depth text with
  | case1 depth =>
    cases h
    rfl
  | case2 depth rest ih =>
    rw [openAfter?, Nat.add_right_comm]
    exact ih h
  | case3 rest => cases h
  | case4 depth rest ih =>
    rw [Nat.succ_add, openAfter?]
    exact ih h
  | case5 depth c rest hopen hzero hsucc ih =>
    rw [openAfter?.eq_5]
    · exact ih h
    · exact hopen
    · rintro - rfl
      cases depth with
      | zero => exact hzero rfl rfl
      | succ depth => exact hsucc depth rfl rfl
    · rintro other - rfl
      cases depth with
      | zero => exact hzero rfl rfl
      | succ depth => exact hsucc depth rfl rfl

namespace IsBalanced

theorem openAfter? (h : IsBalanced text) (depth : Nat) :
    Plural.openAfter? depth text = some depth := by
  have hadd := openAfter?_add h depth
  rwa [Nat.zero_add] at hadd

theorem nil : IsBalanced [] :=
  rfl

theorem append (hfirst : IsBalanced first) (hsecond : IsBalanced second) :
    IsBalanced (first ++ second) := by
  unfold IsBalanced
  rw [openAfter?_append, hfirst.openAfter?, Option.bind_some, hsecond.openAfter?]

theorem of_forall_ne (h : ∀ c ∈ text, c ≠ '{' ∧ c ≠ '}') : IsBalanced text := by
  induction text with
  | nil => exact nil
  | cons c text ih =>
    obtain ⟨hopen, hclose⟩ := h c List.mem_cons_self
    unfold IsBalanced
    rw [openAfter?.eq_5 _ _ _ hopen (fun _ ↦ hclose) (fun _ _ ↦ hclose)]
    exact ih fun d hd ↦ h d (List.mem_cons_of_mem c hd)

theorem braces (h : IsBalanced text) : IsBalanced ('{' :: (text ++ ['}'])) := by
  unfold IsBalanced
  rw [Plural.openAfter?, openAfter?_append, h.openAfter?, Option.bind_some]
  rfl

end IsBalanced

/-- A text that closes no brace of its surroundings is passed over in the search for one. -/
theorem closeBrace?_append (h : openAfter? depth text = some after) (rest : List Char) :
    closeBrace? depth (text ++ rest) =
      (closeBrace? after rest).map fun found ↦ (text ++ found.1, found.2) := by
  fun_induction openAfter? depth text with
  | case1 depth =>
    cases h
    exact Option.map_id'.symm
  | case2 depth inner ih =>
    rw [List.cons_append, closeBrace?, ih h, Option.map_map]
    rfl
  | case3 inner => cases h
  | case4 depth inner ih =>
    rw [List.cons_append, closeBrace?, ih h, Option.map_map]
    rfl
  | case5 depth c inner hopen hzero hsucc ih =>
    rw [List.cons_append, closeBrace?.eq_5 _ _ _ hopen hzero hsucc, ih h, Option.map_map]
    rfl

/-- The brace behind a balanced text closes the one before it. -/
theorem closeBrace?_of_isBalanced (h : IsBalanced text) (rest : List Char) :
    closeBrace? 0 (text ++ '}' :: rest) = some (text, rest) := by
  rw [closeBrace?_append h, closeBrace?, Option.map_some, List.append_nil]

/-- A selector that ends where its branch opens. -/
structure IsSelector (selector : List Char) : Prop where
  filled : selector ≠ []
  unended : ∀ c ∈ selector, endsSelector c = false
  unclosed : '}' ∉ selector

theorem IsSelector.of_all {selector : List Char} (hfilled : selector ≠ [])
    (hall : (selector.all fun c ↦ !endsSelector c && c != '}') = true) : IsSelector selector := by
  have hplain : ∀ c ∈ selector, endsSelector c = false ∧ c ≠ '}' := by
    intro c hc
    obtain ⟨hends, hclose⟩ := Bool.and_eq_true_iff.1 (List.all_eq_true.1 hall c hc)
    rw [Bool.not_eq_true'] at hends
    exact ⟨hends, bne_iff_ne.1 hclose⟩
  exact ⟨hfilled, fun c hc ↦ (hplain c hc).1, fun hmem ↦ (hplain _ hmem).2 rfl⟩

theorem IsSelector.isAccepted {selector : List Char} (h : IsSelector selector) :
    (selector.isEmpty || selector.contains '}') = false := by
  rw [Bool.or_eq_false_iff, List.isEmpty_eq_false_iff, List.contains_eq_mem,
    decide_eq_false_iff_not]
  exact ⟨h.filled, h.unclosed⟩

/-- A selector begins behind the blank before it. -/
theorem IsSelector.dropWhile_isBlank {selector : List Char} (h : IsSelector selector)
    (rest : List Char) :
    (' ' :: (selector ++ rest)).dropWhile Text.isBlank = selector ++ rest := by
  rw [List.dropWhile_cons_of_pos (by decide)]
  cases selector with
  | nil => exact absurd rfl h.filled
  | cons c others =>
    have hends : endsSelector c = false := h.unended c List.mem_cons_self
    rw [List.cons_append, List.dropWhile_cons_of_neg]
    exact Bool.eq_false_iff.1 (Bool.or_eq_false_iff.1 hends).2

theorem takeWhile_append_of_forall {p : Char → Bool} {c : Char} (htext : ∀ d ∈ text, p d = true)
    (hc : p c = false) (rest : List Char) :
    (text ++ c :: rest).takeWhile p = text ∧ (text ++ c :: rest).dropWhile p = c :: rest := by
  rw [List.takeWhile_append_of_pos htext, List.dropWhile_append_of_pos htext,
    List.takeWhile_cons_of_neg (Bool.eq_false_iff.1 hc),
    List.dropWhile_cons_of_neg (Bool.eq_false_iff.1 hc), List.append_nil]
  exact ⟨rfl, rfl⟩

/-- A branch that is read back as it was written. -/
structure Branch.IsCanonical (branch : Branch) : Prop where
  selector : IsSelector branch.selector.toList
  body : IsBalanced branch.body.toList

theorem Branch.toList_render (branch : Branch) :
    branch.render.toList =
      branch.selector.toList ++ ' ' :: '{' :: (branch.body.toList ++ ['}']) := by
  unfold Branch.render
  rw [String.toList_append, String.toList_append, String.toList_append, List.append_assoc,
    List.append_assoc]
  rfl

theorem branches?_cons {branch : Branch} (h : branch.IsCanonical) (rest : List Char) :
    branches? (' ' :: (branch.render.toList ++ rest)) = (branches? rest).map (branch :: ·) := by
  obtain ⟨hselector, hbody⟩ := h
  have hkeeps : ∀ c ∈ branch.selector.toList, (!endsSelector c) = true := by
    intro c hc
    rw [hselector.unended c hc]
    rfl
  have htext : branch.render.toList ++ rest =
      branch.selector.toList ++ ' ' :: '{' :: (branch.body.toList ++ '}' :: rest) := by
    rw [Branch.toList_render]
    simp
  have htrimmed : (' ' :: (branch.render.toList ++ rest)).dropWhile Text.isBlank =
      branch.selector.toList ++ ' ' :: '{' :: (branch.body.toList ++ '}' :: rest) := by
    rw [htext]
    exact hselector.dropWhile_isBlank _
  obtain ⟨htake, hdrop⟩ := takeWhile_append_of_forall hkeeps (c := ' ') (by decide)
    ('{' :: (branch.body.toList ++ '}' :: rest))
  have hopened : (((' ' :: (branch.render.toList ++ rest)).dropWhile Text.isBlank).dropWhile
      fun c ↦ !endsSelector c).dropWhile Text.isBlank =
        '{' :: (branch.body.toList ++ '}' :: rest) := by
    rw [htrimmed, hdrop, List.dropWhile_cons_of_pos (by decide),
      List.dropWhile_cons_of_neg (by decide)]
  have hclosed := closeBrace?_of_isBalanced hbody rest
  rw [branches?]
  simp only [htrimmed, htake]
  rw [if_neg (by simp)]
  split
  · next opened hsame =>
    rw [hopened] at hsame
    cases hsame
    rw [if_neg (Bool.eq_false_iff.1 hselector.isAccepted)]
    split
    · next body behind hfound =>
      rw [hclosed] at hfound
      cases hfound
      rw [String.ofList_toList, String.ofList_toList]
    · next hnone =>
      rw [hclosed] at hnone
      cases hnone
  · next hother => exact absurd hopened (hother _)

/-- The branches of an expression in their canonical form. -/
def renderBranches (branches : List Branch) : List Char :=
  branches.flatMap fun branch ↦ ' ' :: branch.render.toList

/-- Branches are read back as they were written. -/
theorem branches?_renderBranches {branches : List Branch}
    (h : ∀ branch ∈ branches, branch.IsCanonical) :
    branches? (renderBranches branches) = some branches := by
  induction branches with
  | nil =>
    rw [branches?]
    rfl
  | cons branch others ih =>
    have hothers := ih fun other hother ↦ h other (List.mem_cons_of_mem branch hother)
    have hbranch := branches?_cons (h branch List.mem_cons_self) (renderBranches others)
    calc
      branches? (renderBranches (branch :: others)) =
          branches? (' ' :: (branch.render.toList ++ renderBranches others)) := rfl
      _ = (branches? (renderBranches others)).map (branch :: ·) := hbranch
      _ = some (branch :: others) := by rw [hothers, Option.map_some]

theorem splitComma?_append (h : ',' ∉ text) (rest : List Char) :
    splitComma? (text ++ ',' :: rest) = some (text, rest) := by
  have hkeeps : ∀ c ∈ text, (c != ',') = true := by
    intro c hc
    apply bne_iff_ne.2
    rintro rfl
    exact h hc
  obtain ⟨htake, hdrop⟩ := takeWhile_append_of_forall hkeeps (c := ',') (by decide) rest
  unfold splitComma?
  rw [hdrop, htake]

/-- No character of a word is blank or has a meaning of its own in an expression. -/
theorem of_mem_word {c : Char} (h : isWord text = true) (hc : c ∈ text) :
    Text.isBlank c = false ∧ c ≠ ',' ∧ c ≠ '{' ∧ c ≠ '}' := by
  have hword : (Text.isAlphanumeric c || c == '_') = true :=
    List.all_eq_true.1 (Bool.and_eq_true_iff.1 h).2 c hc
  refine ⟨?_, ?_, ?_, ?_⟩
  · by_contra hblank
    rw [Bool.not_eq_false] at hblank
    have hall : ∀ code ∈ Text.blankCodes,
        (Text.isAlphanumeric (Char.ofNat code) || Char.ofNat code == '_') = false := by
      decide +kernel
    have hcode := hall c.toNat (Text.toNat_mem_blankCodes hblank)
    rw [Char.ofNat_toNat, hword] at hcode
    cases hcode
  · rintro rfl
    exact absurd hword (by decide)
  · rintro rfl
    exact absurd hword (by decide)
  · rintro rfl
    exact absurd hword (by decide)

theorem trimChars_word (h : isWord text = true) : Text.trimChars text = text := by
  apply Text.trimChars_eq_self
  · exact fun c hc ↦ (of_mem_word h (List.mem_of_mem_head? hc)).1
  · exact fun c hc ↦ (of_mem_word h (List.mem_of_mem_getLast? hc)).1

/-! ## Expressions -/

/-- An expression that is read back as it was written. -/
structure IsCanonical (plural : Plural) : Prop where
  argument : isWord plural.argument.toList = true
  kind : isWord plural.kind.toList = true
  filled : plural.branches ≠ []
  branches : ∀ branch ∈ plural.branches, branch.IsCanonical

/-- The text between the outer braces of an expression in its canonical form. -/
def renderBody (plural : Plural) : List Char :=
  plural.argument.toList ++ ',' :: ' ' ::
    (plural.kind.toList ++ ',' :: renderBranches plural.branches)

theorem toList_render (plural : Plural) :
    plural.render.toList = '{' :: (plural.renderBody ++ ['}']) := by
  have hbranches : (String.join (plural.branches.map fun branch ↦ " " ++ branch.render)).toList =
      renderBranches plural.branches := by
    unfold renderBranches
    induction plural.branches with
    | nil => rfl
    | cons branch others ih =>
      rw [List.map_cons, String.join_cons, String.toList_append, ih, List.flatMap_cons,
        String.toList_append]
      rfl
  unfold render renderBody
  simp only [String.toList_append, hbranches, List.append_assoc]
  simp

theorem toList_append_render_append (before : String) (plural : Plural) (after : String) :
    (before ++ plural.render ++ after).toList =
      before.toList ++ '{' :: (plural.renderBody ++ '}' :: after.toList) := by
  rw [String.toList_append, String.toList_append, toList_render]
  simp

/-- The canonical form of an expression has no blanks at its edges. -/
theorem trim_render (plural : Plural) : Text.trim plural.render = plural.render := by
  have hchars : Text.trimChars plural.render.toList = plural.render.toList := by
    rw [toList_render]
    apply Text.trimChars_eq_self
    · rintro c ⟨⟩
      decide
    · rw [← List.cons_append, List.getLast?_concat]
      rintro c ⟨⟩
      decide
  rw [Text.trim, hchars, String.ofList_toList]

theorem IsBalanced.renderBranches {branches : List Branch}
    (h : ∀ branch ∈ branches, branch.IsCanonical) :
    IsBalanced (Plural.renderBranches branches) := by
  induction branches with
  | nil => exact nil
  | cons branch others ih =>
    have hselector : IsBalanced (' ' :: (branch.selector.toList ++ [' '])) := by
      apply of_forall_ne
      intro c hc
      rcases List.mem_cons.1 hc with rfl | hc
      · decide
      rcases List.mem_append.1 hc with hc | hc
      · obtain ⟨-, hunended, hunclosed⟩ := (h branch List.mem_cons_self).selector
        constructor
        · rintro rfl
          exact absurd (hunended _ hc) (by decide)
        · rintro rfl
          exact hunclosed hc
      · cases List.mem_singleton.1 hc
        decide
    have hbody := (h branch List.mem_cons_self).body.braces
    have hothers := ih fun other hother ↦ h other (List.mem_cons_of_mem branch hother)
    have htext : Plural.renderBranches (branch :: others) =
        ' ' :: (branch.selector.toList ++ [' ']) ++ ('{' :: (branch.body.toList ++ ['}'])) ++
          Plural.renderBranches others := by
      unfold Plural.renderBranches
      rw [List.flatMap_cons, Branch.toList_render]
      simp
    rw [htext]
    exact (hselector.append hbody).append hothers

namespace IsCanonical

variable {plural : Plural}

theorem isBalanced (h : plural.IsCanonical) : IsBalanced plural.renderBody := by
  have hword : ∀ word : List Char, isWord word = true → IsBalanced word := fun word hword ↦
    .of_forall_ne fun c hc ↦ (of_mem_word hword hc).2.2
  have hcomma : IsBalanced [',', ' '] := by decide
  have hbranches : IsBalanced ([','] ++ renderBranches plural.branches) :=
    .append (by decide) (.renderBranches h.branches)
  have hbody : plural.renderBody = plural.argument.toList ++ ([',', ' '] ++
      (plural.kind.toList ++ ([','] ++ renderBranches plural.branches))) := rfl
  rw [hbody]
  exact (hword _ h.argument).append (hcomma.append ((hword _ h.kind).append hbranches))

/-- The text between the braces of an expression is read back as the expression that was written. -/
theorem ofBody? (h : plural.IsCanonical) : Plural.ofBody? plural.renderBody = some plural := by
  have hkind : isWord plural.kind.toList = true := h.kind
  have hargument : splitComma? plural.renderBody = some (plural.argument.toList,
      ' ' :: (plural.kind.toList ++ ',' :: renderBranches plural.branches)) :=
    splitComma?_append (fun hc ↦ (of_mem_word h.argument hc).2.1 rfl) _
  have hrest : splitComma? (' ' :: (plural.kind.toList ++ ',' :: renderBranches plural.branches)) =
      some (' ' :: plural.kind.toList, renderBranches plural.branches) := by
    have hcomma : ',' ∉ ' ' :: plural.kind.toList := by
      intro hc
      rcases List.mem_cons.1 hc with hc | hc
      · cases hc
      · exact (of_mem_word hkind hc).2.1 rfl
    exact splitComma?_append hcomma _
  have hblank : Text.trimChars (' ' :: plural.kind.toList) = plural.kind.toList := by
    rw [Text.trimChars_cons_of_isBlank (by decide), trimChars_word hkind]
  unfold Plural.ofBody?
  rw [hargument, Option.bind_some]
  dsimp only
  rw [hrest, Option.bind_some]
  dsimp only
  rw [trimChars_word h.argument, hblank, h.argument, hkind, branches?_renderBranches h.branches,
    Bool.and_self, if_pos rfl, String.ofList_toList, String.ofList_toList]
  cases hbranches : plural.branches with
  | nil => exact absurd hbranches h.filled
  | cons branch others =>
    dsimp only
    rw [← hbranches]

end IsCanonical

/-- A text without an opening brace is passed over in the search for an expression. -/
theorem findChars?_append (h : '{' ∉ first) (text : List Char) :
    findChars? (first ++ text) = (findChars? text).map fun found ↦ (first ++ found.1, found.2) := by
  induction first with
  | nil => exact Option.map_id'.symm
  | cons c first ih =>
    have hopen : c ≠ '{' := fun hsame ↦ h (hsame ▸ List.mem_cons_self)
    rw [List.cons_append, findChars?, if_neg hopen, ih fun hmem ↦ h (List.mem_cons_of_mem c hmem)]
    cases findChars? text <;> rfl

/-- An expression in its canonical form is the first one in a text where no brace opens before
it. -/
theorem find?_render {plural : Plural} (h : plural.IsCanonical) {before : String}
    (hbefore : '{' ∉ before.toList) (after : String) :
    find? (before ++ plural.render ++ after) = some ⟨before, plural, after⟩ := by
  have hclosed := closeBrace?_of_isBalanced h.isBalanced after.toList
  have hfound : findChars? ('{' :: (plural.renderBody ++ '}' :: after.toList)) =
      some ([], plural, after.toList) := by
    rw [findChars?, if_pos rfl, hclosed, Option.bind_some]
    dsimp only
    rw [h.ofBody?]
    rfl
  unfold find?
  rw [toList_append_render_append, findChars?_append hbefore, hfound]
  simp

end Phrasebook.Plural
