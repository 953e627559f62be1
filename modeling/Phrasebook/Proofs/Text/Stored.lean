import Mathlib.Algebra.GroupWithZero.Nat
import Mathlib.Algebra.Order.BigOperators.Group.List
import Mathlib.Algebra.Order.Group.Nat
import Phrasebook.Proofs.Text.Shown

/-!
# Markup text as it is stored

The form in which markup text is stored is meant to be what is shown of it, without the padding at
its two edges. It is, unless a line has other blanks at an edge, which storing removes and showing
keeps, or has a carriage return inside, which showing takes for a line end and storing does not.
That there are no more cases is seen by counting: showing takes away padding and line ends only, so
in a text that is stored as it is shown no line may lose more.
-/

namespace Phrasebook.Text

variable {c : Char} {text line : List Char}

theorem joinWithSpace_eq (lines : List (List Char)) :
    joinWithSpace lines = [' '].intercalate lines := by
  fun_induction joinWithSpace lines with
  | case1 => rfl
  | case2 line => rw [List.intercalate_singleton]
  | case3 line next others ih => rw [ih, List.intercalate_cons_cons, List.append_assoc]; rfl

/-- A line that is shown as it is stored: the blanks at its edges are spaces, tabs and carriage
returns, and there is no carriage return between them. -/
structure IsPlainLine (line : List Char) : Prop where
  lead : ∀ c ∈ leadChars line, isPadding c = true ∨ c = '\r'
  trail : ∀ c ∈ trailChars line, isPadding c = true ∨ c = '\r'
  middle : '\r' ∉ trimChars line

theorem endsLine_eq_false_of_isPadding (hc : isPadding c = true) : endsLine c = false := by
  simp only [isPadding, Bool.or_eq_true, beq_iff_eq] at hc
  rcases hc with rfl | rfl <;> rfl

theorem contents_padded {front back : List Char} (hfront : ∀ c ∈ front, isPadding c = true)
    (hback : ∀ c ∈ back, isPadding c = true) (line : List Char) (others : List (List Char)) :
    contents ((front ++ (line ++ back)) :: others) = contents (line :: others) := by
  rw [contents_cons, contents_cons, hasContent_eq, hasContent_eq, stripped_append hfront hback]

theorem shownParts_cons_isPadding (hc : isPadding c = true) (text : List Char) :
    shownParts (c :: text) = shownParts text := by
  have hends : ¬ endsLine c = true := by simp [endsLine_eq_false_of_isPadding hc]
  unfold shownParts
  rw [List.splitOnP_cons_eq_if_modifyHead, if_neg hends]
  cases text.splitOnP endsLine with
  | nil => rfl
  | cons line others =>
    have hfront : ∀ d ∈ [c], isPadding d = true := by simpa using hc
    have hpadded := contents_padded hfront (List.forall_mem_nil _) line others
    simpa using hpadded

theorem shownParts_concat_isPadding (hc : isPadding c = true) (text : List Char) :
    shownParts (text ++ [c]) = shownParts text := by
  -- As above, the induction carries the characters before a line end.
  have hgeneral : ∀ front : List Char, (∀ d ∈ front, endsLine d = false) →
      shownParts (front ++ (text ++ [c])) = shownParts (front ++ text) := by
    induction text with
    | nil =>
      intro front hfront
      have hlonger : ∀ d ∈ front ++ [c], endsLine d = false := by
        simp only [List.mem_append, List.mem_singleton]
        rintro d (hd | rfl)
        · exact hfront d hd
        · exact endsLine_eq_false_of_isPadding hc
      rw [List.nil_append, List.append_nil, shownParts_of_forall hlonger,
        shownParts_of_forall hfront]
      exact contents_padded (List.forall_mem_nil _) (by simpa using hc) front []
    | cons d rest ih =>
      intro front hfront
      by_cases hd : endsLine d = true
      · rw [List.cons_append, shownParts_append_cons hd, shownParts_append_cons hd,
          ← List.nil_append (rest ++ [c]), ih [] (List.forall_mem_nil _), List.nil_append]
      · have hlonger : ∀ e ∈ front ++ [d], endsLine e = false := by
          simp only [List.mem_append, List.mem_singleton]
          rintro e (he | rfl)
          · exact hfront e he
          · exact Bool.eq_false_iff.2 hd
        have hrest := ih (front ++ [d]) hlonger
        simpa only [List.append_assoc, List.cons_append, List.nil_append] using hrest
  exact hgeneral [] (List.forall_mem_nil _)

/-- Padding and line ends around a text do not matter to what is shown of it. -/
theorem shownParts_append {front back : List Char}
    (hfront : ∀ c ∈ front, isPadding c = true ∨ endsLine c = true)
    (hback : ∀ c ∈ back, isPadding c = true ∨ endsLine c = true) (text : List Char) :
    shownParts (front ++ (text ++ back)) = shownParts text := by
  have hend : ∀ text : List Char, shownParts (text ++ back) = shownParts text := by
    induction back with
    | nil => exact fun text ↦ by rw [List.append_nil]
    | cons c rest ih =>
      intro text
      have hrest := ih (fun d hd ↦ hback d (List.mem_cons_of_mem c hd)) (text ++ [c])
      rw [List.append_assoc, List.singleton_append] at hrest
      rw [hrest]
      rcases hback c List.mem_cons_self with hc | hc
      · exact shownParts_concat_isPadding hc text
      · rw [shownParts_append_cons hc]
        exact List.append_nil _
  induction front with
  | nil => exact hend text
  | cons c rest ih =>
    have hrest := ih fun d hd ↦ hfront d (List.mem_cons_of_mem c hd)
    rw [List.cons_append]
    rcases hfront c List.mem_cons_self with hc | hc
    · rw [shownParts_cons_isPadding hc, hrest]
    · rw [shownParts_cons hc, hrest]

theorem isPadding_eq_false (hc : isBlank c = false) : isPadding c = false := by
  by_contra hpadding
  have hblank : isBlank c = true := by
    simp only [isPadding, Bool.not_eq_false, Bool.or_eq_true, beq_iff_eq] at hpadding
    rcases hpadding with rfl | rfl <;> rfl
  rw [hc] at hblank
  cases hblank

theorem sublist_trimChars (text : List Char) : (trimChars text).Sublist text := by
  conv_rhs => rw [← lead_append_trim_append_trail text]
  exact (List.sublist_append_right _ _).trans (List.sublist_append_left _ _)

/-- A plain line is shown as its trimmed text. -/
theorem IsPlainLine.shownParts_eq (h : IsPlainLine line) (hfeed : '\n' ∉ line) :
    shownParts line = [trimChars line].filter fun part ↦ !part.isEmpty := by
  have hreturn : ∀ c, isPadding c = true ∨ c = '\r' → isPadding c = true ∨ endsLine c = true :=
    fun c hc ↦ hc.imp_right fun hsame ↦ by rw [hsame]; rfl
  have hends : ∀ c ∈ trimChars line, endsLine c = false := by
    intro c hc
    have hfeed' : c ≠ '\n' := fun hsame ↦ hfeed (hsame ▸ (sublist_trimChars line).mem hc)
    have hreturn' : c ≠ '\r' := fun hsame ↦ h.middle (hsame ▸ hc)
    simp [endsLine, hfeed', hreturn']
  have hcore : stripped (trimChars line) = trimChars line :=
    stripped_of_edges (fun c hc ↦ isPadding_eq_false (eq_false_of_head? hc))
      fun c hc ↦ isPadding_eq_false (eq_false_of_getLast? hc)
  calc
    shownParts line = shownParts (leadChars line ++ (trimChars line ++ trailChars line)) := by
      rw [← List.append_assoc, lead_append_trim_append_trail]
    _ = shownParts (trimChars line) :=
      shownParts_append (fun c hc ↦ hreturn c (h.lead c hc)) (fun c hc ↦ hreturn c (h.trail c hc)) _
    _ = contents [trimChars line] := shownParts_of_forall hends
    _ = [trimChars line].filter fun part ↦ !part.isEmpty := by
      rw [contents, List.map_singleton, hcore]

theorem not_mem_of_mem_lines (h : line ∈ lines text) : '\n' ∉ line := by
  induction text generalizing line with
  | nil => cases h
  | cons c rest ih =>
    rw [lines] at h
    split at h
    · rcases List.mem_cons.1 h with rfl | hline
      · exact List.not_mem_nil
      · exact ih hline
    · next hc =>
      split at h
      · rw [List.mem_singleton.1 h, List.mem_singleton]
        exact Ne.symm hc
      · next first others hlines =>
        rw [hlines] at ih
        rcases List.mem_cons.1 h with rfl | hline
        · rw [List.mem_cons, not_or]
          exact ⟨Ne.symm hc, ih List.mem_cons_self⟩
        · exact ih (List.mem_cons_of_mem _ hline)

/-- What is stored of a text: its trimmed lines, blank ones left out. -/
def storedParts (text : List Char) : List (List Char) :=
  ((lines text).map trimChars).filter fun part ↦ !part.isEmpty

theorem normalizeMarkupChars_eq (text : List Char) :
    normalizeMarkupChars text = [' '].intercalate (storedParts text) :=
  joinWithSpace_eq _

theorem storedParts_eq (h : ∀ line ∈ lines text, IsPlainLine line) :
    storedParts text = shownParts text := by
  have hplain : ∀ line ∈ lines text,
      shownParts line = [trimChars line].filter fun part ↦ !part.isEmpty :=
    fun line hline ↦ (h line hline).shownParts_eq (not_mem_of_mem_lines hline)
  rw [← flatMap_shownParts_lines, List.flatMap_congr hplain, storedParts, List.map_eq_flatMap,
    List.filter_flatMap]

/-! ## What storing removes -/

section Counting

variable {p : Char → Bool}

theorem countP_stripped (hp : ∀ c, isPadding c = true → p c = false) (text : List Char) :
    (stripped text).countP p = text.countP p := by
  obtain ⟨front, back, hfront, hback, htext⟩ := exists_stripped text
  have hzero : ∀ pad : List Char, (∀ c ∈ pad, isPadding c = true) → pad.countP p = 0 :=
    fun pad hpad ↦ List.countP_eq_zero.2 fun c hc ↦ by simp [hp c (hpad c hc)]
  conv_rhs => rw [htext, List.countP_append, List.countP_append, hzero front hfront,
    hzero back hback, Nat.zero_add, Nat.add_zero]

/-- Joining parts by spaces keeps the number of characters with a property that spaces do not have.
-/
theorem countP_intercalate (hp : p ' ' = false) (parts : List (List Char)) :
    ([' '].intercalate parts).countP p = (parts.map (List.countP p)).sum := by
  induction parts with
  | nil => rfl
  | cons first rest ih =>
    cases rest with
    | nil => simp
    | cons second others =>
      rw [List.intercalate_cons_cons, List.countP_append, List.countP_append, ih,
        List.map_cons (l := second :: others), List.sum_cons, List.countP_singleton, hp]
      rfl

theorem sum_countP_nonempty (parts : List (List Char)) :
    ((parts.filter fun part ↦ !part.isEmpty).map (List.countP p)).sum =
      (parts.map (List.countP p)).sum := by
  induction parts with
  | nil => rfl
  | cons part others ih =>
    cases part with
    | nil => simpa using ih
    | cons c rest => simpa using ih

/-- Splitting a text at its line ends loses the line ends only. -/
theorem sum_countP_splitOnP (text : List Char) :
    ((text.splitOnP endsLine).map (List.countP p)).sum =
      text.countP fun c ↦ p c && !endsLine c := by
  induction text with
  | nil => rfl
  | cons c rest ih =>
    rw [List.splitOnP_cons_eq_if_modifyHead, List.countP_cons, ← ih]
    split
    · next hc => simp [hc]
    · next hc =>
      cases hsplit : rest.splitOnP endsLine with
      | nil => exact absurd hsplit (List.splitOnP_ne_nil endsLine rest)
      | cons line others =>
        rw [List.modifyHead_cons, List.map_cons, List.map_cons, List.sum_cons, List.sum_cons,
          List.countP_cons]
        simp only [hc, Bool.not_false, Bool.and_true]
        omega

/-- Showing takes nothing away but padding and line ends. -/
theorem sum_countP_shownParts (hp : ∀ c, isPadding c = true → p c = false) (text : List Char) :
    ((shownParts text).map (List.countP p)).sum = text.countP fun c ↦ p c && !endsLine c := by
  have hstripped : List.countP p ∘ stripped = List.countP p := funext (countP_stripped hp)
  rw [shownParts, contents, sum_countP_nonempty, List.map_map, hstripped, sum_countP_splitOnP]

theorem sum_countP_storedParts (text : List Char) :
    ((storedParts text).map (List.countP p)).sum =
      ((lines text).map fun line ↦ (trimChars line).countP p).sum := by
  rw [storedParts, sum_countP_nonempty, List.map_map]
  rfl

theorem sum_countP_lines (hp : ∀ c, isPadding c = true → p c = false) (text : List Char) :
    ((shownParts text).map (List.countP p)).sum =
      ((lines text).map fun line ↦ line.countP fun c ↦ p c && !endsLine c).sum := by
  rw [← flatMap_shownParts_lines]
  induction lines text with
  | nil => rfl
  | cons line others ih =>
    rw [List.flatMap_cons, List.map_append, List.sum_append, ih, sum_countP_shownParts hp]
    rfl

/-- Where a text is stored as it is shown, no line loses what showing keeps. -/
theorem countP_trimChars (hp : ∀ c, isPadding c = true → p c = false)
    (h : [' '].intercalate (storedParts text) = [' '].intercalate (shownParts text)) :
    ((lines text).map fun line ↦ (trimChars line).countP p).sum =
      ((lines text).map fun line ↦ line.countP fun c ↦ p c && !endsLine c).sum := by
  have hspace : p ' ' = false := hp ' ' rfl
  rw [← sum_countP_storedParts, ← sum_countP_lines hp, ← countP_intercalate hspace, h,
    countP_intercalate hspace]

end Counting

/-- Whether a character is a blank that showing keeps wherever it stands. -/
def isShownBlank (c : Char) : Bool :=
  isBlank c && !isPadding c && !endsLine c

theorem countP_isShownBlank (line : List Char) :
    (line.countP fun c ↦ isShownBlank c && !endsLine c) = line.countP isShownBlank :=
  List.countP_congr fun c _ ↦ by
    cases hends : endsLine c <;> simp [isShownBlank, hends]

theorem isPadding_ne_return (c : Char) (hc : isPadding c = true) : (c == '\r') = false := by
  simp only [isPadding, Bool.or_eq_true, beq_iff_eq] at hc
  rcases hc with rfl | rfl <;> rfl

theorem countP_return (line : List Char) :
    (line.countP fun c ↦ c == '\r' && !endsLine c) = 0 :=
  List.countP_eq_zero.2 fun c _ ↦ by
    by_cases hc : c = '\r'
    · simp [hc, endsLine]
    · simp [hc]

/-- A line that keeps its blanks has padding and carriage returns only at its edges. -/
theorem isPadding_or_eq_of_countP (hfeed : '\n' ∉ line)
    (h : line.countP isShownBlank ≤ (trimChars line).countP isShownBlank) :
    ∀ c ∈ leadChars line ++ trailChars line, isPadding c = true ∨ c = '\r' := by
  have hline := congrArg (List.countP isShownBlank) (lead_append_trim_append_trail line)
  rw [List.countP_append, List.countP_append] at hline
  have hedges : (leadChars line ++ trailChars line).countP isShownBlank = 0 := by
    rw [List.countP_append]
    omega
  intro c hc
  have hmem : c ∈ line := by
    rw [← lead_append_trim_append_trail line]
    simp only [List.mem_append] at hc ⊢
    tauto
  have hblank : isBlank c = true :=
    (List.mem_append.1 hc).elim isBlank_of_mem_leadChars isBlank_of_mem_trailChars
  have hshown := List.countP_eq_zero.1 hedges c hc
  by_contra hneither
  rw [not_or] at hneither
  have hends : endsLine c = false := by
    have hne : c ≠ '\n' := fun hsame ↦ hfeed (hsame ▸ hmem)
    simp [endsLine, hne, hneither.2]
  exact hshown (by simp [isShownBlank, hblank, hneither.1, hends])

/-- A text that is stored as it is shown has plain lines only. -/
theorem isPlainLine_of_mem_lines
    (h : [' '].intercalate (storedParts text) = [' '].intercalate (shownParts text))
    (hline : line ∈ lines text) : IsPlainLine line := by
  have hblanks : line.countP isShownBlank ≤ (trimChars line).countP isShownBlank := by
    by_contra hlost
    have hsum := countP_trimChars (p := isShownBlank) (fun c hc ↦ by simp [isShownBlank, hc]) h
    refine absurd hsum (Nat.ne_of_lt (List.sum_lt_sum _ _ (fun other _ ↦ ?_) ⟨line, hline, ?_⟩))
    · rw [countP_isShownBlank]
      exact (sublist_trimChars other).countP_le
    · rw [countP_isShownBlank]
      exact Nat.not_le.1 hlost
  have hreturns : (trimChars line).countP (· == '\r') ≤ 0 := by
    by_contra hinside
    have hsum := countP_trimChars (p := (· == '\r')) isPadding_ne_return h
    refine absurd hsum (Nat.ne_of_gt (List.sum_lt_sum _ _ (fun other _ ↦ ?_) ⟨line, hline, ?_⟩))
    · rw [countP_return]
      exact Nat.zero_le _
    · rw [countP_return]
      exact Nat.not_le.1 hinside
  have hedges := isPadding_or_eq_of_countP (not_mem_of_mem_lines hline) hblanks
  refine ⟨fun c hc ↦ hedges c (List.mem_append_left _ hc),
    fun c hc ↦ hedges c (List.mem_append_right _ hc), fun hmem ↦ ?_⟩
  have hnone := List.countP_eq_zero.1 (Nat.le_zero.1 hreturns) '\r' hmem
  exact hnone rfl

/-- A markup text is stored as it is shown, without the padding at its edges, exactly when its lines
have no other blanks at their edges and no carriage return inside. -/
theorem normalizeMarkupText_eq_iff (text : String) :
    normalizeMarkupText text = String.ofList (stripped (shownChars text.toList)) ↔
      ∀ line ∈ lines text.toList, IsPlainLine line := by
  rw [normalizeMarkupText, String.ofList_inj, normalizeMarkupChars_eq, stripped_shownChars,
    contents_shownLines]
  constructor
  · exact fun h line hline ↦ isPlainLine_of_mem_lines h hline
  · exact fun h ↦ by rw [storedParts_eq h]

/-- A no-break space at the end of a line is shown, and it is not stored. -/
theorem normalizeMarkupText_ne_price :
    normalizeMarkupText "Price:\u00a0\n5" ≠
      String.ofList (stripped (shownChars "Price:\u00a0\n5".toList)) := by
  decide +kernel

end Phrasebook.Text
