import Mathlib.Data.List.DropRight
import Phrasebook.Proofs.Text.Blank

/-!
# Markup text as it is shown

Where markup is shown, its text is cut at the line ends. Spaces and tabs are taken from the edges of
the lines, except from the start of the first one and the end of the last one, lines of nothing else
are left out, and the others are joined by one space. Without the padding at its two edges, what is
shown is made up of the contents of the lines, and these can be read off one line end after the
other.
-/

namespace Phrasebook.Text

variable {c : Char} {text line : List Char}

def isPadding (c : Char) : Bool :=
  c == ' ' || c == '\t'

def endsLine (c : Char) : Bool :=
  c == '\n' || c == '\r'

/-- The lines of a text as they are shown. A carriage return with a line feed behind it is one line
end, and what follows the last line end is a line, even if it is empty. -/
def shownLines : List Char → List (List Char)
  | [] => [[]]
  | '\r' :: '\n' :: rest => [] :: shownLines rest
  | c :: rest =>
    if endsLine c then [] :: shownLines rest else (shownLines rest).modifyHead (c :: ·)

/-- A text without the spaces and tabs at its two edges. -/
def stripped (text : List Char) : List Char :=
  (text.dropWhile isPadding).rdropWhile isPadding

/-- The lines behind another one without their padding, except at the end of the last one. -/
def strippedRest : List (List Char) → List (List Char)
  | [] => []
  | [last] => [last.dropWhile isPadding]
  | line :: next :: others => stripped line :: strippedRest (next :: others)

/-- Lines without their padding, except at the start of the first one and the end of the last. -/
def strippedLines : List (List Char) → List (List Char)
  | [] => []
  | [only] => [only]
  | first :: next :: others => first.rdropWhile isPadding :: strippedRest (next :: others)

/-- Whether a line holds more than spaces and tabs. -/
def hasContent (line : List Char) : Bool :=
  !line.all isPadding

def shownChars (text : List Char) : List Char :=
  [' '].intercalate ((strippedLines (shownLines text)).filter hasContent)

theorem hasContent_eq_false_iff : hasContent line = false ↔ ∀ c ∈ line, isPadding c = true := by
  simp [hasContent]

/-- Padding around a text does not matter to what is left of it. -/
theorem stripped_append {front back : List Char} (hfront : ∀ c ∈ front, isPadding c = true)
    (hback : ∀ c ∈ back, isPadding c = true) (text : List Char) :
    stripped (front ++ (text ++ back)) = stripped text :=
  dropWhile_rdropWhile_append hfront hback text

theorem exists_stripped (text : List Char) :
    ∃ front back, (∀ c ∈ front, isPadding c = true) ∧ (∀ c ∈ back, isPadding c = true) ∧
      text = front ++ (stripped text ++ back) := by
  refine ⟨text.takeWhile isPadding, (text.dropWhile isPadding).rtakeWhile isPadding,
    fun c hc ↦ List.mem_takeWhile_imp hc, fun c hc ↦ List.mem_rtakeWhile_imp hc, ?_⟩
  rw [stripped, List.rdropWhile_append_rtakeWhile, List.takeWhile_append_dropWhile]

@[simp]
theorem stripped_stripped (text : List Char) : stripped (stripped text) = stripped text := by
  obtain ⟨front, back, hfront, hback, htext⟩ := exists_stripped text
  conv_rhs => rw [htext, stripped_append hfront hback]

/-- Nothing is left of a text exactly when it is all spaces and tabs. -/
theorem stripped_eq_nil_iff : stripped text = [] ↔ ∀ c ∈ text, isPadding c = true := by
  constructor
  · intro hnil c hc
    obtain ⟨front, back, hfront, hback, htext⟩ := exists_stripped text
    rw [htext, hnil, List.nil_append, List.mem_append] at hc
    exact hc.elim (hfront c) (hback c)
  · intro hall
    unfold stripped
    rw [List.dropWhile_eq_nil_iff.2 hall]
    rfl

theorem stripped_of_edges (hfirst : ∀ c ∈ text.head?, isPadding c = false)
    (hlast : ∀ c ∈ text.getLast?, isPadding c = false) : stripped text = text := by
  have hstart : text.dropWhile isPadding = text := by
    cases text with
    | nil => rfl
    | cons c rest => exact List.dropWhile_cons_of_neg (Bool.eq_false_iff.1 (hfirst c rfl))
  rw [stripped, hstart, List.rdropWhile_eq_self_iff]
  intro hne
  exact Bool.eq_false_iff.1 (hlast _ (List.getLast?_eq_some_getLast hne))

/-- A text without the characters of a kind at its edges begins with another one. -/
theorem eq_false_of_head? {p : Char → Bool}
    (h : c ∈ ((text.dropWhile p).rdropWhile p).head?) : p c = false := by
  cases hdrop : text.dropWhile p with
  | nil =>
    rw [hdrop] at h
    cases h
  | cons first rest =>
    have hfirst := List.head?_dropWhile_not p text
    obtain ⟨others, hothers⟩ := List.rdropWhile_prefix p (l := first :: rest)
    rw [hdrop] at h hfirst
    cases hleft : (first :: rest).rdropWhile p with
    | nil =>
      rw [hleft] at h
      cases h
    | cons d more =>
      rw [hleft] at h hothers
      cases h
      cases hothers
      simpa using hfirst

/-- A text without the characters of a kind at its edges ends in another one. -/
theorem eq_false_of_getLast? {p : Char → Bool}
    (h : c ∈ ((text.dropWhile p).rdropWhile p).getLast?) : p c = false := by
  obtain ⟨hne, rfl⟩ := List.mem_getLast?_eq_getLast h
  exact Bool.eq_false_iff.2 (List.rdropWhile_last_not _ _ hne)

theorem stripped_dropWhile (text : List Char) :
    stripped (text.dropWhile isPadding) = stripped text := by
  unfold stripped
  rw [List.dropWhile_idempotent]

/-- What is left of a text without the padding at its end begins with that at its start. -/
theorem exists_rdropWhile (text : List Char) :
    ∃ front, (∀ c ∈ front, isPadding c = true) ∧
      text.rdropWhile isPadding = front ++ stripped text := by
  obtain ⟨front, back, hfront, hback, htext⟩ := exists_stripped text
  by_cases hnil : stripped text = []
  · refine ⟨[], by simp, ?_⟩
    rw [hnil, List.nil_append, List.rdropWhile_eq_nil_iff]
    exact stripped_eq_nil_iff.1 hnil
  · refine ⟨front, hfront, ?_⟩
    conv_lhs => rw [htext, ← List.append_assoc, rdropWhile_append hback]
    rw [List.rdropWhile_eq_self_iff]
    intro hne
    have hlast : (front ++ stripped text).getLast? = (stripped text).getLast? :=
      List.getLast?_append_of_ne_nil _ hnil
    rw [List.getLast?_eq_some_getLast hne] at hlast
    exact Bool.eq_false_iff.1 (eq_false_of_getLast? hlast.symm)

theorem stripped_rdropWhile (text : List Char) :
    stripped (text.rdropWhile isPadding) = stripped text := by
  obtain ⟨front, hfront, htext⟩ := exists_rdropWhile text
  rw [htext, ← List.append_nil (stripped text), stripped_append hfront (by simp),
    List.append_nil, stripped_stripped]

theorem head?_intercalate {separator first : List Char} (hne : first ≠ [])
    (rest : List (List Char)) : (separator.intercalate (first :: rest)).head? = first.head? := by
  cases rest with
  | nil => rw [List.intercalate_singleton]
  | cons second others =>
    rw [List.intercalate_cons_cons, List.append_assoc, List.head?_append_of_ne_nil _ hne]

theorem getLast?_intercalate_cons {separator : List Char} {second : List Char} (first : List Char)
    (hne : second ≠ []) (others : List (List Char)) :
    (separator.intercalate (first :: second :: others)).getLast? =
      (separator.intercalate (second :: others)).getLast? := by
  have hjoined : separator.intercalate (second :: others) ≠ [] := by
    intro hnil
    have hhead : (separator.intercalate (second :: others)).head? = second.head? :=
      head?_intercalate hne others
    rw [hnil, List.head?_nil] at hhead
    exact hne (List.head?_eq_none_iff.1 hhead.symm)
  rw [List.intercalate_cons_cons, List.getLast?_append_of_ne_nil _ hjoined]

/-- Stripped texts with spaces between them have no padding at the edges. -/
theorem stripped_intercalate {parts : List (List Char)}
    (h : ∀ part ∈ parts, part ≠ [] ∧ stripped part = part) :
    stripped ([' '].intercalate parts) = [' '].intercalate parts := by
  refine stripped_of_edges ?_ ?_
  · cases parts with
    | nil => simp
    | cons first rest =>
      obtain ⟨hne, hfirst⟩ := h first List.mem_cons_self
      rw [head?_intercalate hne, ← hfirst]
      exact fun c hc ↦ eq_false_of_head? hc
  · induction parts with
    | nil => simp
    | cons first rest ih =>
      cases rest with
      | nil =>
        rw [List.intercalate_singleton, ← (h first List.mem_cons_self).2]
        exact fun c hc ↦ eq_false_of_getLast? hc
      | cons second others =>
        have hothers := fun part hpart ↦ h part (List.mem_cons_of_mem first hpart)
        rw [getLast?_intercalate_cons first (hothers second List.mem_cons_self).1]
        exact ih hothers

/-! ## Showing, line by line -/

theorem hasContent_eq (line : List Char) : hasContent line = !(stripped line).isEmpty := by
  rw [Bool.eq_iff_iff, Bool.not_eq_true', ← Bool.not_eq_true, ← Bool.not_eq_false]
  simp [hasContent_eq_false_iff, stripped_eq_nil_iff]

/-- What is left of the lines of a text after stripping, blank lines left out. -/
def contents (lines : List (List Char)) : List (List Char) :=
  (lines.map stripped).filter fun line ↦ !line.isEmpty

theorem contents_eq (lines : List (List Char)) :
    contents lines = (lines.filter hasContent).map stripped := by
  unfold contents
  rw [List.filter_map]
  congr 1
  exact List.filter_congr fun line _ ↦ (hasContent_eq line).symm

theorem stripped_of_mem_contents {lines : List (List Char)} (h : line ∈ contents lines) :
    line ≠ [] ∧ stripped line = line := by
  obtain ⟨hmem, hne⟩ := List.mem_filter.1 h
  obtain ⟨whole, -, rfl⟩ := List.mem_map.1 hmem
  exact ⟨by simpa using hne, stripped_stripped whole⟩

theorem map_stripped_strippedRest (lines : List (List Char)) :
    (strippedRest lines).map stripped = lines.map stripped := by
  fun_induction strippedRest lines with
  | case1 => rfl
  | case2 last => rw [List.map_singleton, List.map_singleton, stripped_dropWhile]
  | case3 line next others ih => rw [List.map_cons, List.map_cons, stripped_stripped, ih]

theorem contents_strippedRest (lines : List (List Char)) :
    contents lines = ((strippedRest lines).filter hasContent).map stripped := by
  rw [← contents_eq, contents, contents, map_stripped_strippedRest]

theorem contents_nil : contents [] = [] := rfl

theorem contents_cons (line : List Char) (lines : List (List Char)) :
    contents (line :: lines) =
      if hasContent line then stripped line :: contents lines else contents lines := by
  unfold contents
  rw [List.map_cons, List.filter_cons, hasContent_eq]

theorem hasContent_stripped (line : List Char) : hasContent (stripped line) = hasContent line := by
  rw [hasContent_eq, hasContent_eq, stripped_stripped]

/-- Padding at the end of what the lines of `rest` are shown as stays there when a line comes before
them. -/
theorem exists_shown_cons {rest : List (List Char)} {back : List Char}
    (hback : ∀ c ∈ back, isPadding c = true)
    (hrest : [' '].intercalate ((strippedRest rest).filter hasContent) =
      [' '].intercalate (contents rest) ++ back) (front line : List Char) :
    ∃ back, (∀ c ∈ back, isPadding c = true) ∧
      [' '].intercalate ((front ++ stripped line) :: (strippedRest rest).filter hasContent) =
        front ++ ([' '].intercalate (stripped line :: contents rest) ++ back) := by
  by_cases hnil : (strippedRest rest).filter hasContent = []
  · rw [contents_strippedRest, hnil]
    exact ⟨[], by simp, by simp⟩
  · have hcontents : contents rest ≠ [] := by
      rw [contents_strippedRest]
      exact fun hmap ↦ hnil (List.map_eq_nil_iff.1 hmap)
    refine ⟨back, hback, ?_⟩
    rw [List.intercalate_cons_of_ne_nil hnil, List.intercalate_cons_of_ne_nil hcontents, hrest]
    simp only [List.append_assoc]

/-- Behind another line, padding can be left at the end of the last line only. -/
theorem exists_shown_rest (lines : List (List Char)) :
    ∃ back, (∀ c ∈ back, isPadding c = true) ∧
      [' '].intercalate ((strippedRest lines).filter hasContent) =
        [' '].intercalate (contents lines) ++ back := by
  fun_induction strippedRest lines with
  | case1 => exact ⟨[], by simp, rfl⟩
  | case2 last =>
    have hsame : hasContent (last.dropWhile isPadding) = hasContent last := by
      rw [hasContent_eq, hasContent_eq, stripped_dropWhile]
    rw [contents_cons, List.filter_cons, hsame]
    cases hasContent last with
    | false => exact ⟨[], by simp, rfl⟩
    | true =>
      refine ⟨(last.dropWhile isPadding).rtakeWhile isPadding,
        fun c hc ↦ List.mem_rtakeWhile_imp hc, ?_⟩
      simp only [if_true, List.filter_nil, contents_nil, List.intercalate_singleton]
      exact List.rdropWhile_append_rtakeWhile.symm
  | case3 line next others ih =>
    obtain ⟨back, hback, hjoin⟩ := ih
    rw [contents_cons, List.filter_cons, hasContent_stripped]
    cases hasContent line with
    | false => exact ⟨back, hback, hjoin⟩
    | true => exact exists_shown_cons hback hjoin [] line

/-- Without the padding at its edges, a markup text is shown as the contents of its lines. -/
theorem stripped_shownChars (text : List Char) :
    stripped (shownChars text) = [' '].intercalate (contents (shownLines text)) := by
  obtain ⟨front, back, hfront, hback, hshown⟩ : ∃ front back : List Char,
      (∀ c ∈ front, isPadding c = true) ∧ (∀ c ∈ back, isPadding c = true) ∧
        shownChars text = front ++ ([' '].intercalate (contents (shownLines text)) ++ back) := by
    unfold shownChars
    generalize shownLines text = lines
    fun_cases strippedLines lines with
    | case1 => exact ⟨[], [], by simp, by simp, rfl⟩
    | case2 only =>
      rw [contents_cons, List.filter_cons]
      cases hasContent only with
      | false => exact ⟨[], [], by simp, by simp, rfl⟩
      | true =>
        simp only [if_true, List.filter_nil, contents_nil, List.intercalate_singleton]
        exact exists_stripped only
    | case3 first next others =>
      obtain ⟨back, hback, hjoin⟩ := exists_shown_rest (next :: others)
      obtain ⟨front, hfront, hfirst⟩ := exists_rdropWhile first
      have hsame : hasContent (first.rdropWhile isPadding) = hasContent first := by
        rw [hasContent_eq, hasContent_eq, stripped_rdropWhile]
      rw [contents_cons, List.filter_cons, hsame]
      cases hasContent first with
      | false => exact ⟨[], back, by simp, hback, hjoin⟩
      | true =>
        obtain ⟨back, hback, hshown⟩ := exists_shown_cons hback hjoin front first
        rw [← hfirst] at hshown
        exact ⟨front, back, hfront, hback, hshown⟩
  rw [hshown, stripped_append hfront hback, stripped_intercalate]
  exact fun part hpart ↦ stripped_of_mem_contents hpart

/-- The contents of the lines of a text, whatever ends them. -/
def shownParts (text : List Char) : List (List Char) :=
  contents (text.splitOnP endsLine)

theorem contents_append (lines others : List (List Char)) :
    contents (lines ++ others) = contents lines ++ contents others := by
  rw [contents, List.map_append, List.filter_append, contents, contents]

theorem shownParts_append_cons (hc : endsLine c = true) (front back : List Char) :
    shownParts (front ++ c :: back) = shownParts front ++ shownParts back := by
  rw [shownParts, List.splitOnP_append_cons front back hc, contents_append, shownParts, shownParts]

theorem shownParts_cons (hc : endsLine c = true) (text : List Char) :
    shownParts (c :: text) = shownParts text :=
  shownParts_append_cons hc [] text

theorem shownParts_of_forall (h : ∀ c ∈ text, endsLine c = false) :
    shownParts text = contents [text] := by
  rw [shownParts, List.splitOnP_eq_singleton h]

theorem contents_modifyHead (lines : List (List Char)) :
    contents (lines.modifyHead ([] ++ ·)) = contents lines := by
  cases lines <;> rfl

/-- A line end of two characters has an empty line between them, which is not shown. -/
theorem contents_shownLines (text : List Char) :
    contents (shownLines text) = shownParts text := by
  -- A line is read from its start, so the induction carries the characters before a line end.
  have hgeneral : ∀ front : List Char, (∀ c ∈ front, endsLine c = false) →
      contents ((shownLines text).modifyHead (front ++ ·)) = shownParts (front ++ text) := by
    fun_induction shownLines text with
    | case1 =>
      intro front hfront
      rw [List.append_nil, shownParts_of_forall hfront, List.modifyHead_cons, List.append_nil]
    | case2 rest ih =>
      intro front hfront
      rw [shownParts_append_cons rfl, shownParts_cons rfl, shownParts_of_forall hfront,
        List.modifyHead_cons, List.append_nil, ← List.nil_append rest, ← ih [] (by simp),
        contents_modifyHead, ← contents_append, List.singleton_append]
      rfl
    | case3 c rest hpair hc ih =>
      intro front hfront
      rw [shownParts_append_cons hc, shownParts_of_forall hfront, List.modifyHead_cons,
        List.append_nil, ← List.nil_append rest, ← ih [] (by simp), contents_modifyHead,
        ← contents_append, List.singleton_append]
      rfl
    | case4 c rest hpair hc ih =>
      intro front hfront
      have hlonger : ∀ d ∈ front ++ [c], endsLine d = false := by
        simp only [List.mem_append, List.mem_singleton]
        rintro d (hd | rfl)
        · exact hfront d hd
        · exact Bool.eq_false_iff.2 hc
      have hrest := ih (front ++ [c]) hlonger
      rw [List.append_assoc, List.singleton_append] at hrest
      rw [← hrest, List.modifyHead_modifyHead]
      congr 2
      funext line
      simp
  rw [← contents_modifyHead, hgeneral [] (by simp), List.nil_append]

def behind (front : List Char) : List (List Char) → List (List Char)
  | [] => [front]
  | line :: others => (front ++ line) :: others

theorem flatMap_behind_nil (lines : List (List Char)) :
    (behind [] lines).flatMap shownParts = lines.flatMap shownParts := by
  cases lines <;> rfl

theorem behind_lines_cons (hc : c ≠ '\n') (front rest : List Char) :
    behind front (lines (c :: rest)) = behind (front ++ [c]) (lines rest) := by
  rw [lines, if_neg hc]
  cases lines rest <;> simp [behind]

/-- The lines between line feeds, cut at carriage returns as well, hold what is shown. -/
theorem flatMap_shownParts_lines (text : List Char) :
    (lines text).flatMap shownParts = shownParts text := by
  have hgeneral : ∀ front : List Char,
      (behind front (lines text)).flatMap shownParts = shownParts (front ++ text) := by
    induction text with
    | nil => intro front; simp [lines, behind]
    | cons c rest ih =>
      intro front
      by_cases hc : c = '\n'
      · subst hc
        rw [shownParts_append_cons rfl, ← List.nil_append rest, ← ih [], flatMap_behind_nil, lines,
          if_pos rfl]
        simp [behind]
      · rw [behind_lines_cons hc, ih, List.append_assoc, List.singleton_append]
  rw [← flatMap_behind_nil, hgeneral [], List.nil_append]

end Phrasebook.Text
