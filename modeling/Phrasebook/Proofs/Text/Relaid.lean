import Mathlib.Logic.Relation
import Phrasebook.Proofs.Text.Stored

/-!
# Texts that differ in their layout

A formatter indents lines, breaks them at spaces, puts in blank lines and takes them out, and
changes what ends them. None of this changes the form in which markup text is stored, and nothing
else leaves it as it is: texts are stored in the same form exactly when changes of the layout lead
from one to the other. For one direction, what is stored of a text is put together from what is
stored of its lines; for the other, changes of the layout lead from every text to its stored form,
one line after the other.
-/

namespace Phrasebook.Text

variable {c d : Char} {above below line rest text other front back indent : List Char}

/-- A place at which a line begins: nothing stands before it, or a line feed. -/
def AtLineStart (above : List Char) : Prop :=
  ∀ c ∈ above.getLast?, c = '\n'

/-- A place at which a line ends: nothing stands behind it, or a line feed. -/
def AtLineEnd (below : List Char) : Prop :=
  ∀ c ∈ below.head?, c = '\n'

theorem atLineStart_nil : AtLineStart [] := by
  simp [AtLineStart]

theorem atLineEnd_nil : AtLineEnd [] := by
  simp [AtLineEnd]

theorem atLineEnd_cons (rest : List Char) : AtLineEnd ('\n' :: rest) := by
  simp [AtLineEnd]

/-- One change of the layout of a markup text, as a formatter makes it. -/
inductive Relaid : List Char → List Char → Prop
  /-- Other blanks stand at the edges of a line. A carriage return is one of these blanks. -/
  | edges {above below lead trail newLead newTrail : List Char} (line : List Char)
      (begins : AtLineStart above) (ends : AtLineEnd below)
      (lead_blank : ∀ c ∈ lead, isBlank c = true) (trail_blank : ∀ c ∈ trail, isBlank c = true)
      (newLead_blank : ∀ c ∈ newLead, isBlank c = true)
      (newTrail_blank : ∀ c ∈ newTrail, isBlank c = true) :
      Relaid (above ++ (lead ++ (line ++ trail)) ++ below)
        (above ++ (newLead ++ (line ++ newTrail)) ++ below)
  /-- A blank line is put in before another one. -/
  | blankBefore {above blank : List Char} (below : List Char) (begins : AtLineStart above)
      (is_blank : ∀ c ∈ blank, isBlank c = true) :
      Relaid (above ++ below) (above ++ (blank ++ '\n' :: below))
  /-- A blank line is put in behind another one. -/
  | blankBehind {below blank : List Char} (above : List Char) (ends : AtLineEnd below)
      (is_blank : ∀ c ∈ blank, isBlank c = true) :
      Relaid (above ++ below) (above ++ '\n' :: (blank ++ below))
  /-- A line ends in a carriage return and a line feed in the place of a line feed. -/
  | lineEnd (above below : List Char) :
      Relaid (above ++ '\n' :: below) (above ++ '\r' :: '\n' :: below)
  /-- A line is broken at a single space, and the line that follows is indented. -/
  | wrapped {c d : Char} {indent : List Char} (above below : List Char) (before : isBlank c = false)
      (behind : isBlank d = false) (is_blank : ∀ c ∈ indent, isBlank c = true) :
      Relaid (above ++ c :: ' ' :: d :: below) (above ++ c :: '\n' :: (indent ++ d :: below))

/-- Two texts that differ in their layout only: changes of the layout and their reversals lead from
one to the other. -/
def Reformatted (first second : String) : Prop :=
  Relation.EqvGen Relaid first.toList second.toList

/-- A text is one line, or a line and the text behind its line feed. -/
@[elab_as_elim]
theorem lines_induction {motive : List Char → Prop}
    (single : ∀ line, '\n' ∉ line → motive line)
    (cons : ∀ line rest, '\n' ∉ line → motive rest → motive (line ++ '\n' :: rest))
    (text : List Char) : motive text := by
  by_cases hfeed : '\n' ∈ text
  · obtain ⟨line, rest, htext, hline⟩ := List.eq_append_cons_of_mem hfeed
    have hrest : motive rest := lines_induction single cons rest
    exact htext ▸ cons line rest hline hrest
  · exact single text hfeed
termination_by text.length
decreasing_by
  rw [htext, List.length_append, List.length_cons]
  omega

theorem lines_append_cons (hline : '\n' ∉ line) (rest : List Char) :
    lines (line ++ '\n' :: rest) = line :: lines rest := by
  induction line with
  | nil => rw [List.nil_append, lines, if_pos rfl]
  | cons c others ih =>
    rw [List.mem_cons, not_or] at hline
    rw [List.cons_append, lines, if_neg (Ne.symm hline.1), ih hline.2]

theorem lines_of_not_mem (hline : '\n' ∉ line) (hne : line ≠ []) : lines line = [line] := by
  induction line with
  | nil => exact absurd rfl hne
  | cons c others ih =>
    rw [List.mem_cons, not_or] at hline
    rw [lines, if_neg (Ne.symm hline.1)]
    cases others with
    | nil => rfl
    | cons d more => rw [ih hline.2 (List.cons_ne_nil d more)]

/-- One line is stored trimmed, if it is not blank. -/
theorem storedParts_of_not_mem (hline : '\n' ∉ line) :
    storedParts line = [trimChars line].filter fun part ↦ !part.isEmpty := by
  by_cases hne : line = []
  · rw [hne]
    rfl
  · rw [storedParts, lines_of_not_mem hline hne, List.map_singleton]

/-- The parts that are stored of two texts on different lines are those of either. -/
theorem storedParts_append_cons (front back : List Char) :
    storedParts (front ++ '\n' :: back) = storedParts front ++ storedParts back := by
  have hline : ∀ line rest, '\n' ∉ line →
      storedParts (line ++ '\n' :: rest) = storedParts line ++ storedParts rest := by
    intro line rest hfeed
    rw [storedParts_of_not_mem hfeed, storedParts, lines_append_cons hfeed, List.map_cons,
      ← List.singleton_append, List.filter_append, storedParts]
  induction front using lines_induction with
  | single line hfeed => exact hline line back hfeed
  | cons line rest hfeed ih =>
    rw [List.append_assoc, List.cons_append, hline line _ hfeed, hline line rest hfeed, ih,
      List.append_assoc]

/-- A blank at the start of a text is not stored. -/
theorem storedParts_cons_of_isBlank (hc : isBlank c = true) (text : List Char) :
    storedParts (c :: text) = storedParts text := by
  by_cases hfeed : c = '\n'
  · rw [hfeed]
    exact storedParts_append_cons [] text
  · have hline : ∀ line, '\n' ∉ line → storedParts (c :: line) = storedParts line := by
      intro line hline
      have hlonger : '\n' ∉ c :: line := by
        rw [List.mem_cons, not_or]
        exact ⟨Ne.symm hfeed, hline⟩
      rw [storedParts_of_not_mem hlonger, storedParts_of_not_mem hline,
        trimChars_cons_of_isBlank hc]
    induction text using lines_induction with
    | single line hfree => exact hline line hfree
    | cons line rest hfree =>
      rw [← List.cons_append, storedParts_append_cons, storedParts_append_cons, hline line hfree]

/-- A blank at the end of a text is not stored. -/
theorem storedParts_concat_of_isBlank (hc : isBlank c = true) (text : List Char) :
    storedParts (text ++ [c]) = storedParts text := by
  by_cases hfeed : c = '\n'
  · rw [hfeed, storedParts_append_cons]
    exact List.append_nil _
  · induction text using lines_induction with
    | single line hline =>
      have hlonger : '\n' ∉ line ++ [c] := by
        rw [List.mem_append, List.mem_singleton, not_or]
        exact ⟨hline, Ne.symm hfeed⟩
      have htrim : trimChars (line ++ [c]) = trimChars line :=
        trimChars_append (List.forall_mem_nil _) (by simpa using hc) line
      rw [storedParts_of_not_mem hlonger, storedParts_of_not_mem hline, htrim]
    | cons line rest hline ih =>
      rw [List.append_assoc, List.cons_append, storedParts_append_cons, ih,
        storedParts_append_cons]

/-- Blanks before a text, line feeds among them, do not matter to what is stored of it. -/
theorem storedParts_blanks_append (hfront : ∀ c ∈ front, isBlank c = true) (text : List Char) :
    storedParts (front ++ text) = storedParts text := by
  induction front with
  | nil => rfl
  | cons c rest ih =>
    rw [List.cons_append, storedParts_cons_of_isBlank (hfront c List.mem_cons_self)]
    exact ih fun d hd ↦ hfront d (List.mem_cons_of_mem c hd)

/-- Blanks behind a text, line feeds among them, do not matter to what is stored of it. -/
theorem storedParts_append_blanks (hback : ∀ c ∈ back, isBlank c = true) (text : List Char) :
    storedParts (text ++ back) = storedParts text := by
  induction back using List.reverseRecOn with
  | nil => rw [List.append_nil]
  | append_singleton rest c ih =>
    rw [← List.append_assoc, storedParts_concat_of_isBlank (hback c (by simp))]
    exact ih fun d hd ↦ hback d (List.mem_append_left _ hd)

/-! ## Breaking a line at a space -/

/-- A text that ends in no blank is its trimmed form behind blanks. -/
theorem leadChars_append_trimChars (hlast : ∀ c ∈ text.getLast?, isBlank c = false) :
    leadChars text ++ trimChars text = text := by
  have htext := lead_append_trim_append_trail text
  rcases List.eq_nil_or_concat (trailChars text) with hnil | ⟨rest, c, hconcat⟩
  · rwa [hnil, List.append_nil] at htext
  · rw [hconcat, List.concat_eq_append, ← List.append_assoc] at htext
    have htrail : c ∈ trailChars text := by
      rw [hconcat, List.concat_eq_append]
      exact List.mem_append_right _ List.mem_cons_self
    have hblank : isBlank c = true := isBlank_of_mem_trailChars htrail
    have hmem : c ∈ text.getLast? := by
      rw [← htext]
      exact List.getLast?_concat
    rw [hlast c hmem] at hblank
    cases hblank

/-- A text that begins with no blank is its trimmed form before blanks. -/
theorem trimChars_append_trailChars (hfirst : ∀ c ∈ text.head?, isBlank c = false) :
    trimChars text ++ trailChars text = text := by
  have htext := lead_append_trim_append_trail text
  have hlead : leadChars text = [] := by
    cases text with
    | nil => rfl
    | cons c rest => exact List.takeWhile_cons_of_neg (Bool.eq_false_iff.1 (hfirst c rfl))
  rwa [hlead, List.nil_append] at htext

/-- Of two texts with a single space between them each is trimmed at its own outer edge. -/
theorem trimChars_join (hc : isBlank c = false) (hd : isBlank d = false) (front back : List Char) :
    trimChars ((front ++ [c]) ++ ' ' :: (d :: back)) =
      trimChars (front ++ [c]) ++ ' ' :: trimChars (d :: back) := by
  have hleft : trimChars (front ++ [c]) ≠ [] := trimChars_ne_nil (by simp) hc
  have hright : trimChars (d :: back) ≠ [] := trimChars_ne_nil List.mem_cons_self hd
  have hfront : leadChars (front ++ [c]) ++ trimChars (front ++ [c]) = front ++ [c] :=
    leadChars_append_trimChars (by simpa using hc)
  have hback : trimChars (d :: back) ++ trailChars (d :: back) = d :: back :=
    trimChars_append_trailChars (by simpa using hd)
  calc
    trimChars ((front ++ [c]) ++ ' ' :: (d :: back)) =
        trimChars (leadChars (front ++ [c]) ++
          ((trimChars (front ++ [c]) ++ ' ' :: trimChars (d :: back)) ++
            trailChars (d :: back))) := by
      conv_lhs => rw [← hfront, ← hback]
      simp only [List.append_assoc, List.cons_append]
    _ = trimChars (trimChars (front ++ [c]) ++ ' ' :: trimChars (d :: back)) :=
      trimChars_append (fun _ ↦ isBlank_of_mem_leadChars) (fun _ ↦ isBlank_of_mem_trailChars) _
    _ = trimChars (front ++ [c]) ++ ' ' :: trimChars (d :: back) := by
      refine trimChars_eq_self (fun e he ↦ ?_) (fun e he ↦ ?_)
      · rw [List.head?_append_of_ne_nil _ hleft] at he
        exact eq_false_of_head? he
      · rw [List.getLast?_append_of_ne_nil _ (List.cons_ne_nil _ _),
          ← List.singleton_append, List.getLast?_append_of_ne_nil _ hright] at he
        exact eq_false_of_getLast? he

theorem ne_feed_of_isBlank (hc : isBlank c = false) : c ≠ '\n' := by
  rintro rfl
  cases hc

theorem storedParts_of_visible (hline : '\n' ∉ line) (hmem : c ∈ line) (hc : isBlank c = false) :
    storedParts line = [trimChars line] := by
  rw [storedParts_of_not_mem hline, List.filter_cons_of_pos, List.filter_nil]
  simpa using trimChars_ne_nil hmem hc

/-- What stands behind a space in a line is stored with the rest of that line. -/
theorem exists_storedParts_line (hline : '\n' ∉ line) (hc : isBlank c = false)
    (hd : isBlank d = false) (back : List Char) :
    ∃ first later, storedParts (d :: back) = first :: later ∧
      storedParts ((line ++ [c]) ++ ' ' :: (d :: back)) =
        (trimChars (line ++ [c]) ++ ' ' :: first) :: later := by
  have hsingle : ∀ back, '\n' ∉ back → storedParts (d :: back) = [trimChars (d :: back)] ∧
      storedParts ((line ++ [c]) ++ ' ' :: (d :: back)) =
        [trimChars (line ++ [c]) ++ ' ' :: trimChars (d :: back)] := by
    intro back hback
    have hsecond : '\n' ∉ d :: back := by
      simp [hback, (ne_feed_of_isBlank hd).symm]
    have hwhole : '\n' ∉ (line ++ [c]) ++ ' ' :: (d :: back) := by
      simp [hline, hback, (ne_feed_of_isBlank hc).symm, (ne_feed_of_isBlank hd).symm]
    refine ⟨storedParts_of_visible hsecond List.mem_cons_self hd, ?_⟩
    rw [storedParts_of_visible hwhole (by simp) hc, trimChars_join hc hd]
  by_cases hfeed : '\n' ∈ back
  · obtain ⟨others, rest, rfl, hothers⟩ := List.eq_append_cons_of_mem hfeed
    obtain ⟨hsecond, hwhole⟩ := hsingle others hothers
    refine ⟨trimChars (d :: others), storedParts rest, ?_, ?_⟩
    · rw [← List.cons_append, storedParts_append_cons, hsecond, List.singleton_append]
    · rw [← List.cons_append, ← List.cons_append, ← List.append_assoc, storedParts_append_cons,
        hwhole, List.singleton_append]
  · exact ⟨trimChars (d :: back), [], hsingle back hfeed⟩

/-- A line that is broken at a single space is stored in two parts in the place of one. -/
theorem exists_storedParts_join (hc : isBlank c = false) (hd : isBlank d = false)
    (front back : List Char) :
    ∃ earlier last first later, storedParts (front ++ [c]) = earlier ++ [last] ∧
      storedParts (d :: back) = first :: later ∧
      storedParts ((front ++ [c]) ++ ' ' :: (d :: back)) =
        earlier ++ (last ++ ' ' :: first) :: later := by
  induction front using lines_induction with
  | single line hline =>
    obtain ⟨first, later, hback, hwhole⟩ := exists_storedParts_line hline hc hd back
    have hlonger : '\n' ∉ line ++ [c] := by
      simp [hline, (ne_feed_of_isBlank hc).symm]
    exact ⟨[], trimChars (line ++ [c]), first, later,
      storedParts_of_visible hlonger (by simp) hc, hback, hwhole⟩
  | cons line rest hline ih =>
    obtain ⟨earlier, last, first, later, hfront, hback, hwhole⟩ := ih
    refine ⟨storedParts line ++ earlier, last, first, later, ?_, hback, ?_⟩
    · rw [List.append_assoc, List.cons_append, storedParts_append_cons, hfront, List.append_assoc]
    · rw [List.append_assoc line, List.append_assoc line, List.cons_append, List.cons_append,
        storedParts_append_cons, hwhole, List.append_assoc]

theorem intercalate_join (earlier : List (List Char)) (last first : List Char)
    (later : List (List Char)) :
    [' '].intercalate (earlier ++ (last ++ ' ' :: first) :: later) =
      [' '].intercalate (earlier ++ last :: first :: later) := by
  induction earlier with
  | nil =>
    cases later with
    | nil => simp [List.intercalate]
    | cons next others => simp [List.intercalate_cons_cons]
  | cons part rest ih =>
    rw [List.cons_append, List.cons_append, List.intercalate_cons_of_ne_nil (by simp),
      List.intercalate_cons_of_ne_nil (by simp), ih]

/-- A line may be broken at a space between two words without a change of what is stored. -/
theorem normalizeMarkupChars_wrapped (hc : isBlank c = false) (hd : isBlank d = false)
    (hindent : ∀ e ∈ indent, isBlank e = true) (above below : List Char) :
    normalizeMarkupChars (above ++ c :: ' ' :: d :: below) =
      normalizeMarkupChars (above ++ c :: '\n' :: (indent ++ d :: below)) := by
  obtain ⟨earlier, last, first, later, hfront, hback, hwhole⟩ :=
    exists_storedParts_join hc hd above below
  rw [normalizeMarkupChars_eq, normalizeMarkupChars_eq, List.append_cons above c (' ' :: _), hwhole,
    List.append_cons above c ('\n' :: _), storedParts_append_cons,
    storedParts_blanks_append hindent, hfront, hback, intercalate_join, List.append_assoc,
    List.singleton_append]

theorem storedParts_of_atLineStart (h : AtLineStart above) (text : List Char) :
    storedParts (above ++ text) = storedParts above ++ storedParts text := by
  rcases List.eq_nil_or_concat above with rfl | ⟨before, c, rfl⟩
  · rfl
  · rw [List.concat_eq_append] at h ⊢
    obtain rfl : c = '\n' := h c List.getLast?_concat
    rw [List.append_assoc, List.singleton_append, storedParts_append_cons, storedParts_append_cons]
    exact congrArg (· ++ _) (List.append_nil _).symm

theorem storedParts_of_atLineEnd (h : AtLineEnd below) (text : List Char) :
    storedParts (text ++ below) = storedParts text ++ storedParts below := by
  cases below with
  | nil => rw [List.append_nil]; exact (List.append_nil _).symm
  | cons c rest =>
    obtain rfl : c = '\n' := h c rfl
    rw [storedParts_append_cons, storedParts_cons_of_isBlank rfl]

/-- A change of the layout does not change what is stored. -/
theorem Relaid.normalizeMarkupChars_eq (h : Relaid text other) :
    normalizeMarkupChars text = normalizeMarkupChars other := by
  have hparts : ∀ {first second}, storedParts first = storedParts second →
      normalizeMarkupChars first = normalizeMarkupChars second := fun hsame ↦ by
    rw [Text.normalizeMarkupChars_eq, Text.normalizeMarkupChars_eq, hsame]
  cases h with
  | edges line begins ends lead_blank trail_blank newLead_blank newTrail_blank =>
    apply hparts
    rw [storedParts_of_atLineEnd ends, storedParts_of_atLineEnd ends,
      storedParts_of_atLineStart begins, storedParts_of_atLineStart begins,
      storedParts_blanks_append lead_blank, storedParts_append_blanks trail_blank,
      storedParts_blanks_append newLead_blank, storedParts_append_blanks newTrail_blank]
  | blankBefore below begins is_blank =>
    apply hparts
    rw [storedParts_of_atLineStart begins, storedParts_of_atLineStart begins,
      storedParts_blanks_append is_blank, storedParts_cons_of_isBlank rfl]
  | blankBehind above ends is_blank =>
    apply hparts
    rw [storedParts_of_atLineEnd ends, storedParts_append_cons, storedParts_blanks_append is_blank]
  | lineEnd above below =>
    apply hparts
    rw [storedParts_append_cons, ← storedParts_concat_of_isBlank (c := '\r') rfl above,
      ← storedParts_append_cons, List.append_assoc, List.singleton_append]
  | wrapped above below before behind is_blank =>
    exact normalizeMarkupChars_wrapped before behind is_blank above below

/-! ## From a text to its stored form -/

/-- A change of the layout is one below another line as well. -/
theorem Relaid.below_line (h : Relaid text other) (line : List Char) :
    Relaid (line ++ '\n' :: text) (line ++ '\n' :: other) := by
  have hbegins : ∀ {above}, AtLineStart above → AtLineStart (line ++ '\n' :: above) := by
    intro above begins c hc
    rw [List.getLast?_append_of_ne_nil _ (List.cons_ne_nil _ _)] at hc
    cases above with
    | nil => simpa using hc.symm
    | cons d rest => exact begins c (by rwa [List.getLast?_cons_cons] at hc)
  cases h with
  | edges inner begins ends lead_blank trail_blank newLead_blank newTrail_blank =>
    have hedges := Relaid.edges inner (hbegins begins) ends lead_blank trail_blank newLead_blank
      newTrail_blank
    simpa only [List.append_assoc, List.cons_append] using hedges
  | blankBefore below begins is_blank =>
    have hblank := Relaid.blankBefore below (hbegins begins) is_blank
    simpa only [List.append_assoc, List.cons_append] using hblank
  | @blankBehind below blank above ends is_blank =>
    have hblank := Relaid.blankBehind (line ++ '\n' :: above) ends is_blank
    simpa only [List.append_assoc, List.cons_append] using hblank
  | lineEnd above below =>
    have hend := Relaid.lineEnd (line ++ '\n' :: above) below
    simpa only [List.append_assoc, List.cons_append] using hend
  | wrapped above below before behind is_blank =>
    have hwrapped := Relaid.wrapped (line ++ '\n' :: above) below before behind is_blank
    simpa only [List.append_assoc, List.cons_append] using hwrapped

theorem eqvGen_below_line (h : Relation.EqvGen Relaid text other) (line : List Char) :
    Relation.EqvGen Relaid (line ++ '\n' :: text) (line ++ '\n' :: other) := by
  induction h with
  | rel _ _ hrelaid => exact .rel _ _ (hrelaid.below_line line)
  | refl _ => exact .refl _
  | symm _ _ _ ih => exact .symm _ _ ih
  | trans _ _ _ _ _ hfirst hsecond => exact .trans _ _ _ hfirst hsecond

/-- Blanks at the edges of the first line are taken away. -/
theorem eqvGen_trimmed (line : List Char) (ends : AtLineEnd below) :
    Relation.EqvGen Relaid (line ++ below) (trimChars line ++ below) := by
  have hedges :
      Relaid ([] ++ (leadChars line ++ (trimChars line ++ trailChars line)) ++ below)
        ([] ++ ([] ++ (trimChars line ++ [])) ++ below) :=
    .edges (trimChars line) atLineStart_nil ends (fun _ ↦ isBlank_of_mem_leadChars)
      (fun _ ↦ isBlank_of_mem_trailChars) (List.forall_mem_nil _) (List.forall_mem_nil _)
  rw [← List.append_assoc (leadChars line), lead_append_trim_append_trail] at hedges
  simpa using Relation.EqvGen.rel _ _ hedges

theorem exists_of_mem_storedParts {part : List Char} (h : part ∈ storedParts text) :
    part ≠ [] ∧ ∃ line, part = trimChars line := by
  obtain ⟨hmem, hne⟩ := List.mem_filter.1 h
  obtain ⟨line, -, rfl⟩ := List.mem_map.1 hmem
  exact ⟨by simpa using hne, line, rfl⟩

/-- Two parts that are stored can be put on one line. -/
theorem eqvGen_join {part first : List Char} {later : List (List Char)} (hpart : part ≠ [])
    (hfirst : first ≠ []) (htrimmed : ∃ line, part = trimChars line)
    (hnext : ∃ line, first = trimChars line) :
    Relation.EqvGen Relaid (part ++ '\n' :: [' '].intercalate (first :: later))
      ([' '].intercalate (part :: first :: later)) := by
  obtain ⟨front, c, rfl⟩ := (List.eq_nil_or_concat part).resolve_left hpart
  obtain ⟨d, back, hback⟩ := List.exists_cons_of_ne_nil (l := [' '].intercalate (first :: later))
    fun hnil ↦ hfirst (List.head?_eq_none_iff.1 ((head?_intercalate hfirst later).symm.trans
      (congrArg List.head? hnil)))
  have hc : isBlank c = false := by
    obtain ⟨line, hline⟩ := htrimmed
    have hlast : c ∈ (trimChars line).getLast? := by rw [← hline]; simp
    exact eq_false_of_getLast? hlast
  have hd : isBlank d = false := by
    obtain ⟨line, rfl⟩ := hnext
    have hhead : d ∈ (trimChars line).head? := by
      rw [← head?_intercalate hfirst later, hback]
      rfl
    exact eq_false_of_head? hhead
  have hwrapped :
      Relaid (front ++ c :: ' ' :: d :: back) (front ++ c :: '\n' :: ([] ++ d :: back)) :=
    .wrapped front back hc hd (List.forall_mem_nil _)
  rw [List.intercalate_cons_cons, hback]
  simpa using Relation.EqvGen.symm _ _ (.rel _ _ hwrapped)

/-- The first line of a text is put before the stored form of the others. -/
theorem eqvGen_line (hline : '\n' ∉ line) (rest : List Char) :
    Relation.EqvGen Relaid (trimChars line ++ '\n' :: normalizeMarkupChars rest)
      (normalizeMarkupChars (line ++ '\n' :: rest)) := by
  rw [normalizeMarkupChars_eq, normalizeMarkupChars_eq, storedParts_append_cons,
    storedParts_of_not_mem hline]
  by_cases hblank : trimChars line = []
  · rw [hblank]
    have hbefore :
        Relaid ([] ++ [' '].intercalate (storedParts rest))
          ([] ++ ([] ++ '\n' :: [' '].intercalate (storedParts rest))) :=
      .blankBefore _ atLineStart_nil (List.forall_mem_nil _)
    simpa using Relation.EqvGen.symm _ _ (.rel _ _ hbefore)
  · rw [List.filter_cons_of_pos (by simpa using hblank), List.filter_nil, List.singleton_append]
    cases hparts : storedParts rest with
    | nil =>
      have hbehind : Relaid (trimChars line ++ []) (trimChars line ++ '\n' :: ([] ++ [])) :=
        .blankBehind _ atLineEnd_nil (List.forall_mem_nil _)
      simpa using Relation.EqvGen.symm _ _ (.rel _ _ hbehind)
    | cons first later =>
      obtain ⟨hne, hfirst⟩ := exists_of_mem_storedParts (hparts ▸ List.mem_cons_self)
      exact eqvGen_join hblank hne ⟨line, rfl⟩ hfirst

/-- Changes of the layout lead from a text to its stored form. -/
theorem eqvGen_normalizeMarkupChars (text : List Char) :
    Relation.EqvGen Relaid text (normalizeMarkupChars text) := by
  induction text using lines_induction with
  | single line hline =>
    have hstored : normalizeMarkupChars line = trimChars line := by
      rw [normalizeMarkupChars_eq, storedParts_of_not_mem hline]
      cases htrim : trimChars line <;> simp
    have htrim := eqvGen_trimmed line atLineEnd_nil
    rwa [List.append_nil, List.append_nil, ← hstored] at htrim
  | cons line rest hline ih =>
    have hrest := eqvGen_below_line ih line
    have htrim := eqvGen_trimmed line (atLineEnd_cons (normalizeMarkupChars rest))
    exact .trans _ _ _ hrest (.trans _ _ _ htrim (eqvGen_line hline rest))

theorem normalizeMarkupChars_eq_of_eqvGen (h : Relation.EqvGen Relaid text other) :
    normalizeMarkupChars text = normalizeMarkupChars other := by
  induction h with
  | rel _ _ hrelaid => exact hrelaid.normalizeMarkupChars_eq
  | refl _ => rfl
  | symm _ _ _ ih => exact ih.symm
  | trans _ _ _ _ _ hfirst hsecond => exact hfirst.trans hsecond

/-- Texts differ in their layout only exactly when they are stored in the same form. -/
theorem reformatted_iff {first second : String} :
    Reformatted first second ↔ normalizeMarkupText first = normalizeMarkupText second := by
  unfold Reformatted normalizeMarkupText
  rw [String.ofList_inj]
  constructor
  · exact normalizeMarkupChars_eq_of_eqvGen
  · intro hsame
    have hfirst := eqvGen_normalizeMarkupChars first.toList
    have hsecond := eqvGen_normalizeMarkupChars second.toList
    rw [hsame] at hfirst
    exact .trans _ _ _ hfirst (.symm _ _ hsecond)

instance (first second : String) : Decidable (Reformatted first second) :=
  decidable_of_iff _ reformatted_iff.symm

/-- A break at a space, an indentation, a blank line and line ends of two characters. -/
example : Reformatted "Welcome to the app" "\r\n  Welcome to\r\n\t\r\n\tthe app " := by
  decide +kernel

/-- What is stored is stored as it is. -/
theorem normalizeMarkupText_normalizeMarkupText (text : String) :
    normalizeMarkupText (normalizeMarkupText text) = normalizeMarkupText text := by
  refine (reformatted_iff.1 ?_).symm
  unfold Reformatted normalizeMarkupText
  rw [String.toList_ofList]
  exact eqvGen_normalizeMarkupChars text.toList

end Phrasebook.Text
