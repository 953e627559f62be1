import Mathlib.Data.List.DropRight
import Phrasebook.Text.Line

/-!
# The edges of a text

A text is what is left of it when it is trimmed, with blanks on both sides. Letters are no blanks,
so a text that holds a letter is not blank.
-/

namespace Phrasebook.Text

variable {c : Char} {text : List Char}

def blankCodes : List Nat :=
  [9, 10, 11, 12, 13, 32, 133, 160, 5760, 8192, 8193, 8194, 8195, 8196, 8197, 8198, 8199, 8200,
    8201, 8202, 8232, 8233, 8239, 8287, 12288]

theorem toNat_mem_blankCodes (h : isBlank c = true) : c.toNat ∈ blankCodes := by
  simp only [isBlank, Bool.or_eq_true, Bool.and_eq_true, decide_eq_true_eq, beq_iff_eq] at h
  simp only [blankCodes, List.mem_cons, List.not_mem_nil, or_false]
  omega

theorem isAlphabetic_of_mem_blankCodes :
    ∀ code ∈ blankCodes, isAlphabetic (Char.ofNat code) = false := by
  decide +kernel

theorem isBlank_of_isAlphabetic (h : isAlphabetic c = true) : isBlank c = false := by
  by_contra hblank
  have hcode := toNat_mem_blankCodes ((Bool.not_eq_false _).mp hblank)
  have hletter := isAlphabetic_of_mem_blankCodes c.toNat hcode
  rw [Char.ofNat_toNat, h] at hletter
  cases hletter

def leadChars (text : List Char) : List Char :=
  text.takeWhile isBlank

/-- The blanks at the end of a text, unless they are its start as well. -/
def trailChars (text : List Char) : List Char :=
  (trimStartChars text).rtakeWhile isBlank

def lead (text : String) : String :=
  String.ofList (leadChars text.toList)

/-- The blanks at the end of a text, unless they are its start as well. -/
def trail (text : String) : String :=
  String.ofList (trailChars text.toList)

theorem isBlank_of_mem_leadChars (h : c ∈ leadChars text) : isBlank c = true :=
  List.mem_takeWhile_imp h

theorem isBlank_of_mem_trailChars (h : c ∈ trailChars text) : isBlank c = true :=
  List.mem_rtakeWhile_imp h

/-- A text is its trimmed form between blanks. -/
theorem lead_append_trim_append_trail (text : List Char) :
    leadChars text ++ trimChars text ++ trailChars text = text :=
  calc
    leadChars text ++ trimChars text ++ trailChars text =
        leadChars text ++ (trimChars text ++ trailChars text) := List.append_assoc ..
    _ = leadChars text ++ trimStartChars text :=
      congrArg (leadChars text ++ ·) (List.rdropWhile_append_rtakeWhile ..)
    _ = text := List.takeWhile_append_dropWhile

/-- A text with a character that is no blank is, without the blanks at its end, more than those at
its start. -/
theorem exists_trimEndChars_eq (hc : c ∈ text) (hblank : isBlank c = false) :
    ∃ middle, trimEndChars text = leadChars text ++ middle ∧ middle ≠ [] := by
  have hfront : leadChars text ++ trimStartChars text = text := List.takeWhile_append_dropWhile
  have hback : trimEndChars text ++ text.rtakeWhile isBlank = text :=
    List.rdropWhile_append_rtakeWhile ..
  have hlead : c ∉ leadChars text := fun hmem ↦ by
    rw [isBlank_of_mem_leadChars hmem] at hblank
    cases hblank
  have hend : c ∈ trimEndChars text := by
    rw [← hback, List.mem_append] at hc
    refine hc.resolve_right fun htrail ↦ ?_
    rw [List.mem_rtakeWhile_imp htrail] at hblank
    cases hblank
  rcases List.append_eq_append_iff.1 (hfront.trans hback.symm) with
    ⟨middle, hsame, -⟩ | ⟨rest, hsame, -⟩
  · refine ⟨middle, hsame, fun hnil ↦ hlead ?_⟩
    rwa [hsame, hnil, List.append_nil] at hend
  · exact absurd (hsame ▸ List.mem_append_left _ hend) hlead

theorem lead_append_trim_append_trail_string (text : String) :
    lead text ++ trim text ++ trail text = text := by
  unfold lead trim trail
  rw [← String.ofList_append, ← String.ofList_append, lead_append_trim_append_trail,
    String.ofList_toList]

theorem rdropWhile_append {p : Char → Bool} {back : List Char} (hback : ∀ c ∈ back, p c = true)
    (text : List Char) : (text ++ back).rdropWhile p = text.rdropWhile p := by
  unfold List.rdropWhile
  rw [List.reverse_append, List.dropWhile_append_of_pos (by simpa using hback)]

/-- Characters of a kind around a text do not matter to what is left without them. -/
theorem dropWhile_rdropWhile_append {p : Char → Bool} {front back : List Char}
    (hfront : ∀ c ∈ front, p c = true) (hback : ∀ c ∈ back, p c = true) (text : List Char) :
    ((front ++ (text ++ back)).dropWhile p).rdropWhile p = (text.dropWhile p).rdropWhile p := by
  rw [List.dropWhile_append_of_pos hfront, List.dropWhile_append]
  split
  · next hempty =>
    rw [List.isEmpty_iff.1 hempty, List.dropWhile_eq_nil_iff.2 hback]
  · exact rdropWhile_append hback _

/-- Blanks around a text do not matter to what is left when it is trimmed. -/
theorem trimChars_append {front back : List Char} (hfront : ∀ c ∈ front, isBlank c = true)
    (hback : ∀ c ∈ back, isBlank c = true) (text : List Char) :
    trimChars (front ++ (text ++ back)) = trimChars text :=
  dropWhile_rdropWhile_append hfront hback text

theorem trimChars_cons_of_isBlank (h : isBlank c = true) (text : List Char) :
    trimChars (c :: text) = trimChars text := by
  unfold trimChars trimStartChars
  rw [List.dropWhile_cons_of_pos h]

/-- A text whose first and last characters are no blanks has nothing to trim. -/
theorem trimChars_eq_self (hfirst : ∀ c ∈ text.head?, isBlank c = false)
    (hlast : ∀ c ∈ text.getLast?, isBlank c = false) : trimChars text = text := by
  have hstart : trimStartChars text = text := by
    cases text with
    | nil => rfl
    | cons c text => exact List.dropWhile_cons_of_neg (Bool.eq_false_iff.1 (hfirst c rfl))
  have hend : trimEndChars text = text := by
    cases hreverse : text.reverse with
    | nil =>
      rw [List.reverse_eq_nil_iff.1 hreverse]
      rfl
    | cons c others =>
      have hc : isBlank c = false := by
        apply hlast
        rw [List.getLast?_eq_head?_reverse, hreverse]
        rfl
      unfold trimEndChars
      rw [hreverse, List.dropWhile_cons_of_neg (Bool.eq_false_iff.1 hc), ← hreverse,
        List.reverse_reverse]
  unfold trimChars
  rw [hstart, hend]

theorem trimChars_ne_nil (hc : c ∈ text) (hblank : isBlank c = false) : trimChars text ≠ [] := by
  intro htrim
  have htext := lead_append_trim_append_trail text
  rw [htrim, List.append_nil] at htext
  have hc' : isBlank c = true := by
    rw [← htext, List.mem_append] at hc
    rcases hc with hmem | hmem
    · exact isBlank_of_mem_leadChars hmem
    · exact isBlank_of_mem_trailChars hmem
  rw [hblank] at hc'
  cases hc'

theorem trim_ne_empty {text : String} (hc : c ∈ text.toList) (hblank : isBlank c = false) :
    trim text ≠ "" := by
  intro htrim
  have hchars := congrArg String.toList htrim
  rw [trim, String.toList_ofList] at hchars
  exact trimChars_ne_nil hc hblank hchars

/-- Nothing is left of a text that is trimmed exactly if it is blank. -/
theorem trim_eq_empty_iff {text : String} : trim text = "" ↔ isBlankText text = true := by
  constructor
  · intro htrim
    by_contra hvisible
    unfold isBlankText at hvisible
    rw [List.all_eq_true, not_forall] at hvisible
    obtain ⟨c, hc⟩ := hvisible
    rw [Classical.not_imp, Bool.not_eq_true] at hc
    exact trim_ne_empty hc.1 hc.2 htrim
  · intro hblank
    unfold trim trimChars trimStartChars
    rw [List.dropWhile_eq_nil_iff.2 (List.all_eq_true.1 hblank)]
    rfl

/-- A text that holds a letter is not blank. -/
theorem trim_ne_empty_of_containsAlphabetic {text : String}
    (h : containsAlphabetic text = true) : trim text ≠ "" := by
  obtain ⟨c, hc, hletter⟩ := List.any_eq_true.1 h
  exact trim_ne_empty hc (isBlank_of_isAlphabetic hletter)

end Phrasebook.Text
