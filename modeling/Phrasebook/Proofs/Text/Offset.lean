import Phrasebook.Text.Offset

/-!
# Cutting a text at an offset

A text is cut at the size of what stands before the cut, and nowhere else.
-/

namespace Phrasebook.Text

theorem size_append (first second : List Char) :
    size (first ++ second) = size first + size second := by
  induction first with
  | nil => exact (Nat.zero_add _).symm
  | cons c rest ih => rw [List.cons_append, size, size, ih, Nat.add_assoc]

/-- A text is cut behind its beginning at the size of that beginning. -/
theorem splitAt?_size (first second : List Char) :
    splitAt? (size first) (first ++ second) = some (first, second) := by
  induction first with
  | nil => cases second <;> rfl
  | cons c rest ih =>
    obtain ⟨before, hbefore⟩ : ∃ before, size (c :: rest) = before + 1 :=
      Nat.exists_eq_add_one.2 (Nat.add_pos_left c.utf8Size_pos _)
    have hsize : before + 1 - c.utf8Size = size rest := by
      rw [← hbefore, size, Nat.add_sub_cancel_left]
    have hfits : c.utf8Size ≤ before + 1 := by
      rw [← hbefore]
      exact Nat.le_add_right _ _
    rw [hbefore, List.cons_append, splitAt?, if_pos hfits, hsize, ih]
    rfl

/-- A text has one part of a size at its start. -/
theorem append_inj_of_size {first second third fourth : List Char}
    (h : first ++ second = third ++ fourth) (hsize : size first = size third) :
    first = third ∧ second = fourth := by
  have hcut := splitAt?_size first second
  rw [h, hsize, splitAt?_size] at hcut
  cases hcut
  exact ⟨rfl, rfl⟩

theorem slice?_size (first middle last : List Char) :
    slice? (size first) (size first + size middle) (first ++ (middle ++ last)) = some middle := by
  unfold slice?
  rw [if_pos (Nat.le_add_right ..), splitAt?_size, Option.bind_some]
  dsimp only
  rw [Nat.add_sub_cancel_left, splitAt?_size, Option.map_some]

/-- The two parts of a text that was cut make up the text, and the first has the size of the offset.
-/
theorem eq_of_splitAt? {offset : Nat} {text before after : List Char}
    (h : splitAt? offset text = some (before, after)) :
    before ++ after = text ∧ size before = offset := by
  fun_induction splitAt? offset text generalizing before with
  | case1 text =>
    cases h
    exact ⟨rfl, rfl⟩
  | case2 => cases h
  | case3 offset c rest hfits ih =>
    obtain ⟨⟨front, back⟩, hrest, hcut⟩ := Option.map_eq_some_iff.1 h
    cases hcut
    obtain ⟨htext, hsize⟩ := ih hrest
    refine ⟨congrArg (c :: ·) htext, ?_⟩
    rw [size, hsize]
    omega
  | case4 => cases h

/-- An offset falls between two characters of a text, or on one of its ends. -/
def IsBoundary (text : List Char) (offset : Nat) : Prop :=
  ∃ before after, before ++ after = text ∧ size before = offset

theorem isBoundary_iff {text : List Char} {offset : Nat} :
    IsBoundary text offset ↔ (splitAt? offset text).isSome := by
  constructor
  · rintro ⟨before, after, rfl, rfl⟩
    rw [splitAt?_size]
    rfl
  · intro hcut
    obtain ⟨⟨before, after⟩, hcut⟩ := Option.isSome_iff_exists.1 hcut
    exact ⟨before, after, eq_of_splitAt? hcut⟩

instance (text : List Char) (offset : Nat) : Decidable (IsBoundary text offset) :=
  decidable_of_iff _ isBoundary_iff.symm

theorem isBoundary_zero (text : List Char) : IsBoundary text 0 :=
  ⟨[], text, rfl, rfl⟩

theorem eq_nil_of_size_eq_zero {text : List Char} (h : size text = 0) : text = [] := by
  cases text with
  | nil => rfl
  | cons c rest =>
    have hpos := c.utf8Size_pos
    rw [size] at h
    omega

/-- A boundary behind some text cuts what follows the text. -/
theorem IsBoundary.exists_cut {head behind : List Char} {offset : Nat}
    (h : IsBoundary (head ++ behind) offset) (hhead : size head ≤ offset) :
    ∃ middle last, behind = middle ++ last ∧ offset = size head + size middle := by
  obtain ⟨before, after, htext, rfl⟩ := h
  rcases List.append_eq_append_iff.1 htext with ⟨rest, rfl, rfl⟩ | ⟨middle, rfl, rfl⟩
  · rw [size_append] at hhead ⊢
    obtain rfl : rest = [] := eq_nil_of_size_eq_zero (by omega)
    exact ⟨[], behind, rfl, rfl⟩
  · exact ⟨middle, after, rfl, size_append ..⟩

/-- Two boundaries enclose a text. -/
theorem exists_enclosed {text : List Char} {start stop : Nat} (hstart : IsBoundary text start)
    (hstop : IsBoundary text stop) (horder : start ≤ stop) :
    ∃ before middle after, text = before ++ (middle ++ after) ∧ size before = start ∧
      stop = start + size middle := by
  obtain ⟨before, behind, rfl, rfl⟩ := hstart
  obtain ⟨middle, after, rfl, hmiddle⟩ := hstop.exists_cut horder
  exact ⟨before, middle, after, rfl, rfl, hmiddle⟩

theorem IsBoundary.le_size {text : List Char} {offset : Nat} (h : IsBoundary text offset) :
    offset ≤ size text := by
  obtain ⟨before, after, rfl, rfl⟩ := h
  rw [size_append]
  exact Nat.le_add_right ..

end Phrasebook.Text
