import Phrasebook.Proofs.Source.Edits
import Phrasebook.Source.Inject

/-!
# Taking a block of lines out and putting it back

A block of lines is put in behind some text, each line with a line feed before it, and the lines of
the block that is there are taken out, each with the line end behind it. What remains of the old
block is the line feed before its first line, and the line end behind its last line is gone.
-/

namespace Phrasebook

variable {before after : List Char} {lines : List (List Char)}

namespace Registration

def onLines (lines : List (List Char)) : List Char :=
  lines.flatMap ('\n' :: ·)

/-- Where lines start and stop that stand one below the other from an offset on. -/
def spansFrom : Nat → List (List Char) → List (Nat × Nat)
  | _, [] => []
  | offset, line :: rest =>
    (offset, offset + Text.size line) :: spansFrom (offset + Text.size line + 1) rest

def withoutLineEnd : List Char → List Char
  | '\r' :: '\n' :: rest => rest
  | '\n' :: rest => rest
  | text => text

theorem exists_lineEnd (text : List Char) :
    ∃ lineEnd, lineEnd ++ withoutLineEnd text = text ∧ Text.size lineEnd = lineEndSize text := by
  unfold withoutLineEnd
  split
  · exact ⟨['\r', '\n'], rfl, rfl⟩
  · exact ⟨['\n'], rfl, rfl⟩
  · next hreturn hfeed =>
    refine ⟨[], rfl, ?_⟩
    unfold lineEndSize
    split
    · next rest => exact absurd rfl (hreturn rest)
    · next rest => exact absurd rfl (hfeed rest)
    · rfl

/-- A text begins with a line feed if a line feed in the place of its line end leaves it as it
is. -/
theorem lineFeed_withoutLineEnd_iff (text : List Char) :
    '\n' :: withoutLineEnd text = text ↔ text.head? = some '\n' := by
  unfold withoutLineEnd
  split
  · simp
  · simp
  · next hreturn hfeed =>
    constructor
    · intro hsame
      have hlength := congrArg List.length hsame
      rw [List.length_cons] at hlength
      omega
    · intro hhead
      cases text with
      | nil => cases hhead
      | cons c rest =>
        cases hhead
        exact absurd rfl (hfeed rest)

/-- The edits that take lines out, from the offset of the first of them on, with the text behind
the last one. -/
def cuts : Nat → List (List Char) → List Char → List Edit
  | _, [], _ => []
  | offset, line :: rest, after =>
    .delete offset (offset + Text.size line + lineEndSize (onLines rest ++ after)) ::
      cuts (offset + Text.size line + 1) rest after

/-- The statements of lines one below the other are taken out together with their line ends. -/
theorem mapM_removal? {statements : List ImportStatement}
    (h : statements.map (fun statement ↦ (statement.start, statement.stop)) =
      spansFrom (Text.size before + 1) lines) (after : List Char) :
    statements.mapM (removal? (before ++ (onLines lines ++ after))) =
      some (cuts (Text.size before + 1) lines after) := by
  induction lines generalizing before statements with
  | nil =>
    rw [List.map_eq_nil_iff.1 h]
    rfl
  | cons line rest ih =>
    obtain ⟨statement, others, rfl, hspan, hothers⟩ := List.map_eq_cons_iff.1 h
    obtain ⟨hstart, hstop⟩ := Prod.mk.inj hspan
    have hline : Text.size (before ++ '\n' :: line) = Text.size before + 1 + Text.size line := by
      rw [Text.size_append, Text.size, Nat.add_assoc]
      rfl
    have htext : before ++ (onLines (line :: rest) ++ after) =
        (before ++ '\n' :: line) ++ (onLines rest ++ after) := by
      rw [onLines, List.flatMap_cons, List.append_assoc, List.append_assoc]
      rfl
    have hremoval : removal? ((before ++ '\n' :: line) ++ (onLines rest ++ after)) statement =
        some (.delete (Text.size before + 1) (Text.size before + 1 + Text.size line +
          lineEndSize (onLines rest ++ after))) := by
      unfold removal?
      rw [hstart, hstop, ← hline, Text.splitAt?_size]
      rfl
    rw [← hline] at hothers
    have hrest := ih hothers
    rw [hline] at hrest
    rw [htext, List.mapM_cons, hremoval, hrest]
    rfl

theorem le_start_of_mem_cuts {offset : Nat} {edit : Edit} (h : edit ∈ cuts offset lines after) :
    offset ≤ edit.start := by
  induction lines generalizing offset with
  | nil => cases h
  | cons line rest ih =>
    rcases List.mem_cons.1 h with rfl | hmem
    · exact Nat.le_refl offset
    · have hrest := ih hmem
      omega

theorem pairwise_cuts (offset : Nat) (lines : List (List Char)) (after : List Char) :
    (cuts offset lines after).Pairwise fun first second ↦ first.start < second.start := by
  induction lines generalizing offset with
  | nil => exact List.Pairwise.nil
  | cons line rest ih =>
    refine List.pairwise_cons.2 ⟨fun edit hedit ↦ ?_, ih _⟩
    have hstart := le_start_of_mem_cuts hedit
    show offset < edit.start
    omega

/-- Taking lines out leaves the text between them and the cursor, and the text behind them without
its line end. -/
theorem applyFrom?_cuts (head kept line : List Char) (rest : List (List Char)) (after : List Char) :
    Edit.applyFrom? (head ++ (kept ++ (line ++ (onLines rest ++ after)))) (Text.size head)
        (cuts (Text.size head + Text.size kept) (line :: rest) after) =
      some (kept ++ withoutLineEnd after) := by
  -- The cursor stands behind `head`. Behind the first cut it stands at the start of the next line,
  -- with nothing left to keep, because the cut takes the line feed between them along.
  induction rest generalizing head kept line with
  | nil =>
    obtain ⟨lineEnd, htext, hsize⟩ := exists_lineEnd after
    have hsource : head ++ (kept ++ (line ++ (onLines [] ++ after))) =
        (head ++ (kept ++ (line ++ lineEnd))) ++ withoutLineEnd after := by
      rw [← htext]
      simp [onLines, htext]
    have hstop : Text.size (head ++ (kept ++ (line ++ lineEnd))) =
        Text.size head + Text.size kept + Text.size line + lineEndSize (onLines [] ++ after) := by
      simp only [Text.size_append, hsize]
      rw [Nat.add_assoc, Nat.add_assoc]
      rfl
    have hbehind := Edit.applyFrom?_nil (head ++ (kept ++ (line ++ lineEnd))) (withoutLineEnd after)
    rw [← hsource, hstop] at hbehind
    refine (Edit.applyFrom?_cons rfl ?_ hbehind).trans ?_
    · rw [hsource, Text.size_append, hstop]
      exact Nat.le_add_right ..
    · simp [Edit.delete]
  | cons next rest ih =>
    have hbehind : onLines (next :: rest) ++ after = '\n' :: (next ++ (onLines rest ++ after)) := by
      simp [onLines]
    have hsource : head ++ (kept ++ (line ++ (onLines (next :: rest) ++ after))) =
        (head ++ (kept ++ (line ++ ['\n']))) ++ ([] ++ (next ++ (onLines rest ++ after))) := by
      simp [hbehind]
    have hstop : Text.size (head ++ (kept ++ (line ++ ['\n']))) =
        Text.size head + Text.size kept + Text.size line + 1 := by
      simp only [Text.size_append]
      rw [Nat.add_assoc, Nat.add_assoc]
      rfl
    have hrest := ih (head ++ (kept ++ (line ++ ['\n']))) [] next
    rw [← hsource, hstop, Text.size, Nat.add_zero, List.nil_append] at hrest
    rw [cuts, hbehind]
    rw [hbehind] at hrest
    refine (Edit.applyFrom?_cons rfl ?_ hrest).trans ?_
    · rw [← hbehind, hsource, Text.size_append, hstop]
      exact Nat.le_add_right ..
    · simp [Edit.delete]

/-- Putting the lines of a block in again, and taking those that are there out, puts a line feed in
the place of the line end behind the block. -/
theorem applyAll?_onLines {block : String} (hblock : block.toList = onLines lines)
    (hlines : lines ≠ []) (before after : List Char) :
    Edit.applyAll? (String.ofList (before ++ (onLines lines ++ after)))
        (cuts (Text.size before + 1) lines after ++ [.insertAt (Text.size before) block]) =
      some (String.ofList (before ++ (onLines lines ++ '\n' :: withoutLineEnd after))) := by
  obtain ⟨line, rest, rfl⟩ := List.exists_cons_of_ne_nil hlines
  have hsource : before ++ (onLines (line :: rest) ++ after) =
      before ++ (['\n'] ++ (line ++ (onLines rest ++ after))) := by
    simp [onLines]
  have hsorted : (cuts (Text.size before + 1) (line :: rest) after ++
      [Edit.insertAt (Text.size before) block]).mergeSort Edit.precedes =
        Edit.insertAt (Text.size before) block ::
          cuts (Text.size before + 1) (line :: rest) after := by
    apply Edit.mergeSort_eq_of_perm (List.perm_append_singleton ..)
    refine List.pairwise_cons.2 ⟨fun edit hedit ↦ ?_, pairwise_cuts ..⟩
    exact le_start_of_mem_cuts hedit
  have hcuts := applyFrom?_cuts before ['\n'] line rest after
  have hstart : (Edit.insertAt (Text.size before) block).start =
      Text.size [] + Text.size before := by
    simp [Text.size, Edit.insertAt]
  have hstop : (Edit.insertAt (Text.size before) block).stop ≤
      Text.size ([] ++ (before ++ (['\n'] ++ (line ++ (onLines rest ++ after))))) := by
    rw [List.nil_append, Text.size_append]
    exact Nat.le_add_right ..
  have hinsert := Edit.applyFrom?_cons hstart hstop hcuts
  rw [Edit.applyAll?, hsorted, String.toList_ofList, hsource]
  refine (congrArg (Option.map String.ofList) hinsert).trans ?_
  rw [Edit.insertAt, hblock]
  simp

end Registration

end Phrasebook
