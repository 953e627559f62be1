import Mathlib.Data.List.Nodup
import Phrasebook.Proofs.Text.Offset
import Phrasebook.Source.Edit

/-!
# What edits leave of a source

Edits that start at different offsets are applied in the order of these offsets, whatever the order
in which they were described. The text between two of them is kept.
-/

namespace Phrasebook.Edit

variable {head kept behind others : List Char} {edit : Edit} {edits ordered rest : List Edit}

theorem precedes_iff {first second : Edit} : precedes first second = true ↔
    first.start < second.start ∨ first.start = second.start ∧ first.stop ≤ second.stop := by
  simp only [precedes, Bool.or_eq_true, Bool.and_eq_true, decide_eq_true_eq, beq_iff_eq]

theorem precedes_trans (first second third : Edit) (h : precedes first second = true)
    (h' : precedes second third = true) : precedes first third = true := by
  rw [precedes_iff] at *
  omega

theorem precedes_total (first second : Edit) :
    (precedes first second || precedes second first) = true := by
  rw [Bool.or_eq_true, precedes_iff, precedes_iff]
  omega

theorem pairwise_mergeSort (edits : List Edit) :
    (edits.mergeSort precedes).Pairwise fun first second ↦ precedes first second :=
  List.pairwise_mergeSort precedes_trans precedes_total edits

/-- Edits with different starts are sorted in one way only. -/
theorem mergeSort_eq_of_perm (hperm : edits.Perm ordered)
    (hordered : ordered.Pairwise fun first second ↦ first.start < second.start) :
    edits.mergeSort precedes = ordered := by
  have hnodup : (ordered.map Edit.start).Nodup :=
    List.pairwise_map.2 (hordered.imp Nat.ne_of_lt)
  have hprecedes : ordered.Pairwise fun first second ↦ precedes first second := by
    refine hordered.imp fun {first second} hlt ↦ ?_
    exact Bool.or_eq_true_iff.2 (.inl (decide_eq_true hlt))
  have hsorted : (edits.mergeSort precedes).Perm ordered := (List.mergeSort_perm ..).trans hperm
  refine List.Perm.eq_of_pairwise (fun first second hfirst hsecond hle hge ↦ ?_)
    (pairwise_mergeSort edits) hprecedes hsorted
  refine List.inj_on_of_nodup_map hnodup (hsorted.subset hfirst) hsecond ?_
  rw [precedes_iff] at hle hge
  omega

theorem applyFrom?_nil (head behind : List Char) :
    applyFrom? (head ++ behind) (Text.size head) [] = some behind := by
  have hslice := Text.slice?_size head behind []
  rw [List.append_nil] at hslice
  rw [applyFrom?, Text.size_append, hslice]

/-- The text up to the first edit is kept. -/
theorem applyFrom?_cons (hstart : edit.start = Text.size head + Text.size kept)
    (hstop : edit.stop ≤ Text.size (head ++ (kept ++ behind)))
    (hrest : applyFrom? (head ++ (kept ++ behind)) edit.stop rest = some others) :
    applyFrom? (head ++ (kept ++ behind)) (Text.size head) (edit :: rest) =
      some (kept ++ edit.text.toList ++ others) := by
  have hkept : edit.isDropped (Text.size (head ++ (kept ++ behind))) (Text.size head) = false := by
    unfold isDropped
    rw [Bool.or_eq_false_iff]
    exact ⟨decide_eq_false (by omega), decide_eq_false (by omega)⟩
  rw [applyFrom?, hkept, if_neg Bool.false_ne_true, hstart, Text.slice?_size, Option.bind_some,
    hrest, Option.map_some]

/-- Two ranges share no character; an insertion may stand at an edge of the other range. -/
def Apart (first second : Edit) : Prop :=
  first.stop ≤ second.start ∨ second.stop ≤ first.start

theorem Apart.symm {first second : Edit} (h : Apart first second) : Apart second first :=
  Or.symm h

/-- The range of an edit is a range of a text. -/
structure Fits (text : List Char) (edit : Edit) : Prop where
  ordered : edit.start ≤ edit.stop
  start : Text.IsBoundary text edit.start
  stop : Text.IsBoundary text edit.stop

instance (text : List Char) (edit : Edit) : Decidable (edit.Fits text) :=
  decidable_of_iff
    (edit.start ≤ edit.stop ∧ Text.IsBoundary text edit.start ∧ Text.IsBoundary text edit.stop)
    ⟨fun ⟨ordered, start, stop⟩ ↦ ⟨ordered, start, stop⟩,
      fun ⟨ordered, start, stop⟩ ↦ ⟨ordered, start, stop⟩⟩

/-- A text from an offset on and what edits make of it: the range of each edit is replaced by its
text, and everything between the ranges is kept. -/
inductive Spliced : Nat → List Edit → List Char → List Char → Prop
  | rest (offset : Nat) (text : List Char) : Spliced offset [] text text
  | replaced {offset : Nat} {edit : Edit} {edits : List Edit} {kept gone behind others : List Char}
      (start : edit.start = offset + Text.size kept)
      (stop : edit.stop = edit.start + Text.size gone)
      (later : Spliced edit.stop edits behind others) :
      Spliced offset (edit :: edits) (kept ++ (gone ++ behind))
        (kept ++ edit.text.toList ++ others)

/-- A text that no edit reaches back into is kept in front. -/
theorem Spliced.prefix_of_le {offset : Nat} {text result : List Char}
    (h : Spliced offset edits text result) (hkept : kept <+: text)
    (hbehind : ∀ edit ∈ edits, offset + Text.size kept ≤ edit.start) : kept <+: result := by
  cases h with
  | rest => exact hkept
  | replaced hstart hstop hlater =>
    have hfirst := hbehind _ List.mem_cons_self
    obtain ⟨rest, htext⟩ := hkept
    rcases List.append_eq_append_iff.1 htext with ⟨more, rfl, -⟩ | ⟨more, rfl, -⟩
    · rw [List.append_assoc, List.append_assoc]
      exact List.prefix_append ..
    · rw [Text.size_append] at hfirst
      obtain rfl : more = [] := Text.eq_nil_of_size_eq_zero (by omega)
      rw [List.append_nil, List.append_assoc]
      exact List.prefix_append ..

/-- Edits that stand one behind the other are all applied. -/
theorem exists_applyFrom? (hfits : ∀ edit ∈ edits, edit.Fits (head ++ behind))
    (hordered : edits.Pairwise fun first second ↦ first.stop ≤ second.start)
    (hhead : ∀ edit ∈ edits, Text.size head ≤ edit.start) :
    ∃ result, applyFrom? (head ++ behind) (Text.size head) edits = some result ∧
      Spliced (Text.size head) edits behind result := by
  induction edits generalizing head behind with
  | nil => exact ⟨behind, applyFrom?_nil head behind, .rest ..⟩
  | cons edit rest ih =>
    obtain ⟨hfirst, hrest⟩ := List.pairwise_cons.1 hordered
    have hedit := hfits edit List.mem_cons_self
    obtain ⟨kept, last, rfl, hstart⟩ := hedit.start.exists_cut (hhead edit List.mem_cons_self)
    rw [← List.append_assoc] at hfits
    have hkept : Text.size (head ++ kept) = edit.start := by rw [Text.size_append, hstart]
    have hstop : Text.IsBoundary ((head ++ kept) ++ last) edit.stop :=
      (hfits edit List.mem_cons_self).stop
    obtain ⟨gone, behind, rfl, hgone⟩ := hstop.exists_cut (hkept ▸ hedit.ordered)
    rw [← List.append_assoc] at hfits
    have hcursor : Text.size ((head ++ kept) ++ gone) = edit.stop := by
      rw [Text.size_append, hgone]
    obtain ⟨others, hothers, hspliced⟩ := ih
      (fun later hlater ↦ hfits later (List.mem_cons_of_mem _ hlater)) hrest
      (fun later hlater ↦ hcursor ▸ hfirst later hlater)
    rw [hcursor] at hothers hspliced
    rw [List.append_assoc, List.append_assoc] at hothers
    refine ⟨_, applyFrom?_cons hstart hedit.stop.le_size hothers, ?_⟩
    exact .replaced hstart (by rw [hgone, hkept]) hspliced

/-- Of two edits that are apart the one that comes first in the order of edits stops before the
other starts. -/
theorem stop_le_start_of_precedes {first second : Edit} (hsecond : second.start ≤ second.stop)
    (hapart : Apart first second) (hprecedes : precedes first second = true) :
    first.stop ≤ second.start := by
  unfold Apart at hapart
  rw [precedes_iff] at hprecedes
  omega

theorem pairwise_of_apart (hranges : ∀ edit ∈ edits, edit.start ≤ edit.stop)
    (hsorted : edits.Pairwise fun first second ↦ precedes first second)
    (hapart : edits.Pairwise Apart) :
    edits.Pairwise fun first second ↦ first.stop ≤ second.start :=
  (hapart.and hsorted).imp_of_mem fun _ hsecond h ↦
    stop_le_start_of_precedes (hranges _ hsecond) h.1 h.2

/-- Edits that are apart from each other are all applied, whatever the order in which they were
described. -/
theorem exists_applyAll? {source : String} (hfits : ∀ edit ∈ edits, edit.Fits source.toList)
    (hapart : edits.Pairwise Apart) :
    ∃ output, applyAll? source edits = some output ∧
      Spliced 0 (edits.mergeSort precedes) source.toList output.toList := by
  have hperm : (edits.mergeSort precedes).Perm edits := List.mergeSort_perm ..
  have hsorted : ∀ edit ∈ edits.mergeSort precedes, edit.Fits ([] ++ source.toList) :=
    fun edit hedit ↦ hfits edit (hperm.mem_iff.1 hedit)
  have hordered : (edits.mergeSort precedes).Pairwise fun first second ↦
      first.stop ≤ second.start :=
    pairwise_of_apart (fun edit hedit ↦ (hsorted edit hedit).ordered) (pairwise_mergeSort edits)
      (hapart.perm hperm.symm Apart.symm)
  obtain ⟨result, hresult, hspliced⟩ := exists_applyFrom? hsorted hordered
    fun edit _ ↦ Nat.zero_le edit.start
  refine ⟨String.ofList result, ?_, ?_⟩
  · exact congrArg (Option.map String.ofList) hresult
  · rw [String.toList_ofList]
    exact hspliced

/-- The range of an edit, with nothing to put in its place. -/
def blank (edit : Edit) : Edit :=
  delete edit.start edit.stop

/-- Whether edits can be applied does not depend on the texts that they put in. -/
theorem isSome_applyFrom?_blank (source : List Char) (cursor : Nat) (edits : List Edit) :
    (applyFrom? source cursor (edits.map blank)).isSome =
      (applyFrom? source cursor edits).isSome := by
  induction edits generalizing cursor with
  | nil => rfl
  | cons edit rest ih =>
    have hdropped : edit.blank.isDropped (Text.size source) cursor =
        edit.isDropped (Text.size source) cursor := rfl
    rw [List.map_cons, applyFrom?, applyFrom?, hdropped]
    split
    · exact ih cursor
    · have hstart : edit.blank.start = edit.start := rfl
      have hstop : edit.blank.stop = edit.stop := rfl
      rw [hstart, hstop]
      cases Text.slice? cursor edit.start source with
      | none => rfl
      | some kept =>
        rw [Option.bind_some, Option.bind_some, Option.isSome_map, Option.isSome_map]
        exact ih edit.stop

/-- Whether edits can be applied is a matter of their ranges. -/
theorem isSome_applyAll?_congr (source : String) {first second : List Edit}
    (h : first.map blank = second.map blank) :
    (applyAll? source first).isSome = (applyAll? source second).isSome := by
  have hsorted (edits : List Edit) :
      (edits.mergeSort precedes).map blank = (edits.map blank).mergeSort precedes :=
    List.map_mergeSort fun _ _ _ _ ↦ rfl
  unfold applyAll?
  rw [Option.isSome_map, Option.isSome_map, ← isSome_applyFrom?_blank,
    ← isSome_applyFrom?_blank _ _ (second.mergeSort precedes), hsorted, hsorted, h]

theorem applyAll?_nil (source : String) : applyAll? source [] = some source := by
  have hkept := applyFrom?_nil [] source.toList
  rw [List.nil_append, Text.size] at hkept
  rw [applyAll?, List.mergeSort_nil, hkept, Option.map_some, String.ofList_toList]

theorem applyAll?_pair (source : String) {first second : Edit} (h : precedes first second = false) :
    applyAll? source [first, second] =
      (applyFrom? source.toList 0 [second, first]).map String.ofList := by
  have hsorted : [first, second].mergeSort precedes = [second, first] := by
    simp [List.mergeSort, List.MergeSort.Internal.splitInTwo, h]
  rw [applyAll?, hsorted]

end Phrasebook.Edit
