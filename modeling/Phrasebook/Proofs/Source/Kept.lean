import Phrasebook.Proofs.Source.Edits

/-!
# Which edits are kept

Edits are taken in the order of their ranges, and edits with the same range in the order in which
they were described. Each is kept if it ends within the source and starts no earlier than the one
that was kept before it stops. The ranges of the kept ones are replaced, and everything outside of
them stays, once and in order. So the result depends on the order of the description only where
ranges are the same, and edits that are apart are all kept.
-/

namespace Phrasebook.Edit

variable {edit first second : Edit} {edits others ordered rest : List Edit} {offset length : Nat}
variable {source text result other head kept behind : List Char} {last? : Option Edit}

def hasRange (start stop : Nat) (edit : Edit) : Bool :=
  edit.start == start && edit.stop == stop

/-- A list of edits is another one in a new order, in which edits with the same range have kept
theirs. -/
def Reorders (edits ordered : List Edit) : Prop :=
  ∀ start stop, ordered.filter (hasRange start stop) = edits.filter (hasRange start stop)

theorem hasRange_self (edit : Edit) : hasRange edit.start edit.stop edit = true := by
  simp [hasRange]

theorem hasRange_iff {start stop : Nat} :
    hasRange start stop edit = true ↔ edit.start = start ∧ edit.stop = stop := by
  simp [hasRange]

theorem Reorders.symm (h : Reorders edits ordered) : Reorders ordered edits :=
  fun start stop ↦ (h start stop).symm

theorem Reorders.trans (h : Reorders edits ordered) (hothers : Reorders ordered others) :
    Reorders edits others :=
  fun start stop ↦ (hothers start stop).trans (h start stop)

theorem Reorders.perm (h : Reorders edits ordered) : ordered.Perm edits := by
  refine List.perm_iff_count.2 fun edit ↦ ?_
  rw [← List.count_filter (hasRange_self edit), h, List.count_filter (hasRange_self edit)]

/-- Sorting keeps the order of edits with the same range. -/
theorem reorders_mergeSort (edits : List Edit) : Reorders edits (edits.mergeSort precedes) := by
  intro start stop
  have hsorted : (edits.filter (hasRange start stop)).Pairwise fun first second ↦
      precedes first second := by
    refine List.pairwise_of_forall_mem_list fun first hfirst second hsecond ↦ ?_
    have hranges := hasRange_iff.1 (List.mem_filter.1 hfirst).2
    have hothers := hasRange_iff.1 (List.mem_filter.1 hsecond).2
    rw [precedes_iff]
    omega
  have hsublist : (edits.filter (hasRange start stop)).Sublist (edits.mergeSort precedes) :=
    List.sublist_mergeSort precedes_trans precedes_total hsorted List.filter_sublist
  have hlength : (edits.filter (hasRange start stop)).length =
      ((edits.mergeSort precedes).filter (hasRange start stop)).length :=
    ((List.mergeSort_perm edits precedes).symm.filter _).length_eq
  have hfiltered := hsublist.filter (hasRange start stop)
  simp only [List.filter_filter, Bool.and_self] at hfiltered
  exact (hfiltered.eq_of_length hlength).symm

/-- The first edit of a sorted list precedes all of them. -/
theorem precedes_of_mem (hsorted : (first :: rest).Pairwise fun first second ↦ precedes first second)
    (hmem : edit ∈ first :: rest) : precedes first edit = true := by
  rcases List.mem_cons.1 hmem with rfl | hlater
  · simp [precedes_iff]
  · exact (List.pairwise_cons.1 hsorted).1 edit hlater

/-- Two sorted lists in which edits with the same range come in the same order are the same. -/
theorem Reorders.eq_of_pairwise (h : Reorders edits ordered)
    (hedits : edits.Pairwise fun first second ↦ precedes first second)
    (hordered : ordered.Pairwise fun first second ↦ precedes first second) : ordered = edits := by
  induction edits generalizing ordered with
  | nil => exact h.perm.eq_nil
  | cons first rest ih =>
    cases ordered with
    | nil => cases h.perm.symm.eq_nil
    | cons second others =>
      have hle : precedes first second = true :=
        precedes_of_mem hedits (h.perm.subset List.mem_cons_self)
      have hge : precedes second first = true :=
        precedes_of_mem hordered (h.perm.symm.subset List.mem_cons_self)
      have hrange : hasRange first.start first.stop second = true := by
        rw [precedes_iff] at hle hge
        rw [hasRange_iff]
        omega
      have hheads := h first.start first.stop
      rw [List.filter_cons_of_pos hrange, List.filter_cons_of_pos (hasRange_self first)] at hheads
      obtain rfl : second = first := (List.cons.inj hheads).1
      have hrest : Reorders rest others := by
        intro start stop
        have hsame := h start stop
        by_cases hhead : hasRange start stop second = true
        · rw [List.filter_cons_of_pos hhead, List.filter_cons_of_pos hhead] at hsame
          exact (List.cons.inj hsame).2
        · rwa [List.filter_cons_of_neg hhead, List.filter_cons_of_neg hhead] at hsame
      rw [ih hrest (List.pairwise_cons.1 hedits).2 (List.pairwise_cons.1 hordered).2]

theorem Reorders.mergeSort_eq (h : Reorders edits others) :
    others.mergeSort precedes = edits.mergeSort precedes := by
  have hsorted : Reorders (edits.mergeSort precedes) (others.mergeSort precedes) :=
    ((reorders_mergeSort edits).symm.trans h).trans (reorders_mergeSort others)
  exact hsorted.eq_of_pairwise (pairwise_mergeSort edits) (pairwise_mergeSort others)

/-! ## The edits that are kept -/

/-- The edits of a list that are kept behind the one that was kept last, if there is one: each ends
within a text and starts no earlier than the one that was kept before it stops. -/
def keptBehind (length : Nat) : Option Edit → List Edit → List Edit
  | _, [] => []
  | last?, edit :: rest =>
    if edit.stop ≤ length ∧ ∀ last ∈ last?, last.stop ≤ edit.start then
      edit :: keptBehind length (some edit) rest
    else keptBehind length last? rest

def keptOf (length : Nat) (edits : List Edit) : List Edit :=
  keptBehind length none edits

example : keptOf 12 [⟨6, 6, ">"⟩, ⟨6, 6, "<"⟩, ⟨6, 12, "there"⟩, ⟨7, 9, "oe"⟩, ⟨11, 20, "!"⟩] =
    [⟨6, 6, ">"⟩, ⟨6, 6, "<"⟩, ⟨6, 12, "there"⟩] := by
  decide

/-- Where an edit stops, or the start of the text. -/
def reach (last? : Option Edit) : Nat :=
  last?.elim 0 Edit.stop

theorem isDropped_eq_false_iff : edit.isDropped length (reach last?) = false ↔
    edit.stop ≤ length ∧ ∀ last ∈ last?, last.stop ≤ edit.start := by
  unfold isDropped
  rw [Bool.or_eq_false_iff, decide_eq_false_iff_not, decide_eq_false_iff_not, Nat.not_lt,
    Nat.not_lt, and_comm]
  cases last? <;> simp [reach]

/-- Applying edits is applying those that are kept. -/
theorem applyFrom?_keptBehind (source : List Char) (last? : Option Edit) (edits : List Edit) :
    applyFrom? source (reach last?) edits =
      applyFrom? source (reach last?) (keptBehind (Text.size source) last? edits) := by
  induction edits generalizing last? with
  | nil => rfl
  | cons edit rest ih =>
    rw [keptBehind]
    split
    · next hkept =>
      have hdropped := isDropped_eq_false_iff.2 hkept
      have hrest : applyFrom? source edit.stop rest =
          applyFrom? source edit.stop (keptBehind (Text.size source) (some edit) rest) :=
        ih (some edit)
      rw [applyFrom?, applyFrom?, hdropped, if_neg Bool.false_ne_true, if_neg Bool.false_ne_true,
        hrest]
    · next hkept =>
      have hdropped := (Bool.not_eq_false _).mp (mt isDropped_eq_false_iff.1 hkept)
      rw [applyFrom?, if_pos hdropped, ih last?]

theorem keptBehind_sublist (length : Nat) (last? : Option Edit) (edits : List Edit) :
    (keptBehind length last? edits).Sublist edits := by
  induction edits generalizing last? with
  | nil => exact List.Sublist.refl _
  | cons edit rest ih =>
    rw [keptBehind]
    split
    · exact (ih (some edit)).cons_cons edit
    · exact (ih last?).cons edit

theorem stop_le_of_mem_keptBehind (h : edit ∈ keptBehind length last? edits) :
    edit.stop ≤ length := by
  induction edits generalizing last? with
  | nil => cases h
  | cons first rest ih =>
    rw [keptBehind] at h
    split at h
    · next hkept =>
      rcases List.mem_cons.1 h with rfl | hlater
      · exact hkept.1
      · exact ih hlater
    · exact ih h

/-- What is kept stands one behind the other. -/
theorem pairwise_keptBehind (hordered : ∀ edit ∈ edits, edit.stop ≤ length → edit.start ≤ edit.stop)
    (last? : Option Edit) :
    (∀ edit ∈ keptBehind length last? edits, reach last? ≤ edit.start) ∧
      (keptBehind length last? edits).Pairwise fun first second ↦ first.stop ≤ second.start := by
  induction edits generalizing last? with
  | nil => exact ⟨List.forall_mem_nil _, List.Pairwise.nil⟩
  | cons first rest ih =>
    have hrest := ih fun edit hedit ↦ hordered edit (List.mem_cons_of_mem first hedit)
    rw [keptBehind]
    split
    · next hkept =>
      obtain ⟨hbehind, hpairwise⟩ := hrest (some first)
      have hreach : reach last? ≤ first.start := by
        cases last? with
        | none => exact Nat.zero_le _
        | some last => exact hkept.2 last rfl
      have hfirst := hordered first List.mem_cons_self hkept.1
      refine ⟨fun edit hedit ↦ ?_, List.pairwise_cons.2 ⟨hbehind, hpairwise⟩⟩
      rcases List.mem_cons.1 hedit with rfl | hlater
      · exact hreach
      · exact Nat.le_trans (Nat.le_trans hreach hfirst) (hbehind edit hlater)
    · exact hrest last?

def endsWithin (length : Nat) (edit : Edit) : Bool :=
  edit.stop ≤ length

/-- Edits that stand one behind the other are all kept, unless they reach beyond the text. -/
theorem keptBehind_eq_filter
    (hbehind : ∀ edit ∈ edits.filter (endsWithin length), reach last? ≤ edit.start)
    (hpairwise : (edits.filter (endsWithin length)).Pairwise fun first second ↦
      first.stop ≤ second.start) :
    keptBehind length last? edits = edits.filter (endsWithin length) := by
  induction edits generalizing last? with
  | nil => rfl
  | cons first rest ih =>
    rw [keptBehind]
    by_cases hwithin : endsWithin length first = true
    · rw [List.filter_cons_of_pos hwithin] at hbehind hpairwise ⊢
      obtain ⟨hfirst, hrest⟩ := List.pairwise_cons.1 hpairwise
      have hreach := hbehind first List.mem_cons_self
      have hlast : ∀ last ∈ last?, last.stop ≤ first.start := by
        rintro last ⟨⟩
        exact hreach
      have hbehindFirst : ∀ edit ∈ rest.filter (endsWithin length),
          reach (some first) ≤ edit.start := hfirst
      rw [if_pos ⟨of_decide_eq_true hwithin, hlast⟩, ih hbehindFirst hrest]
    · have hbeyond : ¬ first.stop ≤ length := fun hstop ↦ hwithin (decide_eq_true hstop)
      rw [List.filter_cons_of_neg hwithin] at hbehind hpairwise ⊢
      rw [if_neg fun hkept ↦ hbeyond hkept.1, ih hbehind hpairwise]

/-- Whether one of the ranges of edits holds an offset. -/
def covers (edits : List Edit) (offset : Nat) : Bool :=
  edits.any fun edit ↦ edit.start ≤ offset && offset < edit.stop

/-- The characters of a text, which starts at an offset, that lie in none of the ranges of edits. -/
def outside (edits : List Edit) : Nat → List Char → List Char
  | _, [] => []
  | offset, c :: rest =>
    if covers edits offset then outside edits (offset + c.utf8Size) rest
    else c :: outside edits (offset + c.utf8Size) rest

theorem outside_append_before (hbefore : ∀ edit ∈ edits, offset + Text.size head ≤ edit.start) :
    outside edits offset (head ++ text) =
      head ++ outside edits (offset + Text.size head) text := by
  induction head generalizing offset with
  | nil => rfl
  | cons c rest ih =>
    have hsize : Text.size (c :: rest) = c.utf8Size + Text.size rest := rfl
    have hpos := c.utf8Size_pos
    have hfree : ¬ covers edits offset = true := by
      intro hcovers
      obtain ⟨edit, hedit, hrange⟩ := List.any_eq_true.1 hcovers
      have hstart := hbefore edit hedit
      have hle := of_decide_eq_true (Bool.and_eq_true_iff.1 hrange).1
      omega
    rw [List.cons_append, outside, if_neg hfree, ih fun edit hedit ↦ ?_, List.cons_append, hsize,
      Nat.add_assoc]
    have hstart := hbefore edit hedit
    omega

/-- Text that an edit covers is not outside of the edits. -/
theorem outside_append_covered (hedit : edit ∈ edits) (hstart : edit.start ≤ offset)
    (hstop : offset + Text.size head ≤ edit.stop) :
    outside edits offset (head ++ text) = outside edits (offset + Text.size head) text := by
  induction head generalizing offset with
  | nil => rfl
  | cons c rest ih =>
    have hsize : Text.size (c :: rest) = c.utf8Size + Text.size rest := rfl
    have hpos := c.utf8Size_pos
    have hcovers : covers edits offset = true :=
      List.any_eq_true.2 ⟨edit, hedit, Bool.and_eq_true_iff.2
        ⟨decide_eq_true hstart, decide_eq_true (by omega)⟩⟩
    rw [List.cons_append, outside, if_pos hcovers, ih (by omega) (by omega), hsize, Nat.add_assoc]

theorem outside_cons_behind (hstop : edit.stop ≤ offset) (text : List Char) :
    outside (edit :: edits) offset text = outside edits offset text := by
  induction text generalizing offset with
  | nil => rfl
  | cons c rest ih =>
    have hsame : covers (edit :: edits) offset = covers edits offset := by
      have hfree : ¬ offset < edit.stop := Nat.not_lt.2 hstop
      simp [covers, hfree]
    rw [outside, outside, hsame, ih (Nat.le_trans hstop (Nat.le_add_right ..))]

/-- A result is made of the text outside of the ranges of edits, in its order, and of their texts,
each between what stands before its range and what stands behind. -/
def Interleaves (edits : List Edit) (offset : Nat) (text result : List Char) : Prop :=
  ∃ gaps : List (List Char), gaps.length = edits.length + 1 ∧
    gaps.flatten = outside edits offset text ∧
    result = (gaps.zipWith (· ++ ·) (edits.map (·.text.toList) ++ [[]])).flatten

/-- What edits that stand one behind the other leave of a source is the text outside of them with
their texts in between. -/
theorem Spliced.interleaves (h : Spliced offset edits text result)
    (hordered : edits.Pairwise fun first second ↦ first.stop ≤ second.start) :
    Interleaves edits offset text result := by
  induction h with
  | rest offset text =>
    refine ⟨[text], rfl, ?_, by simp⟩
    have hall :
        outside [] offset (text ++ []) = text ++ outside [] (offset + Text.size text) [] :=
      outside_append_before (List.forall_mem_nil _)
    rw [List.append_nil] at hall
    rw [hall]
    simp [outside]
  | @replaced offset edit edits kept gone behind others hstart hstop later ih =>
    obtain ⟨hfirst, hrest⟩ := List.pairwise_cons.1 hordered
    obtain ⟨gaps, hlength, hflatten, hresult⟩ := ih hrest
    refine ⟨kept :: gaps, by simp [hlength], ?_, ?_⟩
    · have hbefore : ∀ other ∈ edit :: edits, offset + Text.size kept ≤ other.start := by
        intro other hother
        rcases List.mem_cons.1 hother with rfl | hmem
        · omega
        · have hbehind := hfirst other hmem
          omega
      rw [outside_append_before hbefore, ← hstart,
        outside_append_covered List.mem_cons_self (Nat.le_refl _) (Nat.le_of_eq hstop.symm),
        ← hstop, outside_cons_behind (Nat.le_refl _), List.flatten_cons, hflatten]
    · rw [hresult]
      simp

/-- The ranges of edits and their texts leave one result. -/
theorem Spliced.unique (h : Spliced offset edits text result)
    (hother : Spliced offset edits text other) : result = other := by
  induction h generalizing other with
  | rest offset text =>
    cases hother
    rfl
  | @replaced offset edit edits kept gone behind others hstart hstop later ih =>
    generalize htext : kept ++ (gone ++ behind) = text at hother
    cases hother with
    | @replaced _ _ _ front taken back last hfront htaken hlater =>
      obtain ⟨rfl, hrest⟩ := Text.append_inj_of_size htext (by omega)
      obtain ⟨rfl, rfl⟩ := Text.append_inj_of_size hrest (by omega)
      rw [ih hlater]

/-- What applying edits to a source comes to when they are taken in some order: the order is sorted
and keeps that of edits with the same range, the edits that are kept in it stand one behind the
other, and the output is what they leave of the source. Everything outside of their ranges is there
once and in order. -/
structure AppliedInOrder (source : String) (edits ordered : List Edit) (output : String) :
    Prop where
  applied : applyAll? source edits = some output
  reorders : Reorders edits ordered
  sorted : ordered.Pairwise fun first second ↦ precedes first second
  spliced : ∀ result, Spliced 0 (keptOf (Text.size source.toList) ordered) source.toList result ↔
    result = output.toList
  behind : (keptOf (Text.size source.toList) ordered).Pairwise fun first second ↦
    first.stop ≤ second.start
  outside : Interleaves (keptOf (Text.size source.toList) ordered) 0 source.toList output.toList
  /-- Where no two edits within the source overlap, all of them are kept. -/
  complete : (edits.filter (endsWithin (Text.size source.toList))).Pairwise Apart →
    keptOf (Text.size source.toList) ordered =
      ordered.filter (endsWithin (Text.size source.toList))
  /-- It does not matter how the edits are ordered, beyond those with the same range. -/
  stable : ∀ others, Reorders edits others → applyAll? source others = some output

/-- Edits are applied in one order, and those of them that are kept, if every edit that ends within
the source has the range of a text. -/
theorem exists_appliedInOrder {source : String} {edits : List Edit}
    (hfits : ∀ edit ∈ edits, edit.stop ≤ Text.size source.toList → edit.Fits source.toList) :
    ∃ ordered output, AppliedInOrder source edits ordered output := by
  have hperm : (edits.mergeSort precedes).Perm edits := List.mergeSort_perm ..
  have hsorted := pairwise_mergeSort edits
  have hranges : ∀ edit ∈ edits.mergeSort precedes, edit.stop ≤ Text.size source.toList →
      edit.Fits source.toList := fun edit hedit ↦ hfits edit (hperm.subset hedit)
  have hbehind := (pairwise_keptBehind (fun edit hedit hstop ↦ (hranges edit hedit hstop).ordered)
    none).2
  have hkept : ∀ edit ∈ keptOf (Text.size source.toList) (edits.mergeSort precedes),
      edit.Fits ([] ++ source.toList) := fun edit hedit ↦
    hranges edit ((keptBehind_sublist _ _ _).subset hedit) (stop_le_of_mem_keptBehind hedit)
  obtain ⟨result, hresult, hspliced⟩ := exists_applyFrom? hkept hbehind
    fun edit _ ↦ Nat.zero_le edit.start
  have happly : applyAll? source edits = some (String.ofList result) := by
    have hdropped := applyFrom?_keptBehind source.toList none (edits.mergeSort precedes)
    exact congrArg (Option.map String.ofList) (hdropped.trans hresult)
  rw [← String.toList_ofList (l := result)] at hspliced
  refine ⟨edits.mergeSort precedes, String.ofList result, happly, reorders_mergeSort edits, hsorted,
    fun other ↦ ⟨fun hother ↦ hother.unique hspliced, ?_⟩, hbehind, hspliced.interleaves hbehind,
    fun hapart ↦ ?_, fun others hothers ↦ ?_⟩
  · rintro rfl
    exact hspliced
  · refine keptBehind_eq_filter (fun edit _ ↦ Nat.zero_le _) ?_
    refine pairwise_of_apart (fun edit hedit ↦ ?_) (hsorted.filter _)
      (hapart.perm (hperm.symm.filter _) Apart.symm)
    obtain ⟨hmem, hstop⟩ := List.mem_filter.1 hedit
    exact (hranges edit hmem (of_decide_eq_true hstop)).ordered
  · rw [applyAll?, hothers.mergeSort_eq]
    exact happly

/-- Two insertions at one place, an edit that reaches into another one, and one that reaches beyond
a short source. -/
def overlapping : List Edit :=
  [⟨6, 12, "there"⟩, ⟨6, 6, ">"⟩, ⟨7, 9, "oe"⟩, ⟨6, 6, "<"⟩, ⟨11, 20, "!"⟩]

theorem exists_appliedInOrder_overlapping :
    (∀ edit ∈ overlapping, edit.stop ≤ Text.size "Hallo wörld".toList →
        edit.Fits "Hallo wörld".toList) ∧
      ∃ ordered output, AppliedInOrder "Hallo wörld" overlapping ordered output := by
  have hfits : ∀ edit ∈ overlapping, edit.stop ≤ Text.size "Hallo wörld".toList →
      edit.Fits "Hallo wörld".toList := by
    decide +kernel
  exact ⟨hfits, exists_appliedInOrder hfits⟩

end Phrasebook.Edit
