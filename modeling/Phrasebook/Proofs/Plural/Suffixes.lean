import Phrasebook.Plural.Normalize
import Phrasebook.Proofs.Plural.Braces

/-!
# Texts without the suffix of an optional plural

What is left of a text when its suffixes `(s)` are removed: every suffix is left out that does not
follow the word `item`, and every other character stays. A suffix that follows the word was scanned
together with it, so at every other suffix the scan has only to look ahead. Since neither a suffix
nor the word holds a brace, the text on one side of a brace does not depend on the other side.
-/

namespace Phrasebook.Plural

variable {text rest result other earlier front middle word blank suffix : List Char} {c : Char}
variable {room : Nat}

/-! ## Suffixes -/

/-- One blank, or none. -/
def IsOptionalBlank (blank : List Char) : Prop :=
  blank = [] ∨ ∃ c, Text.isBlank c = true ∧ blank = [c]

/-- The suffix of an optional plural: the letter in parentheses, with a blank on either side of it
or not. The letter may be a long s. -/
inductive IsSuffix : List Char → Prop
  | mk {before behind : List Char} {s : Char} (hbefore : IsOptionalBlank before)
    (hs : s = 's' ∨ s = 'S' ∨ s = 'ſ') (hbehind : IsOptionalBlank behind) :
    IsSuffix ('(' :: (before ++ s :: (behind ++ [')'])))

theorem isLetter_iff {s : Char} :
    (s == 's' || s == 'S' || s.toNat == 0x17F) = true ↔ s = 's' ∨ s = 'S' ∨ s = 'ſ' := by
  have hlong : s.toNat = 0x17F ↔ s = 'ſ' :=
    ⟨fun h ↦ by rw [← Char.ofNat_toNat s, h], fun h ↦ by rw [h]; rfl⟩
  simp only [Bool.or_eq_true, beq_iff_eq, hlong, or_assoc]

theorem exists_dropBlank (text : List Char) :
    ∃ blank, IsOptionalBlank blank ∧ text = blank ++ dropBlank text := by
  cases text with
  | nil => exact ⟨[], .inl rfl, rfl⟩
  | cons c rest =>
    rw [dropBlank]
    split
    · next hc => exact ⟨[c], .inr ⟨c, hc, rfl⟩, rfl⟩
    · exact ⟨[], .inl rfl, rfl⟩

theorem dropBlank_append (h : IsOptionalBlank blank) (hc : Text.isBlank c = false)
    (rest : List Char) : dropBlank (blank ++ c :: rest) = c :: rest := by
  rcases h with rfl | ⟨d, hd, rfl⟩
  · exact if_neg (Bool.eq_false_iff.1 hc)
  · exact if_pos hd

/-- What is dropped from the start of a text is a suffix. -/
theorem dropSuffix?_eq_some_iff :
    dropSuffix? text = some rest ↔ ∃ suffix, IsSuffix suffix ∧ text = suffix ++ rest := by
  constructor
  · intro h
    unfold dropSuffix? at h
    split at h
    · next inner =>
      obtain ⟨before, hbefore, hinner⟩ := exists_dropBlank inner
      split at h
      · next s later hs =>
        obtain ⟨behind, hbehind, hlater⟩ := exists_dropBlank later
        split at h
        · next hletter =>
          split at h
          · next last hlast =>
            cases h
            rw [hs] at hinner
            rw [hlast] at hlater
            exact ⟨_, .mk hbefore (isLetter_iff.1 hletter) hbehind, by rw [hinner, hlater]; simp⟩
          · cases h
        · cases h
      · cases h
    · cases h
  · rintro ⟨_, ⟨hbefore, hs, hbehind⟩, rfl⟩
    rename_i before behind s
    have hblank : Text.isBlank s = false := by
      rcases hs with rfl | rfl | rfl <;> decide
    have htext : '(' :: (before ++ s :: (behind ++ [')'])) ++ rest =
        '(' :: (before ++ s :: (behind ++ ')' :: rest)) := by simp
    rw [htext, dropSuffix?, dropBlank_append hbefore hblank]
    dsimp only
    rw [if_pos (isLetter_iff.2 hs), dropBlank_append hbehind (by decide)]
    rfl

theorem IsSuffix.dropSuffix? (h : IsSuffix suffix) (rest : List Char) :
    Plural.dropSuffix? (suffix ++ rest) = some rest :=
  dropSuffix?_eq_some_iff.2 ⟨suffix, h, rfl⟩

/-- A text begins with one suffix at most. -/
theorem eq_of_append_eq {next : List Char} (h : IsSuffix suffix) (hother : IsSuffix other)
    (hsame : suffix ++ rest = other ++ next) : suffix = other ∧ rest = next := by
  have hnext := hother.dropSuffix? next
  rw [← hsame, h.dropSuffix?] at hnext
  cases hnext
  exact ⟨List.append_cancel_right hsame, rfl⟩

/-- A suffix is parentheses with neither parentheses nor braces between them. -/
theorem IsSuffix.exists_eq (h : IsSuffix suffix) :
    ∃ inside, suffix = '(' :: (inside ++ [')']) ∧
      ∀ c ∈ inside, c ≠ '(' ∧ c ≠ ')' ∧ c ≠ '{' ∧ c ≠ '}' := by
  obtain ⟨hbefore, hs, hbehind⟩ := h
  rename_i before behind s
  refine ⟨before ++ s :: behind, by simp, fun c hc ↦ ?_⟩
  have hblank : ∀ {blank : List Char}, IsOptionalBlank blank → c ∈ blank →
      c ≠ '(' ∧ c ≠ ')' ∧ c ≠ '{' ∧ c ≠ '}' := by
    rintro blank (rfl | ⟨d, hd, rfl⟩) hc
    · cases hc
    · cases List.mem_singleton.1 hc
      refine ⟨?_, ?_, ?_, ?_⟩ <;> rintro rfl <;> exact absurd hd (by decide)
  rcases List.mem_append.1 hc with hc | hc
  · exact hblank hbefore hc
  rcases List.mem_cons.1 hc with rfl | hc
  · rcases hs with rfl | rfl | rfl <;> decide
  · exact hblank hbehind hc

/-- A character that can be part of neither a suffix nor the word before it. -/
def IsBrace (c : Char) : Prop :=
  c = '{' ∨ c = '}'

theorem IsSuffix.not_isBrace (h : IsSuffix suffix) (hc : c ∈ suffix) : ¬ IsBrace c := by
  obtain ⟨inside, rfl, hinside⟩ := h.exists_eq
  simp only [List.mem_cons, List.mem_append, List.not_mem_nil, or_false] at hc
  rintro (rfl | rfl)
  · rcases hc with hc | hc | hc
    · cases hc
    · exact (hinside _ hc).2.2.1 rfl
    · cases hc
  · rcases hc with hc | hc | hc
    · cases hc
    · exact (hinside _ hc).2.2.2 rfl
    · cases hc

def endsInWord (text : List Char) : Bool :=
  (text.getLast?.map Text.isWordCharacter).getD false

theorem endsInWord_concat (text : List Char) (c : Char) :
    endsInWord (text ++ [c]) = Text.isWordCharacter c := by
  rw [endsInWord, List.getLast?_concat]
  rfl

/-- The word that a suffix may follow, and blanks behind it. -/
structure IsItem (word blanks : List Char) : Prop where
  word : word.map Char.toLower = "item".toList
  blanks : ∀ c ∈ blanks, Text.isBlank c = true

/-- A text ends in the word that a suffix may follow. -/
def EndsInItem (earlier : List Char) : Prop :=
  ∃ front word blanks, earlier = front ++ (word ++ blanks) ∧ endsInWord front = false ∧
    IsItem word blanks

/-- What is dropped from the start of a text is the word, in capitals or not. -/
theorem dropWord?_eq_some_iff :
    dropWord? word text = some rest ↔ ∃ front, front.map Char.toLower = word ∧
      text = front ++ rest := by
  induction word generalizing text with
  | nil => simp [dropWord?, eq_comm]
  | cons w word ih =>
    cases text with
    | nil => simp [dropWord?]
    | cons c text =>
      rw [dropWord?]
      split
      · next hc =>
        rw [ih]
        constructor
        · rintro ⟨front, hfront, rfl⟩
          exact ⟨c :: front, by rw [List.map_cons, hc, hfront], rfl⟩
        · rintro ⟨front, hfront, htext⟩
          cases front with
          | nil => cases hfront
          | cons d front =>
            cases htext
            exact ⟨front, (List.cons.inj hfront).2, rfl⟩
      · next hc =>
        constructor
        · intro h
          cases h
        · rintro ⟨front, hfront, htext⟩
          cases front with
          | nil => cases hfront
          | cons d front =>
            cases htext
            exact absurd (List.cons.inj hfront).1 hc

/-- What is taken together at the start of a text is the word, blanks and a suffix behind them. -/
theorem dropItem?_eq_some_iff :
    dropItem? text = some rest ↔ ∃ word blanks suffix, IsItem word blanks ∧ IsSuffix suffix ∧
      text = word ++ (blanks ++ (suffix ++ rest)) := by
  unfold dropItem?
  rw [Option.bind_eq_some_iff]
  constructor
  · rintro ⟨behind, hbehind, hrest⟩
    obtain ⟨word, hword, rfl⟩ := dropWord?_eq_some_iff.1 hbehind
    obtain ⟨suffix, hsuffix, hdrop⟩ := dropSuffix?_eq_some_iff.1 hrest
    refine ⟨word, behind.takeWhile Text.isBlank, suffix,
      ⟨hword, fun c ↦ List.mem_takeWhile_imp⟩, hsuffix, ?_⟩
    rw [← hdrop, List.takeWhile_append_dropWhile]
  · rintro ⟨word, blanks, suffix, ⟨hword, hblanks⟩, hsuffix, rfl⟩
    refine ⟨_, dropWord?_eq_some_iff.2 ⟨word, hword, rfl⟩, ?_⟩
    obtain ⟨inside, rfl, -⟩ := hsuffix.exists_eq
    rw [List.dropWhile_append_of_pos hblanks, List.cons_append,
      List.dropWhile_cons_of_neg (by decide)]
    exact hsuffix.dropSuffix? rest

theorem IsItem.dropItem? {blanks : List Char} (h : IsItem word blanks) (hsuffix : IsSuffix suffix)
    (rest : List Char) : Plural.dropItem? (word ++ (blanks ++ (suffix ++ rest))) = some rest :=
  dropItem?_eq_some_iff.2 ⟨word, blanks, suffix, h, hsuffix, rfl⟩

theorem IsItem.not_mem {blanks : List Char} (h : IsItem word blanks) :
    ∀ c ∈ word ++ blanks, c ≠ '(' ∧ c ≠ ')' ∧ c ≠ '{' ∧ c ≠ '}' := by
  have hitem : ∀ c, c.toLower ∈ "item".toList → c ≠ '(' ∧ c ≠ ')' ∧ c ≠ '{' ∧ c ≠ '}' := by
    intro c hc
    refine ⟨?_, ?_, ?_, ?_⟩ <;> rintro rfl <;> exact absurd hc (by decide)
  intro c hc
  rcases List.mem_append.1 hc with hc | hc
  · exact hitem c (h.word ▸ List.mem_map_of_mem hc)
  · have hblank := h.blanks c hc
    refine ⟨?_, ?_, ?_, ?_⟩ <;> rintro rfl <;> exact absurd hblank (by decide)

theorem IsItem.not_isBrace {blanks : List Char} (h : IsItem word blanks)
    (hc : c ∈ word ++ blanks) : ¬ IsBrace c :=
  not_or.2 (h.not_mem c hc).2.2

theorem IsItem.ne_nil {blanks : List Char} (h : IsItem word blanks) : word ++ blanks ≠ [] := by
  intro hnil
  have hword := h.word
  rw [(List.append_eq_nil_iff.1 hnil).1] at hword
  cases hword

/-- What is left of a text behind an earlier one: suffixes are left out that do not follow the word,
and all characters stay where no such suffix begins. -/
inductive SuffixesRemoved : List Char → List Char → List Char → Prop
  | nil (earlier : List Char) : SuffixesRemoved earlier [] []
  | keep {earlier text result : List Char} {c : Char}
    (hkept : ∀ suffix rest, IsSuffix suffix → c :: text = suffix ++ rest → EndsInItem earlier)
    (tail : SuffixesRemoved (earlier ++ [c]) text result) :
    SuffixesRemoved earlier (c :: text) (c :: result)
  | remove {earlier suffix text result : List Char} (hsuffix : IsSuffix suffix)
    (hitem : ¬ EndsInItem earlier) (tail : SuffixesRemoved (earlier ++ suffix) text result) :
    SuffixesRemoved earlier (suffix ++ text) result

namespace SuffixesRemoved

/-- Only one text is left. -/
theorem unique (h : SuffixesRemoved earlier text result) (h' : SuffixesRemoved earlier text other) :
    result = other := by
  induction h generalizing other with
  | nil earlier =>
    generalize hnil : [] = text at h'
    cases h' with
    | nil => rfl
    | keep => cases hnil
    | remove hsuffix =>
      obtain ⟨inside, rfl, -⟩ := hsuffix.exists_eq
      cases hnil
  | @keep earlier text result c hkept _ ih =>
    generalize htext : c :: text = whole at h'
    cases h' with
    | nil => cases htext
    | keep _ tail =>
      cases htext
      rw [ih tail]
    | remove hsuffix hitem => exact absurd (hkept _ _ hsuffix htext) hitem
  | @remove earlier suffix text result hsuffix hitem _ ih =>
    generalize htext : suffix ++ text = whole at h'
    cases h' with
    | nil =>
      obtain ⟨inside, rfl, -⟩ := hsuffix.exists_eq
      cases htext
    | keep hkept => exact absurd (hkept _ _ hsuffix htext.symm) hitem
    | remove hsuffix' _ tail =>
      obtain ⟨rfl, rfl⟩ := eq_of_append_eq hsuffix hsuffix' htext
      exact ih tail

/-- Characters other than an opening parenthesis stay. -/
theorem keep_plain (h : '(' ∉ front) (tail : SuffixesRemoved (earlier ++ front) text result) :
    SuffixesRemoved earlier (front ++ text) (front ++ result) := by
  induction front generalizing earlier with
  | nil => simpa using tail
  | cons c front ih =>
    refine .keep (fun suffix rest hsuffix hsame ↦ ?_) (ih (List.not_mem_of_not_mem_cons h) ?_)
    · obtain ⟨inside, rfl, -⟩ := hsuffix.exists_eq
      exact absurd (List.cons.inj hsame).1.symm (List.ne_of_not_mem_cons h)
    · simpa using tail

/-- A suffix behind the word stays. -/
theorem keep_suffix (hsuffix : IsSuffix suffix) (hitem : EndsInItem earlier)
    (tail : SuffixesRemoved (earlier ++ suffix) text result) :
    SuffixesRemoved earlier (suffix ++ text) (suffix ++ result) := by
  obtain ⟨inside, rfl, hinside⟩ := hsuffix.exists_eq
  refine .keep (fun _ _ _ _ ↦ hitem) (keep_plain ?_ (by simpa using tail))
  intro hmem
  rcases List.mem_append.1 hmem with hmem | hmem
  · exact (hinside _ hmem).1 rfl
  · cases List.mem_singleton.1 hmem

theorem sameBraces (h : SuffixesRemoved earlier text result) : SameBraces result text := by
  induction h with
  | nil => exact .refl []
  | @keep _ text result c _ _ ih => exact (SameBraces.refl [c]).append ih
  | @remove _ suffix text result hsuffix _ _ ih =>
    have hbalanced : IsBalanced suffix := .of_forall_ne fun c hc ↦
      not_or.1 (hsuffix.not_isBrace hc)
    exact (IsBalanced.nil.sameBraces hbalanced).append ih

theorem sublist (h : SuffixesRemoved earlier text result) : result.Sublist text := by
  induction h with
  | nil => exact .refl []
  | @keep _ _ _ c _ _ ih => exact ih.cons_cons c
  | @remove _ suffix _ _ _ _ _ ih => exact ih.trans (List.sublist_append_right suffix _)

end SuffixesRemoved

theorem endsInWord_brace (hc : IsBrace c) (front text : List Char) :
    endsInWord (front ++ c :: text) = endsInWord text := by
  rcases List.eq_nil_or_concat' text with rfl | ⟨text, last, rfl⟩
  · rw [endsInWord_concat]
    rcases hc with rfl | rfl <;> decide
  · rw [← List.cons_append, ← List.append_assoc, endsInWord_concat, endsInWord_concat]

/-- What stands before a brace has no part in whether a text ends in the word. -/
theorem endsInItem_brace_iff (hc : IsBrace c) (front : List Char) :
    EndsInItem (front ++ c :: earlier) ↔ EndsInItem earlier := by
  constructor
  · rintro ⟨before, word, blanks, hsame, hbefore, hitem⟩
    rw [← List.singleton_append, ← List.append_assoc] at hsame
    rcases List.append_eq_append_iff.1 hsame with ⟨middle, rfl, hrest⟩ | ⟨middle, hmiddle, hrest⟩
    · rw [List.append_assoc, List.singleton_append, endsInWord_brace hc] at hbefore
      exact ⟨middle, word, blanks, hrest, hbefore, hitem⟩
    · rcases List.eq_nil_or_concat' middle with rfl | ⟨middle, last, rfl⟩
      · exact ⟨[], word, blanks, hrest.symm, rfl, hitem⟩
      · rw [← List.append_assoc] at hmiddle
        cases (List.append_inj' hmiddle rfl).2
        have hmem : c ∈ word ++ blanks := by
          rw [hrest]
          simp
        exact (hitem.not_isBrace hmem hc).elim
  · rintro ⟨before, word, blanks, rfl, hbefore, hitem⟩
    refine ⟨front ++ c :: before, word, blanks, by simp, ?_, hitem⟩
    rwa [endsInWord_brace hc]

namespace SuffixesRemoved

/-- What stands before a brace is of no concern to the text behind it. -/
theorem behind_brace (hc : IsBrace c) (front : List Char)
    (h : SuffixesRemoved earlier text result) :
    SuffixesRemoved (front ++ c :: earlier) text result := by
  induction h with
  | nil earlier => exact .nil _
  | keep hkept _ ih =>
    refine .keep (fun suffix rest hsuffix hsame ↦ ?_) (by simpa using ih)
    exact (endsInItem_brace_iff hc front).2 (hkept suffix rest hsuffix hsame)
  | remove hsuffix hitem _ ih =>
    exact .remove hsuffix (mt (endsInItem_brace_iff hc front).1 hitem) (by simpa using ih)

/-- The texts before and behind a brace are left as they would be left alone. -/
theorem append_brace (hc : IsBrace c) (h : SuffixesRemoved earlier text result)
    (hrest : SuffixesRemoved [] rest other) :
    SuffixesRemoved earlier (text ++ c :: rest) (result ++ c :: other) := by
  induction h with
  | nil earlier =>
    have hplain : '(' ∉ [c] := by
      rcases hc with rfl | rfl <;> decide
    change SuffixesRemoved earlier ([c] ++ rest) ([c] ++ other)
    exact keep_plain hplain (hrest.behind_brace hc earlier)
  | @keep earlier text result d hkept _ ih =>
    refine .keep (fun suffix next hsuffix hsame ↦ ?_) ih
    change (d :: text) ++ c :: rest = suffix ++ next at hsame
    rcases List.append_eq_append_iff.1 hsame with ⟨more, hmore, hbrace⟩ | ⟨more, hmore, -⟩
    · cases more with
      | nil => exact hkept suffix [] hsuffix (by simpa using hmore.symm)
      | cons e more =>
        obtain rfl : c = e := (List.cons.inj hbrace).1
        have hmem : c ∈ suffix := by
          rw [hmore]
          simp
        exact (hsuffix.not_isBrace hmem hc).elim
    · exact hkept suffix more hsuffix hmore
  | remove hsuffix hitem _ ih =>
    rw [List.append_assoc]
    exact .remove hsuffix hitem ih

end SuffixesRemoved

/-! ## The scan -/

/-- A text was scanned as far as the rest: no word in it could have been taken together with a
suffix, unless the scan was inside of a word, or in what was taken itself. -/
def Scanned (earlier rest : List Char) : Prop :=
  ∀ front middle, earlier = front ++ middle → middle ≠ [] → '(' ∉ middle →
    endsInWord front = false → dropItem? (middle ++ rest) = none

theorem scanned_nil (rest : List Char) : Scanned [] rest := by
  intro front middle hsame hne
  exact absurd (List.append_eq_nil_iff.1 hsame.symm).2 hne

/-- Behind a suffix a scan has nothing to remember. -/
theorem scanned_suffix (h : IsSuffix suffix) (earlier rest : List Char) :
    Scanned (earlier ++ suffix) rest := by
  intro front middle hsame hne hplain _
  obtain ⟨inside, rfl, -⟩ := h.exists_eq
  have hclose : ')' ∈ middle := by
    apply List.mem_of_getLast?
    rw [← List.getLast?_append_of_ne_nil front hne, ← hsame, ← List.cons_append,
      ← List.append_assoc, List.getLast?_concat]
  rw [Option.eq_none_iff_forall_ne_some]
  intro behind hitem
  obtain ⟨word, blanks, next, hword, hnext, htext⟩ := dropItem?_eq_some_iff.1 hitem
  obtain ⟨letter, rfl, -⟩ := hnext.exists_eq
  rw [← List.append_assoc] at htext
  rcases List.append_eq_append_iff.1 htext with ⟨more, hmore, -⟩ | ⟨more, hmore, hrest⟩
  · have hmem : ')' ∈ word ++ blanks := hmore ▸ List.mem_append_left more hclose
    exact (hword.not_mem _ hmem).2.1 rfl
  · cases more with
    | nil =>
      rw [List.append_nil] at hmore
      exact (hword.not_mem _ (hmore ▸ hclose)).2.1 rfl
    | cons d more =>
      obtain rfl : '(' = d := (List.cons.inj hrest).1
      exact hplain (hmore ▸ List.mem_append_right _ List.mem_cons_self)

/-- The scan goes on by a character, unless the word begins there together with a suffix. -/
theorem Scanned.concat (h : Scanned earlier (c :: rest))
    (hitem : endsInWord earlier = false → dropItem? (c :: rest) = none) :
    Scanned (earlier ++ [c]) rest := by
  intro front middle hsame hne hplain hfront
  obtain ⟨middle, d, rfl⟩ := (List.eq_nil_or_concat' middle).resolve_left hne
  rw [← List.append_assoc] at hsame
  obtain ⟨rfl, hlast⟩ := List.append_inj' hsame rfl
  cases hlast
  rw [List.append_assoc, List.singleton_append]
  by_cases hmiddle : middle = []
  · subst hmiddle
    rw [List.append_nil] at hitem
    exact hitem hfront
  · exact h front middle rfl hmiddle (fun hmem ↦ hplain (List.mem_append_left _ hmem)) hfront

theorem Scanned.not_endsInItem (h : Scanned earlier (suffix ++ rest)) (hsuffix : IsSuffix suffix) :
    ¬ EndsInItem earlier := by
  rintro ⟨front, word, blanks, rfl, hfront, hitem⟩
  have hplain : '(' ∉ word ++ blanks := fun hmem ↦ (hitem.not_mem _ hmem).1 rfl
  have hnone := h front (word ++ blanks) rfl hitem.ne_nil hplain hfront
  rw [List.append_assoc, hitem.dropItem? hsuffix] at hnone
  cases hnone

theorem IsSuffix.endsInWord (h : IsSuffix suffix) (earlier : List Char) :
    Plural.endsInWord (earlier ++ suffix) = false := by
  obtain ⟨inside, rfl, -⟩ := h.exists_eq
  rw [← List.cons_append, ← List.append_assoc, endsInWord_concat]
  decide

/-- There is less room needed behind a suffix. -/
theorem IsSuffix.length_le (h : IsSuffix suffix)
    (hlong : suffix.length + rest.length ≤ text.length) (hroom : text.length ≤ room + 1) :
    rest.length ≤ room := by
  obtain ⟨inside, rfl, -⟩ := h.exists_eq
  rw [List.length_cons] at hlong
  omega

/-- The scan leaves what is left when the suffixes are removed. -/
theorem suffixesRemoved_stripSuffixes (hroom : text.length ≤ room)
    (hscanned : Scanned earlier text) :
    SuffixesRemoved earlier text (stripSuffixes room (endsInWord earlier) text) := by
  induction room generalizing text earlier with
  | zero =>
    obtain rfl := List.length_eq_zero_iff.1 (Nat.le_zero.1 hroom)
    exact .nil earlier
  | succ room ih =>
    cases text with
    | nil => exact .nil earlier
    | cons c rest =>
      rw [stripSuffixes]
      split
      · next behind hitem =>
        have hinWord : endsInWord earlier = false := by
          by_contra hin
          rw [Bool.not_eq_false] at hin
          rw [hin, if_pos rfl] at hitem
          cases hitem
        rw [hinWord, if_neg Bool.false_ne_true] at hitem
        obtain ⟨word, blanks, suffix, hword, hsuffix, htext⟩ := dropItem?_eq_some_iff.1 hitem
        have hplain : '(' ∉ word ++ blanks := fun hmem ↦ (hword.not_mem _ hmem).1 rfl
        have hlong : suffix.length + behind.length ≤ (c :: rest).length := by
          rw [htext]
          simp only [List.length_append]
          omega
        have htaken : (c :: rest).take ((c :: rest).length - behind.length) =
            word ++ blanks ++ suffix := by
          have hsplit : c :: rest = word ++ blanks ++ suffix ++ behind := by
            rw [htext]
            simp only [List.append_assoc]
          rw [hsplit, List.length_append, Nat.add_sub_cancel, List.take_left]
        rw [htaken, htext, ← List.append_assoc word, List.append_assoc (word ++ blanks)]
        refine .keep_plain hplain (.keep_suffix hsuffix ?_ ?_)
        · exact ⟨earlier, word, blanks, rfl, hinWord, hword⟩
        · rw [← hsuffix.endsInWord (earlier ++ (word ++ blanks))]
          exact ih (hsuffix.length_le hlong hroom) (scanned_suffix hsuffix _ behind)
      · next hitem =>
        split
        · next behind hdrop =>
          obtain ⟨suffix, hsuffix, htext⟩ := dropSuffix?_eq_some_iff.1 hdrop
          rw [htext] at hscanned ⊢
          refine .remove hsuffix (hscanned.not_endsInItem hsuffix) ?_
          rw [← hsuffix.endsInWord earlier]
          have hlong : suffix.length + behind.length ≤ (c :: rest).length := by
            rw [htext, List.length_append]
          exact ih (hsuffix.length_le hlong hroom) (scanned_suffix hsuffix earlier behind)
        · next hdrop =>
          refine .keep (fun suffix next hsuffix hsame ↦ ?_) ?_
          · rw [hsame, hsuffix.dropSuffix?] at hdrop
            cases hdrop
          · rw [← endsInWord_concat earlier]
            refine ih (Nat.le_of_succ_le_succ hroom) (hscanned.concat fun hfalse ↦ ?_)
            rwa [hfalse, if_neg Bool.false_ne_true] at hitem

/-- A text without its suffixes, except those behind the word. -/
def withoutSuffixes (text : String) : String :=
  String.ofList (stripSuffixes text.toList.length false text.toList)

theorem suffixesRemoved_withoutSuffixes (text : String) :
    SuffixesRemoved [] text.toList (withoutSuffixes text).toList := by
  rw [withoutSuffixes, String.toList_ofList]
  exact suffixesRemoved_stripSuffixes (Nat.le_refl _) (scanned_nil _)

/-- What is left of a text is settled by the rule for its suffixes. -/
theorem withoutSuffixes_eq {text left : String}
    (h : SuffixesRemoved [] text.toList left.toList) : withoutSuffixes text = left :=
  String.toList_inj.1 ((suffixesRemoved_withoutSuffixes text).unique h)

end Phrasebook.Plural
