import Phrasebook.Proofs.Plural.Found

/-!
# Finding a plural expression again

The search for an expression looks at what stands between two braces only after it has found that
they belong together. So it makes no difference to the braces before an expression what stands
between the braces of the expression, as long as it is balanced: where nothing could be read before,
nothing can be read after. An expression that is found is therefore the first one also in the text
in which its canonical form takes its place.
-/

namespace Phrasebook.Plural

variable {first second text front inside before behind : List Char} {depth : Nat} {c : Char}
variable {branches : List Branch} {plural : Plural}

/-- Two texts that are the same but for what stands between some braces that belong together. -/
inductive SameOutside : List Char → List Char → Prop
  | nil : SameOutside [] []
  | cons (c : Char) {first second : List Char} (tail : SameOutside first second) :
    SameOutside (c :: first) (c :: second)
  | braces {inside other first second : List Char} (hinside : IsBalanced inside)
    (hother : IsBalanced other) (tail : SameOutside first second) :
    SameOutside ('{' :: (inside ++ '}' :: first)) ('{' :: (other ++ '}' :: second))

namespace SameOutside

theorem refl (text : List Char) : SameOutside text text := by
  induction text with
  | nil => exact nil
  | cons c text ih => exact ih.cons c

theorem symm (h : SameOutside first second) : SameOutside second first := by
  induction h with
  | nil => exact nil
  | cons c _ ih => exact ih.cons c
  | braces hinside hother _ ih => exact .braces hother hinside ih

theorem append_left (front : List Char) (h : SameOutside first second) :
    SameOutside (front ++ first) (front ++ second) := by
  induction front with
  | nil => exact h
  | cons c front ih => exact ih.cons c

theorem exists_of_cons (h : SameOutside (c :: first) text) (hc : c ≠ '{') :
    ∃ second, text = c :: second ∧ SameOutside first second := by
  generalize hwhole : c :: first = whole at h
  cases h with
  | nil => cases hwhole
  | cons d tail =>
    cases hwhole
    exact ⟨_, rfl, tail⟩
  | braces => exact absurd (List.cons.inj hwhole).1 hc

/-- What stands before the first brace is the same. -/
theorem exists_of_append_cons (h : SameOutside (front ++ c :: first) text) (hfront : '{' ∉ front)
    (hc : c ≠ '{') : ∃ second, text = front ++ c :: second ∧ SameOutside first second := by
  induction front generalizing text with
  | nil => exact h.exists_of_cons hc
  | cons d front ih =>
    have hd : d ≠ '{' := Ne.symm (List.ne_of_not_mem_cons hfront)
    obtain ⟨again, rfl, hagain⟩ := h.exists_of_cons hd
    obtain ⟨second, rfl, hsecond⟩ := ih hagain (List.not_mem_of_not_mem_cons hfront)
    exact ⟨second, rfl, hsecond⟩

/-- Characters are taken up to the same place by a rule that stops at a brace. -/
theorem takeWhile_dropWhile {p : Char → Bool} (hp : p '{' = false) (h : SameOutside first second) :
    first.takeWhile p = second.takeWhile p ∧
      SameOutside (first.dropWhile p) (second.dropWhile p) := by
  have hstop : ¬ p '{' = true := Bool.eq_false_iff.1 hp
  induction h with
  | nil => exact ⟨rfl, nil⟩
  | cons c tail ih =>
    obtain ⟨htake, hdrop⟩ := ih
    cases hc : p c with
    | true =>
      rw [List.takeWhile_cons_of_pos hc, List.takeWhile_cons_of_pos hc,
        List.dropWhile_cons_of_pos hc, List.dropWhile_cons_of_pos hc]
      exact ⟨congrArg (c :: ·) htake, hdrop⟩
    | false =>
      have hends : ¬ p c = true := Bool.eq_false_iff.1 hc
      rw [List.takeWhile_cons_of_neg hends, List.takeWhile_cons_of_neg hends,
        List.dropWhile_cons_of_neg hends, List.dropWhile_cons_of_neg hends]
      exact ⟨rfl, tail.cons c⟩
  | braces hinside hother tail _ =>
    rw [List.takeWhile_cons_of_neg hstop, List.takeWhile_cons_of_neg hstop,
      List.dropWhile_cons_of_neg hstop, List.dropWhile_cons_of_neg hstop]
    exact ⟨rfl, .braces hinside hother tail⟩

theorem isEmpty (h : SameOutside first second) : first.isEmpty = second.isEmpty := by
  cases h <;> rfl

end SameOutside

/-- A pair of braces is passed over in the search for the brace that closes those around it. -/
theorem closeBrace?_braces (h : IsBalanced inside) (depth : Nat) (rest : List Char) :
    closeBrace? depth ('{' :: (inside ++ '}' :: rest)) =
      (closeBrace? depth rest).map fun found ↦ ('{' :: (inside ++ '}' :: found.1), found.2) := by
  rw [closeBrace?, closeBrace?_append (h.openAfter? (depth + 1)), closeBrace?, Option.map_map,
    Option.map_map]
  rfl

/-- A brace is closed at the same place, and the texts before and behind it are the same but for
what stands between braces. -/
theorem SameOutside.closeBrace? (h : SameOutside first second)
    (hclosed : closeBrace? depth first = some (inside, behind)) :
    ∃ other later, Plural.closeBrace? depth second = some (other, later) ∧
      SameOutside inside other ∧ SameOutside behind later := by
  induction h generalizing depth inside behind with
  | nil => cases hclosed
  | cons c tail ih =>
    rename_i rest again
    -- One character, in front of what is closed in the rest at some other depth.
    have hstep : ∀ next, Plural.closeBrace? depth (c :: rest) =
          (Plural.closeBrace? next rest).map (fun found ↦ (c :: found.1, found.2)) →
        Plural.closeBrace? depth (c :: again) =
          (Plural.closeBrace? next again).map (fun found ↦ (c :: found.1, found.2)) →
        ∃ other later, Plural.closeBrace? depth (c :: again) = some (other, later) ∧
          SameOutside inside other ∧ SameOutside behind later := by
      intro next hfirst hsecond
      rw [hfirst] at hclosed
      obtain ⟨⟨before, after⟩, hrest, hsame⟩ := Option.map_eq_some_iff.1 hclosed
      cases hsame
      obtain ⟨other, later, hother, hbefore, hafter⟩ := ih hrest
      exact ⟨c :: other, later, by rw [hsecond, hother]; rfl, hbefore.cons c, hafter⟩
    by_cases hopen : c = '{'
    · subst hopen
      exact hstep (depth + 1) rfl rfl
    by_cases hclose : c = '}'
    · subst hclose
      cases depth with
      | zero =>
        cases hclosed
        exact ⟨[], _, rfl, .nil, tail⟩
      | succ depth => exact hstep depth rfl rfl
    · have hplain : ∀ text, Plural.closeBrace? depth (c :: text) =
          (Plural.closeBrace? depth text).map fun found ↦ (c :: found.1, found.2) := fun text ↦
        Plural.closeBrace?.eq_5 _ _ _ hopen (fun _ ↦ hclose) (fun _ _ ↦ hclose)
      exact hstep depth (hplain rest) (hplain again)
  | braces hinside hother tail ih =>
    rw [closeBrace?_braces hinside] at hclosed
    obtain ⟨⟨before, after⟩, hrest, hsame⟩ := Option.map_eq_some_iff.1 hclosed
    cases hsame
    obtain ⟨other, later, hlater, hbefore, hafter⟩ := ih hrest
    rw [closeBrace?_braces hother, hlater]
    exact ⟨_, later, rfl, .braces hinside hother hbefore, hafter⟩

/-- A brace that is closed is closed in the other text as well, and the texts behind are the same
but for what stands between braces. -/
theorem SameOutside.exists_opened (h : SameOutside ('{' :: first) text)
    (hclosed : Plural.closeBrace? 0 first = some (inside, behind)) :
    ∃ second other later, text = '{' :: second ∧
      Plural.closeBrace? 0 second = some (other, later) ∧ SameOutside behind later := by
  generalize hwhole : '{' :: first = whole at h
  cases h with
  | nil => cases hwhole
  | cons c tail =>
    cases hwhole
    obtain ⟨other, later, hother, -, hlater⟩ := tail.closeBrace? hclosed
    exact ⟨_, other, later, rfl, hother, hlater⟩
  | braces hinside hother tail =>
    cases hwhole
    rw [closeBrace?_of_isBalanced hinside] at hclosed
    cases hclosed
    exact ⟨_, _, _, rfl, closeBrace?_of_isBalanced hother _, tail⟩

/-- As many branches can be read. -/
theorem SameOutside.branches? (h : SameOutside first second)
    (hbranches : Plural.branches? first = some branches) :
    ∃ others, Plural.branches? second = some others ∧ others.length = branches.length := by
  fun_induction Plural.branches? first generalizing second branches with
  | case1 text trimmed =>
    rename_i hempty
    cases hbranches
    have hsecond : (second.dropWhile Text.isBlank).isEmpty = true := by
      rw [← (h.takeWhile_dropWhile (by decide)).2.isEmpty]
      exact hempty
    refine ⟨[], ?_, rfl⟩
    rw [Plural.branches?]
    simp only [hsecond, if_true]
  | case2 => cases hbranches
  | case3 text trimmed hany selector opened hopened haccepted body rest hclosed =>
    rename_i ih
    obtain ⟨later, hlater, rfl⟩ := Option.map_eq_some_iff.1 hbranches
    have htrimmed := (h.takeWhile_dropWhile (p := Text.isBlank) (by decide)).2
    obtain ⟨hselector, hbehind⟩ :=
      htrimmed.takeWhile_dropWhile (p := fun c ↦ !endsSelector c) (by decide)
    have hgap := (hbehind.takeWhile_dropWhile (p := Text.isBlank) (by decide)).2
    rw [hopened] at hgap
    obtain ⟨again, other, others, hagain, hother, hothers⟩ := hgap.exists_opened hclosed
    obtain ⟨found, hfound, hlength⟩ := ih hothers hlater
    have hany' : (second.dropWhile Text.isBlank).isEmpty = false :=
      htrimmed.isEmpty.symm.trans (Bool.eq_false_iff.2 hany)
    have haccepted' :
        ((selectorOf second).isEmpty || (selectorOf second).contains '}') = false := by
      rw [selectorOf, ← hselector]
      exact Bool.eq_false_iff.2 haccepted
    have hread := branches?_of_closeBrace? hany' hagain haccepted' hother
    rw [hfound, Option.map_some] at hread
    exact ⟨_, hread, congrArg (· + 1) hlength⟩
  | case4 => cases hbranches
  | case5 => cases hbranches

/-- An expression can be read from one of two texts if it can be read from the other. -/
theorem SameOutside.exists_ofBody? (h : SameOutside first second)
    (hfirst : Plural.ofBody? first = some plural) :
    ∃ other, Plural.ofBody? second = some other := by
  obtain ⟨argument, kind, rest, rfl, hcomma, hcomma', hword, hword', -, -, hbranches, hfilled⟩ :=
    ofBody?_eq_some_iff.1 hfirst
  obtain ⟨middle, rfl, hmiddle⟩ :=
    h.exists_of_append_cons (not_mem_of_isWord_trimChars hword) (by decide)
  obtain ⟨later, rfl, hlater⟩ :=
    hmiddle.exists_of_append_cons (not_mem_of_isWord_trimChars hword') (by decide)
  obtain ⟨others, hothers, hlength⟩ := hlater.branches? hbranches
  have hsome : others ≠ [] := by
    rw [← List.length_pos_iff, hlength]
    exact List.length_pos_iff.2 hfilled
  exact ⟨⟨_, _, others⟩, ofBody?_eq_some_iff.2
    ⟨argument, kind, later, rfl, hcomma, hcomma', hword, hword', rfl, rfl, hothers, hsome⟩⟩

/-- A brace that opens no expression opens none after the text between other braces has changed. -/
theorem SameOutside.opened?_eq_none (h : SameOutside first second)
    (hnone : opened? first = none) : opened? second = none := by
  rw [Option.eq_none_iff_forall_ne_some] at hnone ⊢
  rintro ⟨plural, behind⟩ hopened
  obtain ⟨inside, rfl, hbalanced, hbody⟩ := opened?_eq_some_iff.1 hopened
  obtain ⟨other, later, hother, hinside, -⟩ :=
    h.symm.closeBrace? (closeBrace?_of_isBalanced hbalanced behind)
  obtain ⟨found, hfound⟩ := hinside.exists_ofBody? hbody
  obtain ⟨rfl, hclosed⟩ := eq_of_closeBrace? hother
  exact hnone (found, later) (opened?_eq_some_iff.2 ⟨other, rfl, hclosed, hfound⟩)

/-- The canonical form of an expression can take its place: the same expression is found again. -/
theorem FirstIn.render (h : FirstIn text before plural behind) :
    FirstIn (before ++ '{' :: (plural.renderBody ++ '}' :: behind)) before plural behind := by
  obtain ⟨⟨inside, rfl, hinside, hbody⟩, hearlier⟩ := h
  have hcanonical := isCanonical_of_ofBody? hbody
  refine ⟨⟨_, rfl, hcanonical.isBalanced, hcanonical.ofBody?⟩,
    fun {front later} hsame hshort ↦ ?_⟩
  obtain ⟨middle, rfl, hlater⟩ : ∃ middle, before = front ++ '{' :: middle ∧
      later = middle ++ '{' :: (plural.renderBody ++ '}' :: behind) := by
    rcases List.append_eq_append_iff.1 hsame with ⟨middle, rfl, -⟩ | ⟨middle, rfl, hmiddle⟩
    · rw [List.length_append] at hshort
      omega
    · cases middle with
      | nil =>
        rw [List.append_nil] at hshort
        exact absurd hshort (Nat.lt_irrefl _)
      | cons c middle =>
        cases hmiddle
        exact ⟨middle, rfl, rfl⟩
  have hnone : opened? (middle ++ '{' :: (inside ++ '}' :: behind)) = none :=
    hearlier (by rw [List.append_assoc, List.cons_append]) hshort
  rw [hlater]
  exact SameOutside.opened?_eq_none
    (.append_left middle (.braces hinside hcanonical.isBalanced (.refl behind))) hnone

/-- The search finds the first expression of a text. What it finds is in order, and found again,
with the same text before and after it, where its canonical form takes its place. -/
theorem find?_reprinted (text : String) (located : Located) :
    (find? text = some located ↔
      FirstIn text.toList located.before.toList located.plural located.after.toList) ∧
    (find? text = some located → located.plural.IsCanonical ∧
      find? (located.before ++ located.plural.render ++ located.after) = some located) := by
  refine ⟨find?_eq_some_iff, fun h ↦ ?_⟩
  have hfirst := find?_eq_some_iff.1 h
  obtain ⟨inside, -, -, hbody⟩ := hfirst.encloses
  refine ⟨isCanonical_of_ofBody? hbody, find?_eq_some_iff.2 ?_⟩
  rw [toList_append_render_append]
  exact hfirst.render

/-- An expression between unusual blanks, within braces that cannot be read as an expression. -/
def spacedText : String :=
  "\x7bsee, it, is \x7b\x7bn ,plural , one\x7ba\x7dother  \x7b\x7bb\x7d\x7d \x7d\x7d end\x7d"

def spacedItems : Located where
  before := "\x7bsee, it, is \x7b"
  plural := ⟨"n", "plural", [⟨"one", "a"⟩, ⟨"other", "\x7bb\x7d"⟩]⟩
  after := "\x7d end\x7d"

theorem find?_reprinted_spacedItems :
    find? spacedText = some spacedItems ∧
      find? (spacedItems.before ++ spacedItems.plural.render ++ spacedItems.after) =
        some spacedItems := by
  have hfound : find? spacedText = some spacedItems := by decide +kernel
  exact ⟨hfound, ((find?_reprinted spacedText spacedItems).2 hfound).2⟩

end Phrasebook.Plural
