import Mathlib.Data.List.Infix
import Mathlib.Data.List.TakeWhile
import Phrasebook.Lookup
import Phrasebook.Proofs.Text.Blank
import Phrasebook.Rule

/-!
# Filling a template

A template is filled piece by piece: what is written stays, a placeholder is replaced, and no
placeholder reaches from one piece into the next when the next one starts with two opening braces
or holds blanks only. So the text between two placeholders, and the blanks at the edges, can be
looked at on their own.
-/

namespace Phrasebook.Lookup

variable {arguments : List Argument} {text tail rest after lead trail : List Char} {name : String}
variable {c : Char}

theorem continuesName_eq_false_of_isBlank (h : Text.isBlank c = true) :
    continuesName c = false := by
  have hall : ∀ code ∈ Text.blankCodes, continuesName (Char.ofNat code) = false := by decide
  have hname := hall c.toNat (Text.toNat_mem_blankCodes h)
  rwa [Char.ofNat_toNat] at hname

theorem isBlank_eq_false_of_continuesName (h : continuesName c = true) :
    Text.isBlank c = false := by
  by_contra hblank
  rw [Bool.not_eq_false] at hblank
  rw [continuesName_eq_false_of_isBlank hblank] at h
  cases h

/-- A name that a placeholder may hold. -/
def IsName (name : String) : Prop :=
  ∃ first others, name.toList = first :: others ∧ startsName first = true ∧
    ∀ c ∈ others, continuesName c = true

theorem IsName.forall_continuesName (h : IsName name) :
    ∀ c ∈ name.toList, continuesName c = true := by
  obtain ⟨first, others, hname, hfirst, hothers⟩ := h
  intro c hc
  rw [hname] at hc
  rcases List.mem_cons.1 hc with rfl | hmem
  · exact Bool.or_eq_true_iff.2 (.inl hfirst)
  · exact hothers c hmem

/-! ## Placeholders -/

def closed? : List Char → Option (List Char)
  | '}' :: '}' :: after => some after
  | _ => none

def leadingName? (text : List Char) : Option (String × List Char) :=
  if (text.takeWhile continuesName).head?.any startsName then
    some (String.ofList (text.takeWhile continuesName), text.dropWhile continuesName)
  else none

/-- Behind two braces a placeholder is a name between blanks, and two closing braces. -/
theorem placeholder?_braces (rest : List Char) :
    placeholder? ('{' :: '{' :: rest) =
      (leadingName? (rest.dropWhile Text.isBlank)).bind fun found ↦
        (closed? (found.2.dropWhile Text.isBlank)).map fun after ↦ (found.1, after) := by
  rw [placeholder?]
  generalize rest.dropWhile Text.isBlank = inner
  unfold leadingName?
  cases inner.takeWhile continuesName with
  | nil => rfl
  | cons first others =>
    rw [List.head?_cons, Option.any_some]
    split
    · next hname hafter =>
      cases hname
      split
      · rw [Option.bind_some, hafter]
        rfl
      · rfl
    · next hother =>
      split
      · rw [Option.bind_some]
        unfold closed?
        split
        · next after hafter => exact absurd hafter (hother first others after rfl)
        · rfl
      · rfl

theorem placeholder?_eq_none (h : ∀ rest, text ≠ '{' :: '{' :: rest) :
    placeholder? text = none := by
  unfold placeholder?
  split
  · next rest => exact absurd rfl (h rest)
  · rfl

theorem placeholder?_cons_eq_none (h : c ≠ '{') (rest : List Char) :
    placeholder? (c :: rest) = none :=
  placeholder?_eq_none fun _ hsame ↦ h (List.cons.inj hsame).1

/-- Behind a placeholder stands an end of the text. -/
theorem suffix_of_placeholder? (h : placeholder? text = some (name, after)) : after <:+ text := by
  unfold placeholder? at h
  split at h
  · next rest =>
    dsimp only at h
    split at h
    · next hafter =>
      split at h
      · cases h
        have hclosing : after <:+ ((rest.dropWhile Text.isBlank).dropWhile continuesName).dropWhile
            Text.isBlank := by
          rw [hafter]
          exact List.suffix_append ['}', '}'] after
        calc
          after <:+
            ((rest.dropWhile Text.isBlank).dropWhile continuesName).dropWhile Text.isBlank :=
            hclosing
          _ <:+ (rest.dropWhile Text.isBlank).dropWhile continuesName := List.dropWhile_suffix _
          _ <:+ rest.dropWhile Text.isBlank := List.dropWhile_suffix _
          _ <:+ rest := List.dropWhile_suffix _
          _ <:+ '{' :: '{' :: rest := List.suffix_append ['{', '{'] rest
      · cases h
    · cases h
  · cases h

/-! ## Texts that no placeholder reaches into -/

/-- A text into which no placeholder that begins before it reaches. -/
structure Detached (tail : List Char) : Prop where
  head : ∀ c ∈ tail.head?, continuesName c = false
  inner : ∀ c ∈ (tail.dropWhile Text.isBlank).head?, continuesName c = false ∧ c ≠ '}'
  /-- One brace before it does not open a placeholder. -/
  braces : ∀ rest, tail = '{' :: rest → rest.head? = some '{'

theorem takeWhile_append_of_head {p : Char → Bool} (h : ∀ c ∈ tail.head?, p c = false)
    (text : List Char) :
    (text ++ tail).takeWhile p = text.takeWhile p ∧
      (text ++ tail).dropWhile p = text.dropWhile p ++ tail := by
  induction text with
  | nil =>
    cases tail with
    | nil => exact ⟨rfl, rfl⟩
    | cons c tail =>
      have hc := h c rfl
      simp [hc]
  | cons d text ih =>
    cases hd : p d with
    | true => simp [hd, ih]
    | false => simp [hd]

theorem leadingName?_append (h : ∀ c ∈ tail.head?, continuesName c = false) (text : List Char) :
    leadingName? (text ++ tail) =
      (leadingName? text).map fun found ↦ (found.1, found.2 ++ tail) := by
  obtain ⟨htake, hdrop⟩ := takeWhile_append_of_head h text
  unfold leadingName?
  rw [htake, hdrop]
  split <;> rfl

theorem closed?_append (h : ∀ c ∈ tail.head?, c ≠ '}') (hne : text ≠ []) :
    closed? (text ++ tail) = (closed? text).map (· ++ tail) := by
  match text, hne with
  | [c], _ =>
    have hleft : closed? [c] = none := by
      unfold closed?
      split
      · next hsame => cases hsame
      · rfl
    rw [hleft]
    unfold closed?
    split
    · next after hsame =>
      have hbrace : tail = '}' :: after := (List.cons.inj hsame).2
      rw [hbrace] at h
      exact absurd rfl (h '}' rfl)
    · rfl
  | c :: d :: rest, _ =>
    rw [List.cons_append, List.cons_append]
    unfold closed?
    split
    · next hsame =>
      cases hsame
      rfl
    · next hother =>
      split
      · next hsame =>
        cases hsame
        exact absurd rfl (hother _)
      · rfl

namespace Detached

theorem leadingName? (h : Detached tail) (text : List Char) :
    Lookup.leadingName? ((text ++ tail).dropWhile Text.isBlank) =
      (Lookup.leadingName? (text.dropWhile Text.isBlank)).map fun found ↦
        (found.1, found.2 ++ tail) := by
  rw [List.dropWhile_append]
  split
  · next hempty =>
    have hnone := leadingName?_append (fun c hc ↦ (h.inner c hc).1) []
    rw [List.isEmpty_iff.1 hempty]
    exact hnone
  · exact leadingName?_append h.head _

theorem closed? (h : Detached tail) (text : List Char) :
    Lookup.closed? ((text ++ tail).dropWhile Text.isBlank) =
      (Lookup.closed? (text.dropWhile Text.isBlank)).map (· ++ tail) := by
  rw [List.dropWhile_append]
  split
  · next hempty =>
    rw [List.isEmpty_iff.1 hempty]
    unfold Lookup.closed?
    split
    · next after hsame =>
      have hbrace := (h.inner '}' (by rw [hsame]; rfl)).2
      exact absurd rfl hbrace
    · rfl
  · next hfilled =>
    refine closed?_append (fun c hc ↦ ?_) (fun hnil ↦ hfilled (List.isEmpty_iff.2 hnil))
    rintro rfl
    cases tail with
    | nil => cases hc
    | cons d rest =>
      cases hc
      exact (h.inner '}' rfl).2 rfl

/-- A placeholder ends before a detached text. -/
theorem placeholder? (h : Detached tail) (hne : text ≠ []) :
    Lookup.placeholder? (text ++ tail) =
      (Lookup.placeholder? text).map fun found ↦ (found.1, found.2 ++ tail) := by
  match text, hne with
  | [c], _ =>
    -- A single brace in front of the text could open a placeholder together with its first brace.
    have hleft : Lookup.placeholder? [c] = none :=
      placeholder?_eq_none fun rest hsame ↦ by cases hsame
    rw [hleft, List.singleton_append, Option.map_none]
    by_cases hc : c = '{'
    · subst hc
      by_cases hbrace : ∃ rest, tail = '{' :: rest
      · obtain ⟨rest, rfl⟩ := hbrace
        have hhead := h.braces rest rfl
        cases rest with
        | nil => cases hhead
        | cons d rest =>
          cases hhead
          rfl
      · refine placeholder?_eq_none fun rest hsame ↦ hbrace ⟨rest, (List.cons.inj hsame).2⟩
    · exact placeholder?_cons_eq_none hc tail
  | c :: d :: rest, _ =>
    by_cases hbraces : c = '{' ∧ d = '{'
    · obtain ⟨rfl, rfl⟩ := hbraces
      rw [List.cons_append, List.cons_append, placeholder?_braces, placeholder?_braces,
        h.leadingName?]
      cases Lookup.leadingName? (rest.dropWhile Text.isBlank) with
      | none => rfl
      | some found =>
        rw [Option.map_some, Option.bind_some, Option.bind_some, h.closed?, Option.map_map,
          Option.map_map]
        rfl
    · rw [placeholder?_eq_none, placeholder?_eq_none, Option.map_none]
      · rintro other hsame
        cases hsame
        exact hbraces ⟨rfl, rfl⟩
      · rintro other hsame
        cases hsame
        exact hbraces ⟨rfl, rfl⟩

/-- No placeholder that begins before two opening braces reaches into them. -/
theorem of_braces (rest : List Char) : Detached ('{' :: '{' :: rest) where
  head := by
    rintro c hc
    cases hc
    decide
  inner := by
    rintro c hc
    cases hc
    decide
  braces := by
    rintro other hsame
    cases hsame
    rfl

theorem of_blanks (h : ∀ c ∈ tail, Text.isBlank c = true) : Detached tail where
  head c hc := continuesName_eq_false_of_isBlank (h c (List.mem_of_mem_head? hc))
  inner c hc := by
    rw [List.dropWhile_eq_nil_iff.2 h] at hc
    cases hc
  braces rest hsame := by
    have hblank := h '{' (by rw [hsame]; exact List.mem_cons_self)
    exact absurd hblank (by decide)

end Detached

theorem fill_nil (arguments : List Argument) : fill arguments [] = [] := by
  unfold fill
  split
  · next h =>
    have hshorter := length_after_placeholder h
    cases hshorter
  · rfl

theorem fill_cons (h : placeholder? (c :: rest) = none) :
    fill arguments (c :: rest) = c :: fill arguments rest := by
  rw [fill]
  split
  · next hsome =>
    rw [h] at hsome
    cases hsome
  · rfl

/-- The text that takes the place of a placeholder with a name. -/
def replaced (arguments : List Argument) (name : String) (written : List Char) : List Char :=
  ((argument? arguments name).map fun value ↦ value.render.toList).getD written

/-- A placeholder at the start of a text is replaced, and the text behind it is filled by itself. -/
theorem fill_placeholder (h : placeholder? text = some (name, after)) :
    fill arguments text =
      replaced arguments name (text.take (text.length - after.length)) ++ fill arguments after := by
  rw [fill]
  split
  · next hsome =>
    rw [h] at hsome
    cases hsome
    rfl
  · next hnone =>
    rw [h] at hnone
    cases hnone

/-- A text before a detached one is filled as if nothing followed. -/
theorem fill_append (h : Detached tail) (arguments : List Argument) (text : List Char) :
    fill arguments (text ++ tail) = fill arguments text ++ fill arguments tail := by
  -- The placeholders of the longer text up to `tail` are those of the shorter one, so both are
  -- filled by the same steps.
  induction text using fill.induct with
  | case1 text name after hfound hshorter ih =>
    have hne : text ≠ [] := by
      rintro rfl
      cases hshorter
    have happend := h.placeholder? hne
    rw [hfound, Option.map_some] at happend
    have hwritten : (text ++ tail).take ((text ++ tail).length - (after ++ tail).length) =
        text.take (text.length - after.length) := by
      rw [List.length_append, List.length_append, Nat.add_sub_add_right]
      exact List.take_append_of_le_length (Nat.sub_le ..)
    rw [fill_placeholder happend, fill_placeholder hfound, hwritten, ih, List.append_assoc]
  | case2 => rw [fill_nil, List.nil_append, List.nil_append]
  | case3 c rest hfound ih =>
    have happend := h.placeholder? (List.cons_ne_nil c rest)
    rw [hfound, Option.map_none, List.cons_append] at happend
    rw [List.cons_append, fill_cons happend, fill_cons hfound, ih, List.cons_append]

def placeholderNames (text : List Char) : List String :=
  text.tails.filterMap fun rest ↦ (placeholder? rest).map Prod.fst

/-- The names of the placeholders in a text are those with which one begins somewhere in it. -/
theorem mem_placeholderNames :
    name ∈ placeholderNames text ↔
      ∃ rest after, rest <:+ text ∧ placeholder? rest = some (name, after) := by
  unfold placeholderNames
  simp only [List.mem_filterMap, List.mem_tails, Option.map_eq_some_iff, Prod.exists,
    exists_and_right, exists_eq_right]
  constructor
  · rintro ⟨rest, hsuffix, after, hfound⟩
    exact ⟨rest, after, hsuffix, hfound⟩
  · rintro ⟨rest, after, hsuffix, hfound⟩
    exact ⟨rest, hsuffix, after, hfound⟩

theorem placeholderNames_subset (h : rest <:+ text) :
    placeholderNames rest ⊆ placeholderNames text := by
  intro name hname
  obtain ⟨other, after, hsuffix, hfound⟩ := mem_placeholderNames.1 hname
  exact mem_placeholderNames.2 ⟨other, after, hsuffix.trans h, hfound⟩

/-- A text whose placeholders name no argument stays as it is. -/
theorem fill_eq_self (h : ∀ name ∈ placeholderNames text, argument? arguments name = none) :
    fill arguments text = text := by
  induction text using fill.induct with
  | case1 text name after hfound _ ih =>
    have hsuffix := suffix_of_placeholder? hfound
    have hrest := ih fun other hother ↦ h other (placeholderNames_subset hsuffix hother)
    have hname := h name (mem_placeholderNames.2 ⟨_, after, List.suffix_rfl, hfound⟩)
    rw [fill_placeholder hfound, hrest, replaced, hname, Option.map_none, Option.getD_none]
    exact (congrArg (_ ++ ·) (List.suffix_iff_eq_drop.1 hsuffix)).trans
      (List.take_append_drop ..)
  | case2 => exact fill_nil arguments
  | case3 c rest hfound ih =>
    have hsuffix : rest <:+ c :: rest := List.suffix_cons c rest
    have hrest := ih fun other hother ↦ h other (placeholderNames_subset hsuffix hother)
    rw [fill_cons hfound, hrest]

theorem fill_blanks_append (h : ∀ c ∈ lead, Text.isBlank c = true) (arguments : List Argument)
    (text : List Char) : fill arguments (lead ++ text) = lead ++ fill arguments text := by
  induction lead with
  | nil => rfl
  | cons c lead ih =>
    have hc : c ≠ '{' := by
      rintro rfl
      exact absurd (h '{' List.mem_cons_self) (by decide)
    have hrest := ih fun d hd ↦ h d (List.mem_cons_of_mem c hd)
    rw [List.cons_append, fill_cons (placeholder?_cons_eq_none hc _), hrest, List.cons_append]

/-- The blanks at the edges of a text stay as they are. -/
theorem fill_between_blanks (hlead : ∀ c ∈ lead, Text.isBlank c = true)
    (htrail : ∀ c ∈ trail, Text.isBlank c = true) (arguments : List Argument) (text : List Char) :
    fill arguments (lead ++ text ++ trail) = lead ++ fill arguments text ++ trail := by
  have hblank : fill arguments trail = trail := by
    have happend := fill_blanks_append htrail arguments []
    rwa [List.append_nil, fill_nil, List.append_nil] at happend
  rw [fill_append (.of_blanks htrail), fill_blanks_append hlead, hblank]

theorem toList_placeholder_append (name : String) (rest : List Char) :
    (Rule.placeholder name).toList ++ rest =
      '{' :: '{' :: (name.toList ++ '}' :: '}' :: rest) := by
  unfold Rule.placeholder
  rw [String.toList_append, String.toList_append, List.append_assoc, List.append_assoc]
  rfl

/-- The placeholder that is written for a name is read as that name. -/
theorem placeholder?_of_isName (h : IsName name) (rest : List Char) :
    placeholder? ((Rule.placeholder name).toList ++ rest) = some (name, rest) := by
  have hall := h.forall_continuesName
  obtain ⟨first, others, hname, hfirst, -⟩ := h
  have hbrace : ∀ c ∈ ('}' :: '}' :: rest).head?, continuesName c = false := by
    rintro c hc
    cases hc
    decide
  obtain ⟨htake, hdrop⟩ := takeWhile_append_of_head hbrace name.toList
  have hblank : (name.toList ++ '}' :: '}' :: rest).dropWhile Text.isBlank =
      name.toList ++ '}' :: '}' :: rest := by
    have hvisible : Text.isBlank first = false := by
      apply isBlank_eq_false_of_continuesName
      apply hall
      rw [hname]
      exact List.mem_cons_self
    rw [hname, List.cons_append, List.dropWhile_cons_of_neg (Bool.eq_false_iff.1 hvisible)]
  have hleading : leadingName? (name.toList ++ '}' :: '}' :: rest) =
      some (name, '}' :: '}' :: rest) := by
    unfold leadingName?
    rw [htake, hdrop, List.takeWhile_eq_self_iff.2 hall, List.dropWhile_eq_nil_iff.2 hall, hname,
      List.head?_cons, Option.any_some, hfirst, if_pos rfl, ← hname, String.ofList_toList]
    rfl
  rw [toList_placeholder_append, placeholder?_braces, hblank, hleading]
  rfl

/-- A placeholder is replaced by the value of its argument, whatever stands around it. -/
theorem fill_append_placeholder {value : ArgumentValue} (h : IsName name)
    (hvalue : argument? arguments name = some value) (text rest : List Char) :
    fill arguments (text ++ ((Rule.placeholder name).toList ++ rest)) =
      fill arguments text ++ (value.render.toList ++ fill arguments rest) := by
  have hdetached : Detached ((Rule.placeholder name).toList ++ rest) := by
    rw [toList_placeholder_append]
    exact .of_braces _
  rw [fill_append hdetached, fill_placeholder (placeholder?_of_isName h rest), replaced, hvalue]
  rfl

end Phrasebook.Lookup
