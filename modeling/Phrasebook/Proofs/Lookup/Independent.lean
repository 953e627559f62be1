import Mathlib.Data.List.Nodup
import Phrasebook.Proofs.Lookup.Resolve

/-!
# What a lookup depends on

A lookup asks for arguments by name: by the names of the placeholders in the text that is left after
a branch was chosen, and by the two names that a plural expression counts by. The order in which
different names are given makes no difference to it, and neither does an argument with another
name. `Filled` says what becomes of the text that is left, without regard to how it is searched: the
first placeholder in it is replaced, and what stands behind that placeholder is filled in turn, so a
value that was put in is not looked at again.
-/

namespace Phrasebook.Lookup

variable {arguments others : List Argument} {text result rest after written : List Char}
variable {name template key : String} {catalog : Catalog} {c : Char}

/-- A placeholder as it is written: a name between two pairs of braces, with blanks around it. -/
def IsPlaceholder (name : String) (written : List Char) : Prop :=
  IsName name ∧ ∃ lead trail, (∀ c ∈ lead, Text.isBlank c = true) ∧
    (∀ c ∈ trail, Text.isBlank c = true) ∧
    written = '{' :: '{' :: (lead ++ (name.toList ++ (trail ++ ['}', '}'])))

/-- A placeholder stands at the beginning of a text. -/
def BeginsWithPlaceholder (text : List Char) : Prop :=
  ∃ name written after, IsPlaceholder name written ∧ text = written ++ after

/-- The name that a text starts with is as long as it can be. -/
theorem leadingName?_eq_some_iff :
    leadingName? text = some (name, rest) ↔
      IsName name ∧ text = name.toList ++ rest ∧ ∀ c ∈ rest.head?, continuesName c = false := by
  unfold leadingName?
  constructor
  · intro h
    split at h
    · next hhead =>
      obtain ⟨rfl, rfl⟩ := Prod.mk.inj (Option.some.inj h)
      obtain ⟨first, hfirst, hstarts⟩ := (Option.any_eq_true ..).1 hhead
      obtain ⟨others, hname⟩ := List.head?_eq_some_iff.1 hfirst
      rw [String.toList_ofList]
      refine ⟨⟨first, others, ?_, hstarts, fun c hc ↦ ?_⟩, ?_, fun c hc ↦ ?_⟩
      · rw [String.toList_ofList, hname]
      · exact List.mem_takeWhile_imp (l := text) (hname ▸ List.mem_cons_of_mem first hc)
      · exact List.takeWhile_append_dropWhile.symm
      · have hnot := List.head?_dropWhile_not continuesName text
        rw [hc] at hnot
        exact hnot
    · cases h
  · rintro ⟨hname, rfl, hrest⟩
    have hall := hname.forall_continuesName
    obtain ⟨first, others, hchars, hfirst, -⟩ := hname
    obtain ⟨htake, hdrop⟩ := takeWhile_append_of_head hrest name.toList
    rw [htake, hdrop, List.takeWhile_eq_self_iff.2 hall, List.dropWhile_eq_nil_iff.2 hall,
      String.ofList_toList, hchars, List.head?_cons, Option.any_some, if_pos hfirst]
    rfl

theorem closed?_eq_some_iff : closed? text = some after ↔ text = '}' :: '}' :: after := by
  constructor
  · intro h
    unfold closed? at h
    split at h
    · cases h
      rfl
    · cases h
  · rintro rfl
    rfl

theorem dropWhile_isBlank_append {lead : List Char} (hlead : ∀ c ∈ lead, Text.isBlank c = true)
    (htext : ∀ c ∈ text.head?, Text.isBlank c = false) :
    (lead ++ text).dropWhile Text.isBlank = text := by
  rw [(takeWhile_append_of_head htext lead).2, List.dropWhile_eq_nil_iff.2 hlead, List.nil_append]

/-- The search finds a placeholder at the beginning of a text exactly when one is written there. -/
theorem placeholder?_eq_some_iff :
    placeholder? text = some (name, after) ↔
      ∃ written, IsPlaceholder name written ∧ text = written ++ after := by
  constructor
  · intro h
    by_cases hbraces : ∃ rest, text = '{' :: '{' :: rest
    · obtain ⟨rest, rfl⟩ := hbraces
      rw [placeholder?_braces] at h
      obtain ⟨⟨found, behind⟩, hleading, h⟩ := Option.bind_eq_some_iff.1 h
      obtain ⟨closed, hclosed, h⟩ := Option.map_eq_some_iff.1 h
      obtain ⟨rfl, rfl⟩ := Prod.mk.inj h
      obtain ⟨hname, hrest, -⟩ := leadingName?_eq_some_iff.1 hleading
      have hbehind := closed?_eq_some_iff.1 hclosed
      refine ⟨_, ⟨hname, rest.takeWhile Text.isBlank, behind.takeWhile Text.isBlank,
        fun _ ↦ List.mem_takeWhile_imp, fun _ ↦ List.mem_takeWhile_imp, rfl⟩, ?_⟩
      calc
        '{' :: '{' :: rest =
            '{' :: '{' :: (rest.takeWhile Text.isBlank ++ (found.toList ++ behind)) := by
          rw [← hrest, List.takeWhile_append_dropWhile]
        _ = '{' :: '{' :: (rest.takeWhile Text.isBlank ++
              (found.toList ++ (behind.takeWhile Text.isBlank ++ '}' :: '}' :: closed))) := by
          rw [← hbehind, List.takeWhile_append_dropWhile]
        _ = _ := by simp
    · rw [placeholder?_eq_none fun rest hsame ↦ hbraces ⟨rest, hsame⟩] at h
      cases h
  · rintro ⟨written, ⟨hname, lead, trail, hlead, htrail, rfl⟩, rfl⟩
    have hclosing : (trail ++ '}' :: '}' :: after).dropWhile Text.isBlank = '}' :: '}' :: after :=
      dropWhile_isBlank_append htrail (by rintro c ⟨⟩; decide)
    have hnext : ∀ c ∈ (trail ++ '}' :: '}' :: after).head?, continuesName c = false := by
      intro c hc
      cases trail with
      | nil =>
        cases hc
        decide
      | cons first trail =>
        cases hc
        exact continuesName_eq_false_of_isBlank (htrail c List.mem_cons_self)
    have hvisible : ∀ c ∈ (name.toList ++ (trail ++ '}' :: '}' :: after)).head?,
        Text.isBlank c = false := by
      intro c hc
      have hall := hname.forall_continuesName
      obtain ⟨first, others, hchars, -⟩ := hname
      rw [hchars] at hc hall
      cases hc
      exact isBlank_eq_false_of_continuesName (hall c List.mem_cons_self)
    have hleading := leadingName?_eq_some_iff.2 ⟨hname, rfl, hnext⟩
    have htext : '{' :: '{' :: (lead ++ (name.toList ++ (trail ++ ['}', '}']))) ++ after =
        '{' :: '{' :: (lead ++ (name.toList ++ (trail ++ '}' :: '}' :: after))) := by
      simp
    rw [htext, placeholder?_braces, dropWhile_isBlank_append hlead hvisible, hleading,
      Option.bind_some, hclosing]
    rfl

theorem beginsWithPlaceholder_iff :
    BeginsWithPlaceholder text ↔ placeholder? text ≠ none := by
  constructor
  · rintro ⟨name, written, after, hplaceholder, htext⟩ hnone
    rw [placeholder?_eq_some_iff.2 ⟨written, hplaceholder, htext⟩] at hnone
    cases hnone
  · intro h
    obtain ⟨⟨name, after⟩, hfound⟩ := Option.ne_none_iff_exists'.1 h
    obtain ⟨written, hplaceholder, htext⟩ := placeholder?_eq_some_iff.1 hfound
    exact ⟨name, written, after, hplaceholder, htext⟩

/-- What arguments make of a text. A text without a placeholder stays as it is. Otherwise all that
stands before the first placeholder stays, the placeholder becomes the value of the argument that it
names, if there is one, and the text behind it is filled by itself. -/
inductive Filled (arguments : List Argument) : List Char → List Char → Prop
  | plain {text : List Char} (hnone : ∀ tail, tail <:+ text → ¬ BeginsWithPlaceholder tail) :
    Filled arguments text text
  | replaced {kept written behind others : List Char} {name : String}
      (hplaceholder : IsPlaceholder name written)
      (hfirst : ∀ tail, tail <:+ kept ++ (written ++ behind) → BeginsWithPlaceholder tail →
        tail.length ≤ (written ++ behind).length)
      (hbehind : Filled arguments behind others) :
    Filled arguments (kept ++ (written ++ behind))
      (kept ++ (Lookup.replaced arguments name written ++ others))

theorem fill_of_isPlaceholder (h : IsPlaceholder name written) (arguments : List Argument)
    (behind : List Char) :
    fill arguments (written ++ behind) =
      replaced arguments name written ++ fill arguments behind := by
  rw [fill_placeholder (placeholder?_eq_some_iff.2 ⟨written, h, rfl⟩), List.length_append,
    Nat.add_sub_cancel, List.take_left]

/-- Text in which no placeholder begins stays as it is. -/
theorem fill_append_of_first {kept : List Char}
    (h : ∀ tail, tail <:+ kept ++ rest → BeginsWithPlaceholder tail → tail.length ≤ rest.length) :
    fill arguments (kept ++ rest) = kept ++ fill arguments rest := by
  induction kept with
  | nil => rfl
  | cons c kept ih =>
    have hnone : placeholder? (c :: (kept ++ rest)) = none := by
      by_contra hsome
      have hlength := h _ List.suffix_rfl (beginsWithPlaceholder_iff.2 hsome)
      simp only [List.cons_append, List.length_cons, List.length_append] at hlength
      omega
    have hrest := ih fun tail htail ↦ h tail (htail.trans (List.suffix_cons c _))
    rw [List.cons_append, fill_cons hnone, hrest, List.cons_append]

/-- There is only one result of filling a text. -/
theorem Filled.fill_eq (h : Filled arguments text result) : fill arguments text = result := by
  induction h with
  | @plain text hnone =>
    have hnames : ∀ name ∈ placeholderNames text, argument? arguments name = none := by
      intro name hname
      obtain ⟨tail, after, htail, hfound⟩ := mem_placeholderNames.1 hname
      refine absurd (beginsWithPlaceholder_iff.2 ?_) (hnone tail htail)
      rw [hfound]
      exact Option.some_ne_none _
    exact fill_eq_self hnames
  | replaced hplaceholder hfirst _ ih =>
    rw [fill_append_of_first hfirst, fill_of_isPlaceholder hplaceholder, ih]

/-- A character at which no placeholder begins stays as it is. -/
theorem Filled.cons (h : Filled arguments rest result) (hc : ¬ BeginsWithPlaceholder (c :: rest)) :
    Filled arguments (c :: rest) (c :: result) := by
  cases h with
  | plain hnone =>
    refine .plain fun tail htail ↦ ?_
    rcases List.suffix_cons_iff.1 htail with rfl | hrest
    · exact hc
    · exact hnone tail hrest
  | @replaced kept written behind others name hplaceholder hfirst hbehind =>
    show Filled arguments (c :: kept ++ (written ++ behind)) (c :: kept ++ _)
    refine .replaced hplaceholder (fun tail htail hbegins ↦ ?_) hbehind
    rcases List.suffix_cons_iff.1 htail with rfl | hrest
    · exact absurd hbegins hc
    · exact hfirst tail hrest hbegins

/-- The result of filling a text is what `Filled` describes. -/
theorem filled_fill (arguments : List Argument) (text : List Char) :
    Filled arguments text (fill arguments text) := by
  induction text using fill.induct with
  | case1 text name after hfound _ ih =>
    obtain ⟨written, hplaceholder, rfl⟩ := placeholder?_eq_some_iff.1 hfound
    rw [fill_of_isPlaceholder hplaceholder]
    show Filled arguments ([] ++ (written ++ after)) ([] ++ _)
    exact .replaced hplaceholder (fun tail htail _ ↦ htail.length_le) ih
  | case2 =>
    rw [fill_nil]
    refine .plain fun tail htail hbegins ↦ ?_
    rw [List.suffix_nil.1 htail] at hbegins
    exact beginsWithPlaceholder_iff.1 hbegins (placeholder?_eq_none fun rest hsame ↦ by cases hsame)
  | case3 c rest hnone ih =>
    rw [fill_cons hnone]
    exact ih.cons fun hbegins ↦ beginsWithPlaceholder_iff.1 hbegins hnone

/-- A text is filled in one way only, and that is what the search for placeholders gives. -/
theorem filled_iff : Filled arguments text result ↔ fill arguments text = result := by
  constructor
  · exact Filled.fill_eq
  · rintro rfl
    exact filled_fill arguments text

/-- Among arguments with different names, the value that is found for a name is the only one that
was given for it. -/
theorem argument?_eq_some_iff {value : ArgumentValue}
    (h : (arguments.map Argument.name).Nodup) :
    argument? arguments name = some value ↔ ⟨name, value⟩ ∈ arguments := by
  unfold argument?
  constructor
  · intro hfound
    obtain ⟨⟨other, value⟩, hargument, rfl⟩ := Option.map_eq_some_iff.1 hfound
    obtain rfl : other = name := beq_iff_eq.1 (List.find?_some hargument :)
    exact List.mem_of_find?_eq_some hargument
  · intro hmem
    obtain ⟨found, hfound⟩ : ∃ found, arguments.find? (·.name == name) = some found := by
      rw [← Option.isSome_iff_exists, List.find?_isSome]
      exact ⟨_, hmem, beq_self_eq_true name⟩
    have hname : found.name = name := beq_iff_eq.1 (List.find?_some hfound :)
    have hsame := List.inj_on_of_nodup_map h (List.mem_of_find?_eq_some hfound) hmem hname
    rw [hfound, hsame]
    rfl

/-- The order of arguments with different names makes no difference. -/
theorem argument?_perm (h : (arguments.map Argument.name).Nodup) (hperm : others.Perm arguments)
    (name : String) : argument? others name = argument? arguments name := by
  have hothers := (hperm.map Argument.name).nodup_iff.2 h
  refine Option.ext fun value ↦ ?_
  rw [argument?_eq_some_iff hothers, argument?_eq_some_iff h, hperm.mem_iff]

theorem argument?_insert {added : Argument} (before after : List Argument) (h : name ≠ added.name) :
    argument? (before ++ added :: after) name = argument? (before ++ after) name := by
  have hother : ¬ (added.name == name) = true := fun hsame ↦ h (beq_iff_eq.1 hsame).symm
  have hskipped : (added :: after).find? (·.name == name) = after.find? (·.name == name) :=
    List.find?_cons_of_neg hother
  unfold argument?
  rw [List.find?_append, List.find?_append, hskipped]

/-! ## Lookups that ask for the same arguments -/

/-- Filling a text asks for the arguments that its placeholders name. -/
theorem fill_congr
    (h : ∀ name ∈ placeholderNames text, argument? others name = argument? arguments name) :
    fill others text = fill arguments text := by
  induction text using fill.induct with
  | case1 text name after hfound _ ih =>
    have hrest := ih fun other hother ↦
      h other (placeholderNames_subset (suffix_of_placeholder? hfound) hother)
    have hname := h name (mem_placeholderNames.2 ⟨_, after, List.suffix_rfl, hfound⟩)
    rw [fill_placeholder hfound, fill_placeholder hfound, hrest, replaced, replaced, hname]
  | case2 => rw [fill_nil, fill_nil]
  | case3 c rest hnone ih =>
    have hrest := ih fun other hother ↦
      h other (placeholderNames_subset (List.suffix_cons c rest) hother)
    rw [fill_cons hnone, fill_cons hnone, hrest]

/-- Choosing a branch asks for the two arguments that the expression counts by. -/
theorem selectBranch?_congr
    (h : ∀ name, Counts template [name] → argument? others name = argument? arguments name) :
    selectBranch? template others = selectBranch? template arguments := by
  unfold selectBranch?
  refine Option.bind_congr fun located hlocated ↦ ?_
  split
  · next hkind =>
    have hexpression : Plural.expressionOf? template = some located.plural := by
      rw [Plural.expressionOf?, hlocated, Option.map_some]
    have hcounted : ∀ name, name = located.plural.argument ∨ name = countArgument →
        argument? others name = argument? arguments name := by
      rintro name hname
      refine h name ⟨_, hexpression, beq_iff_eq.1 hkind, ?_⟩
      rcases hname with rfl | rfl
      · exact .inl List.mem_cons_self
      · exact .inr List.mem_cons_self
    unfold countFor?
    rw [hcounted _ (.inl rfl), hcounted _ (.inr rfl)]
  · rfl

/-- The text that is left of a template after a branch was chosen, if one is. -/
def selected (template : String) (arguments : List Argument) : String :=
  (selectBranch? template arguments).getD template

/-- The shortcut for a lookup without arguments gives what filling would give. -/
theorem resolve_eq (catalog : Catalog) (key : String) (arguments : List Argument) :
    resolve catalog key arguments =
      String.ofList (fill arguments (selected (templateOf catalog key) arguments).toList) := by
  unfold resolve
  dsimp only
  split
  · next hnone =>
    rw [List.isEmpty_iff.1 hnone, fill_eq_self fun _ _ ↦ rfl, String.ofList_toList]
    rfl
  · rfl

/-- Two lists of arguments give the same text when they agree on what the template asks for. -/
theorem resolve_congr
    (hcounts : ∀ name, Counts (templateOf catalog key) [name] →
      argument? others name = argument? arguments name)
    (hnames : ∀ name ∈ placeholderNames (selected (templateOf catalog key) arguments).toList,
      argument? others name = argument? arguments name) :
    resolve catalog key others = resolve catalog key arguments := by
  have hselected : selected (templateOf catalog key) others =
      selected (templateOf catalog key) arguments := by
    unfold selected
    rw [selectBranch?_congr hcounts]
  rw [resolve_eq, resolve_eq, hselected, fill_congr hnames]

/-- A lookup depends on the arguments that its template names, whatever their order, and on no
others. What it gives is the text that is left after a branch was chosen, with its placeholders
replaced from left to right; without a branch that text is the template. -/
theorem resolve_depends (catalog : Catalog) (key : String)
    (h : (arguments.map Argument.name).Nodup) :
    (∀ others, others.Perm arguments →
      resolve catalog key others = resolve catalog key arguments) ∧
    (∀ before after added, before ++ after = arguments →
      ¬ Counts (templateOf catalog key) [added.name] →
      added.name ∉ placeholderNames (selected (templateOf catalog key) arguments).toList →
      resolve catalog key (before ++ added :: after) = resolve catalog key arguments) ∧
    (∀ result, resolve catalog key arguments = result ↔
      Filled arguments (selected (templateOf catalog key) arguments).toList result.toList) ∧
    (selectBranch? (templateOf catalog key) arguments = none →
      selected (templateOf catalog key) arguments = templateOf catalog key) := by
  refine ⟨fun others hperm ↦ ?_, ?_, fun result ↦ ?_, fun hnone ↦ ?_⟩
  · exact resolve_congr (fun name _ ↦ argument?_perm h hperm name)
      fun name _ ↦ argument?_perm h hperm name
  · rintro before after added rfl hcounts hnames
    refine resolve_congr (fun name hname ↦ argument?_insert before after ?_) fun name hname ↦
      argument?_insert before after ?_
    · rintro rfl
      exact hcounts hname
    · rintro rfl
      exact hnames hname
  · rw [filled_iff, resolve_eq]
    constructor
    · rintro rfl
      rw [String.toList_ofList]
    · intro hfill
      rw [hfill, String.ofList_toList]
  · rw [selected, hnone, Option.getD_none]

/-- A template that counts items for someone. -/
def parcel : String :=
  "\x7bcount, plural, one \x7b# item\x7d other \x7b# items\x7d\x7d for \x7b\x7b name \x7d\x7d"

/-- A value that looks like a placeholder stays as it is when it is put in. -/
theorem resolve_depends_parcel :
    let count : Argument := ⟨"count", .whole 2⟩
    let name : Argument := ⟨"name", .text "\x7b\x7bcount\x7d\x7d"⟩
    let other : Argument := ⟨"other", .text "unused"⟩
    let catalog := Catalog.ofList [("parcel", parcel)]
    ([count, name].map Argument.name).Nodup ∧
      resolve catalog "parcel" [name, count] = resolve catalog "parcel" [count, name] ∧
      resolve catalog "parcel" [count, other, name] = resolve catalog "parcel" [count, name] ∧
      Filled [count, name] "2 items for \x7b\x7b name \x7d\x7d".toList
        "2 items for \x7b\x7bcount\x7d\x7d".toList := by
  intro count name other catalog
  have hnames : ([count, name].map Argument.name).Nodup := by decide
  have htemplate : templateOf catalog "parcel" = parcel := by decide +kernel
  have hselected : selected parcel [count, name] = "2 items for \x7b\x7b name \x7d\x7d" := by
    decide +kernel
  have hcounts : ¬ Counts parcel [other.name] := by
    have hexpression : (Plural.expressionOf? parcel).map Plural.argument = some "count" := by
      decide +kernel
    rintro ⟨plural, hplural, -, hmem⟩
    rw [hplural] at hexpression
    rw [Option.some.inj hexpression] at hmem
    revert hmem
    decide
  obtain ⟨hperm, hinsert, hfilled, -⟩ := resolve_depends catalog "parcel" hnames
  rw [htemplate, hselected] at hinsert hfilled
  refine ⟨hnames, hperm _ (.swap ..), hinsert [count] [name] other rfl hcounts ?_,
    (hfilled "2 items for \x7b\x7bcount\x7d\x7d").1 ?_⟩
  · decide +kernel
  · decide +kernel

end Phrasebook.Lookup
