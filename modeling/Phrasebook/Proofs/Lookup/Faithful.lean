import Phrasebook.Proofs.Catalog.RoundTrip
import Phrasebook.Proofs.Lookup.Braces
import Phrasebook.Proofs.Source.Choice

/-!
# Which branches are shown as they are

A plural template holds its branches as they were written, without escapes. So a branch is shown as
it is only if nothing in it has a meaning of its own: its braces are balanced, and neither a number
sign nor a placeholder stands for the count. For the two branches of a conditional this is also
necessary. What is shown has the braces of the template, and the template holds the braces of both
branches, so both can be shown only if neither has any braces to add; and a number sign or a
placeholder that is filled in is not there any more.
-/

namespace Phrasebook

open Plural

/-! ## Braces that two branches share with their expression -/

namespace Plural

variable {text : List Char} {argument one other : String} {depth after : Nat}

theorem exists_openAfter? (h : text.length ≤ depth) :
    ∃ after, openAfter? depth text = some after := by
  fun_induction openAfter? depth text with
  | case1 depth => exact ⟨depth, rfl⟩
  | case2 depth rest ih => exact ih (by simp only [List.length_cons] at h; omega)
  | case3 rest => simp at h
  | case4 depth rest ih => exact ih (by simpa using h)
  | case5 depth c rest _ _ _ ih => exact ih (by simp only [List.length_cons] at h; omega)

/-- Behind an expression with two branches: its opening brace, the branch for one, and the other
one. -/
theorem openAfter?_oneOther (one other : String) (depth : Nat) :
    openAfter? depth (oneOther Lookup.countArgument one other).render.toList =
      (openAfter? (depth + 2) one.toList).bind fun first ↦
        (openAfter? first "\x7d other \x7b".toList).bind fun second ↦
          (openAfter? second other.toList).bind (openAfter? · "\x7d\x7d".toList) := by
  have htext : (oneOther Lookup.countArgument one other).render.toList =
      "\x7bcount, plural, one \x7b".toList ++ (one.toList ++ ("\x7d other \x7b".toList ++
        (other.toList ++ "\x7d\x7d".toList))) := by
    simp [oneOther, render, Branch.render, Lookup.countArgument, String.join]
  have hlead := openAfter?_add
    (show openAfter? 0 "\x7bcount, plural, one \x7b".toList = some 2 by decide) depth
  rw [Nat.zero_add, Nat.add_comm] at hlead
  rw [htext, openAfter?_append, hlead, Option.bind_some, openAfter?_append]
  refine Option.bind_congr fun first _ ↦ ?_
  rw [openAfter?_append]
  refine Option.bind_congr fun second _ ↦ ?_
  rw [openAfter?_append]

theorem eq_of_openAfter?_closing (h : openAfter? depth "\x7d\x7d".toList = some after) :
    depth = after + 2 := by
  match depth with
  | 0 => cases h
  | 1 => cases h
  | inner + 2 =>
    cases h
    rfl

/-- Two branches that both have the braces of the expression they are in have no braces to add. -/
theorem isBalanced_of_sameBraces_oneOther
    (hone : SameBraces one.toList (oneOther Lookup.countArgument one other).render.toList)
    (hother : SameBraces other.toList (oneOther Lookup.countArgument one other).render.toList) :
    IsBalanced one.toList ∧ IsBalanced other.toList := by
  have hsame : SameBraces one.toList other.toList := hone.trans hother.symm
  have hwithin : ∀ depth, openAfter? depth one.toList = (openAfter? (depth + 2) one.toList).bind
      fun first ↦ (openAfter? first "\x7d other \x7b".toList).bind fun second ↦
        (openAfter? second one.toList).bind (openAfter? · "\x7d\x7d".toList) := by
    intro depth
    rw [hone depth, openAfter?_oneOther]
    refine Option.bind_congr fun first _ ↦ Option.bind_congr fun second _ ↦ ?_
    rw [hsame second]
  have hbetween : ∀ depth, openAfter? (depth + 2) "\x7d other \x7b".toList = some (depth + 2) := by
    intro depth
    have hadd := openAfter?_add
      (show openAfter? 2 "\x7d other \x7b".toList = some 2 by decide) depth
    rwa [Nat.add_comm] at hadd
  -- Where the first branch leaves as many braces open as there were, so do both branches together.
  have hbelow : ∀ depth, openAfter? (depth + 2) one.toList = some (depth + 2) →
      openAfter? depth one.toList = some depth := by
    intro depth hdepth
    rw [hwithin, hdepth, Option.bind_some, hbetween, Option.bind_some, hdepth]
    rfl
  -- Within enough braces the branch closes no more than there are; it then opens as many as it
  -- closes, for the expression would otherwise do so twice.
  obtain ⟨after, hafter⟩ := exists_openAfter? (Nat.le_refl one.toList.length)
  have htwice := openAfter?_add hafter 2
  rw [hwithin, htwice, Option.bind_some, hbetween, Option.bind_some] at hafter
  obtain ⟨last, hlast, hclosing⟩ := Option.bind_eq_some_iff.1 hafter
  rw [eq_of_openAfter?_closing hclosing] at hlast
  have hlevel : after = one.toList.length := by
    rcases Nat.le_total after one.toList.length with hle | hle
    · have hadd := openAfter?_add hlast (one.toList.length - after)
      rw [show after + 2 + (one.toList.length - after) = one.toList.length + 2 by omega,
        htwice, Option.some_inj] at hadd
      omega
    · have hadd := openAfter?_add htwice (after - one.toList.length)
      rw [show one.toList.length + 2 + (after - one.toList.length) = after + 2 by omega,
        hlast, Option.some_inj] at hadd
      omega
  have hdescend : ∀ half, openAfter? (2 * half) one.toList = some (2 * half) →
      IsBalanced one.toList := by
    intro half hhalf
    induction half with
    | zero => exact hhalf
    | succ half ih => exact ih (hbelow _ hhalf)
  have hbalanced : IsBalanced one.toList := by
    refine hdescend (after + 1) ?_
    have hadd := openAfter?_add hlast after
    rwa [show after + 2 + after = 2 * (after + 1) by omega] at hadd
  exact ⟨hbalanced, hsame.symm.isBalanced hbalanced⟩

end Plural

namespace Lookup

variable {text after : List Char} {name key : String} {catalog : Catalog}
variable {arguments : List Argument}

/-! ## What is not there any more -/

/-- A character of what is filled in was there, or is one of a value. -/
theorem mem_fill {c : Char} (h : c ∈ fill arguments text) :
    c ∈ text ∨ ∃ argument ∈ arguments, c ∈ argument.value.render.toList := by
  induction text using fill.induct with
  | case1 text name after hfound _ ih =>
    rw [fill_placeholder hfound] at h
    rcases List.mem_append.1 h with hreplaced | hrest
    · unfold replaced at hreplaced
      cases hvalue : argument? arguments name with
      | none =>
        rw [hvalue] at hreplaced
        exact .inl (List.mem_of_mem_take hreplaced)
      | some value =>
        rw [hvalue] at hreplaced
        obtain ⟨argument, hmem, rfl⟩ := exists_of_argument? hvalue
        exact .inr ⟨argument, hmem, hreplaced⟩
    · exact (ih hrest).imp_left fun hmem ↦ (suffix_of_placeholder? hfound).subset hmem
  | case2 =>
    rw [fill_nil] at h
    cases h
  | case3 d rest hfound ih =>
    rw [fill_cons hfound] at h
    rcases List.mem_cons.1 h with rfl | hrest
    · exact .inl List.mem_cons_self
    · exact (ih hrest).imp_left (List.mem_cons_of_mem d)

theorem sign_not_mem_fillCount {count : List Char} (hcount : '#' ∉ count) (body : List Char) :
    '#' ∉ fillCount count body := by
  intro hmem
  obtain ⟨c, -, hc⟩ := List.mem_flatMap.1 hmem
  split at hc
  · exact hcount hc
  · next hne => exact hne (List.mem_singleton.1 hc).symm

theorem placeholderNames_cons {c : Char} {rest : List Char}
    (h : placeholder? (c :: rest) = none) :
    placeholderNames (c :: rest) = placeholderNames rest := by
  unfold placeholderNames
  rw [List.tails_cons, List.filterMap_cons, h]
  rfl

theorem placeholderNames_append {lead : List Char} (h : '{' ∉ lead) (text : List Char) :
    placeholderNames (lead ++ text) = placeholderNames text := by
  induction lead with
  | nil => rfl
  | cons c lead ih =>
    have hc : c ≠ '{' := fun hsame ↦ h (hsame ▸ List.mem_cons_self)
    rw [List.cons_append, placeholderNames_cons (placeholder?_cons_eq_none hc _),
      ih fun hmem ↦ h (List.mem_cons_of_mem c hmem)]

/-- No placeholder begins within another one. -/
theorem placeholderNames_of_placeholder? (h : placeholder? text = some (name, after)) :
    placeholderNames text = name :: placeholderNames after := by
  obtain ⟨inner, rfl, hinner⟩ := exists_of_placeholder? h
  have hsecond : placeholder? ('{' :: (inner ++ '}' :: '}' :: after)) = none := by
    refine placeholder?_eq_none fun rest hsame ↦ ?_
    cases inner with
    | nil => cases hsame
    | cons c inner =>
      cases hsame
      exact (hinner '{' List.mem_cons_self).1 rfl
  have hinside : '{' ∉ inner ++ ['}', '}'] := by
    intro hmem
    rcases List.mem_append.1 hmem with hmem | hmem
    · exact (hinner '{' hmem).1 rfl
    · revert hmem
      decide
  have hrest := placeholderNames_append hinside after
  rw [List.append_assoc] at hrest
  calc
    placeholderNames ('{' :: '{' :: (inner ++ '}' :: '}' :: after)) =
        name :: placeholderNames ('{' :: (inner ++ '}' :: '}' :: after)) := by
      unfold placeholderNames
      rw [List.tails_cons, List.filterMap_cons, h]
      rfl
    _ = name :: placeholderNames (inner ++ '}' :: '}' :: after) := by
      rw [placeholderNames_cons hsecond]
    _ = name :: placeholderNames after := congrArg _ hrest

/-- The text of a placeholder with its four braces. -/
theorem length_of_placeholder? (h : placeholder? text = some (name, after)) :
    4 ≤ (text.take (text.length - after.length)).length ∧
      (text.take (text.length - after.length)).length + after.length = text.length := by
  obtain ⟨inner, rfl, -⟩ := exists_of_placeholder? h
  simp only [List.length_take, List.length_cons, List.length_append]
  omega

variable (hshort : ∀ argument ∈ arguments, argument.value.render.toList.length < 4)
include hshort

/-- A value is shorter than the placeholder that it is put in for. -/
theorem length_replaced {written : List Char} (hwritten : 4 ≤ written.length) (name : String) :
    (replaced arguments name written).length ≤ written.length ∧
      (name ∈ arguments.map Argument.name →
        (replaced arguments name written).length < written.length) := by
  unfold replaced
  cases hvalue : argument? arguments name with
  | none =>
    refine ⟨Nat.le_refl _, fun hname ↦ ?_⟩
    obtain ⟨argument, hmem, rfl⟩ := List.mem_map.1 hname
    have hother := List.find?_eq_none.1 (Option.map_eq_none_iff.1 hvalue) argument hmem
    simp at hother
  | some value =>
    obtain ⟨argument, hmem, rfl⟩ := exists_of_argument? hvalue
    have hlength := hshort argument hmem
    exact ⟨by simp only [Option.map_some, Option.getD_some]; omega,
      fun _ ↦ by simp only [Option.map_some, Option.getD_some]; omega⟩

/-- Filling a text with values of fewer than four characters does not make it longer. -/
theorem length_fill_le (text : List Char) : (fill arguments text).length ≤ text.length := by
  induction text using fill.induct with
  | case1 text name after hfound _ ih =>
    obtain ⟨hfour, hlength⟩ := length_of_placeholder? hfound
    have hreplaced := (length_replaced hshort hfour name).1
    rw [fill_placeholder hfound, List.length_append]
    omega
  | case2 =>
    rw [fill_nil]
  | case3 c rest hfound ih =>
    rw [fill_cons hfound, List.length_cons, List.length_cons]
    omega

/-- Filling with short values makes a text shorter that has a placeholder for one of them. -/
theorem length_fill_lt (hname : name ∈ arguments.map Argument.name)
    (h : name ∈ placeholderNames text) : (fill arguments text).length < text.length := by
  induction text using fill.induct with
  | case1 text other after hfound _ ih =>
    obtain ⟨hfour, hlength⟩ := length_of_placeholder? hfound
    have hrest := length_fill_le hshort after
    rw [placeholderNames_of_placeholder? hfound] at h
    rw [fill_placeholder hfound, List.length_append]
    rcases List.mem_cons.1 h with rfl | hlater
    · have hreplaced := (length_replaced hshort hfour name).2 hname
      omega
    · have hreplaced := (length_replaced hshort hfour other).1
      have hshorter := ih hlater
      omega
  | case2 =>
    obtain ⟨rest, other, hsuffix, hfound⟩ := mem_placeholderNames.1 h
    rw [List.suffix_nil.1 hsuffix] at hfound
    cases hfound
  | case3 c rest hfound ih =>
    rw [placeholderNames_cons hfound] at h
    have hshorter := ih h
    rw [fill_cons hfound, List.length_cons, List.length_cons]
    omega

omit hshort

open Choice (IsPlainBranch)

variable {one other : String}

theorem edges_eq_empty {text : String} (h : Text.trim text = text) :
    Text.lead text = "" ∧ Text.trail text = "" := by
  have hedges := congrArg String.length (Text.lead_append_trim_append_trail_string text)
  rw [h, String.length_append, String.length_append] at hedges
  exact ⟨String.length_eq_zero_iff.1 (by omega), String.length_eq_zero_iff.1 (by omega)⟩

/-- Of a template with balanced branches, a lookup shows the branch that is chosen, filled in. -/
theorem resolve_eq_shown
    (hkey : catalog.get? key = some (oneOther countArgument one other).render)
    (hone : IsBalanced one.toList) (hother : IsBalanced other.toList) (count : Int) :
    resolve catalog key [⟨countArgument, .whole count⟩] =
      String.ofList (shown (.whole count) one other (Number.ofInt count)) := by
  obtain ⟨hlead, htrail⟩ := edges_eq_empty (trim_render (oneOther countArgument one other))
  rw [resolve_oneOther hkey rfl hone hother rfl, hlead, htrail, String.empty_append,
    String.append_empty]

theorem chosen_ofInt (one other : String) (count : Int) :
    chosen one other (Number.ofInt count) = if count = 1 then one else other := by
  unfold chosen
  simp only [Number.isOne_ofInt]

/-- Two plain branches are shown as they are, the first for one and the second for every other
count. -/
theorem resolve_of_isPlainBranch
    (hkey : catalog.get? key = some (oneOther countArgument one other).render)
    (hone : IsPlainBranch one) (hother : IsPlainBranch other) (count : Int) :
    resolve catalog key [⟨countArgument, .whole count⟩] = if count = 1 then one else other := by
  have hchosen : IsPlainBranch (chosen one other (Number.ofInt count)) := by
    rw [chosen_ofInt]
    split
    · exact hone
    · exact hother
  rw [resolve_eq_shown hkey hone.balanced hother.balanced,
    shown_eq_chosen hchosen.unsigned hchosen.unnamed, chosen_ofInt]

/-- A balanced branch that stays as it is when a short count is filled in has nothing to fill in. -/
theorem isPlainBranch_of_fill {branch : String} (count : List Char) (value : ArgumentValue)
    (hbalanced : IsBalanced branch.toList) (hcount : '#' ∉ count)
    (hvalue : '#' ∉ value.render.toList) (hshort : value.render.toList.length < 4)
    (h : fill [⟨countArgument, value⟩] (fillCount count branch.toList) = branch.toList) :
    IsPlainBranch branch := by
  have hsign : '#' ∉ branch.toList := by
    intro hmem
    rw [← h] at hmem
    rcases mem_fill hmem with hbody | ⟨argument, hargument, hrendered⟩
    · exact sign_not_mem_fillCount hcount _ hbody
    · cases List.mem_singleton.1 hargument
      exact hvalue hrendered
  rw [fillCount_eq_self hsign] at h
  refine ⟨hbalanced, hsign, fun hname ↦ ?_⟩
  have hvalues : ∀ argument ∈ [Argument.mk countArgument value],
      argument.value.render.toList.length < 4 := by simpa using hshort
  have hshorter := length_fill_lt hvalues List.mem_cons_self hname
  rw [h] at hshorter
  exact Nat.lt_irrefl _ hshorter

/-- Branches that are shown for one and for two are plain. -/
theorem isPlainBranch_of_resolve
    (hkey : catalog.get? key = some (oneOther countArgument one other).render)
    (hone : resolve catalog key [⟨countArgument, .whole 1⟩] = one)
    (htwo : resolve catalog key [⟨countArgument, .whole 2⟩] = other) :
    IsPlainBranch one ∧ IsPlainBranch other := by
  have hne : (oneOther countArgument one other).render ≠ "" := by
    intro hempty
    cases (congrArg String.toList hempty).symm.trans (toList_render _)
  have hbraces : ∀ count : Int, IsBalanced (ArgumentValue.whole count).render.toList →
      SameBraces (resolve catalog key [⟨countArgument, .whole count⟩]).toList
        (oneOther countArgument one other).render.toList := by
    intro count hrender
    refine sameBraces_resolve hkey hne fun argument hargument ↦ ?_
    cases List.mem_singleton.1 hargument
    exact hrender
  have hfirst := hbraces 1 (by decide)
  have hsecond := hbraces 2 (by decide)
  rw [hone] at hfirst
  rw [htwo] at hsecond
  obtain ⟨hbalanced, hbalanced'⟩ := isBalanced_of_sameBraces_oneOther hfirst hsecond
  rw [resolve_eq_shown hkey hbalanced hbalanced'] at hone htwo
  constructor
  · refine isPlainBranch_of_fill (Number.ofInt 1).render.toList (.whole 1)
      hbalanced (by decide) (by decide) (by decide) ?_
    have htext := congrArg String.toList hone
    rw [String.toList_ofList, shown, chosen_ofInt, if_pos rfl] at htext
    exact htext
  · refine isPlainBranch_of_fill (Number.ofInt 2).render.toList (.whole 2)
      hbalanced' (by decide) (by decide) (by decide) ?_
    have htext := congrArg String.toList htwo
    rw [String.toList_ofList, shown, chosen_ofInt, if_neg (by decide)] at htext
    exact htext

/-- The template of every conditional between two texts is looked up, with any count, as one of the
two, without the blanks at its edges. -/
def ShowsOneOf (consequent alternate : String) : Prop :=
  ∀ test found catalog key, ∀ count : Int,
    Rule.matchConditional (some test) (some consequent) (some alternate) = some found →
    catalog.get? key = some found.template →
    resolve catalog key [⟨countArgument, .whole count⟩] ∈
      [Text.trim consequent, Text.trim alternate]

/-- A conditional that a rule accepts is stored with its two texts, without the blanks at their
edges, as bodies. -/
theorem template_of_matchConditional {test : EqualityTest} {consequent alternate : String}
    {found : Match}
    (h : Rule.matchConditional (some test) (some consequent) (some alternate) = some found) :
    found.template =
      (oneOther countArgument (Text.trim consequent) (Text.trim alternate)).render := by
  unfold Rule.matchConditional at h
  dsimp only at h
  split at h
  · cases h
    rfl
  · cases h

/-- The template of a conditional is looked up as the text for equality when the count is one, and
as the other text for every other count, exactly when both texts are plain: their braces are
balanced, and neither a number sign nor a placeholder stands for the count in them. -/
theorem resolve_conditional_iff (test : EqualityTest) (consequent alternate : String)
    (found : Match) (catalog : Catalog) (key : String)
    (hfound : Rule.matchConditional (some test) (some consequent) (some alternate) = some found)
    (hkey : catalog.get? key = some found.template) :
    (∀ count : Int, resolve catalog key [⟨countArgument, .whole count⟩] =
        if count = 1 then Text.trim consequent else Text.trim alternate) ↔
      IsPlainBranch (Text.trim consequent) ∧ IsPlainBranch (Text.trim alternate) := by
  rw [template_of_matchConditional hfound] at hkey
  constructor
  · intro hshown
    exact isPlainBranch_of_resolve hkey (hshown 1) (hshown 2)
  · rintro ⟨hsame, hdiffers⟩
    exact resolve_of_isPlainBranch hkey hsame hdiffers

def comparison : EqualityTest :=
  ⟨.strict, .identifier, "n"⟩

/-- The catalog that holds the template of a conditional. -/
def catalogOf (consequent alternate : String) : Catalog :=
  .ofList [("items", (oneOther countArgument consequent alternate).render)]

theorem resolve_conditional_item :
    (IsPlainBranch "item" ∧ IsPlainBranch "items") ∧
      ∀ count : Int, resolve (catalogOf "item" "items") "items" [⟨countArgument, .whole count⟩] =
        if count = 1 then "item" else "items" := by
  have htexts : Text.trim " item " = "item" ∧ Text.trim "items" = "items" := by decide +kernel
  have hplain : IsPlainBranch "item" ∧ IsPlainBranch "items" := by
    refine ⟨⟨by decide, by decide, ?_⟩, ⟨by decide, by decide, ?_⟩⟩
    · decide +kernel
    · decide +kernel
  have hshown := (resolve_conditional_iff comparison " item " "items"
    ⟨.plural, (oneOther countArgument "item" "items").render, [⟨"count", "n"⟩]⟩
    (catalogOf "item" "items") "items" (by decide +kernel) (by decide +kernel)).2
  rw [htexts.1, htexts.2] at hshown
  exact ⟨hplain, hshown hplain⟩

theorem ShowsOneOf.resolve {consequent alternate : String}
    (h : ShowsOneOf consequent alternate)
    (haccepted : (Rule.matchConditional (some comparison) (some consequent)
      (some alternate)).isSome = true) (count : Int) :
    Lookup.resolve (catalogOf (Text.trim consequent) (Text.trim alternate)) "items"
      [⟨countArgument, .whole count⟩] ∈ [Text.trim consequent, Text.trim alternate] := by
  obtain ⟨found, hfound⟩ := Option.isSome_iff_exists.1 haccepted
  refine h comparison found _ "items" count hfound ?_
  rw [template_of_matchConditional hfound, catalogOf, Catalog.get?_eq_some_iff,
    Catalog.entries_ofList (by simp)]
  exact List.mem_cons_self

/-- A number sign becomes the count, and so does a placeholder for it; a brace that is not closed
shows the expression. -/
theorem not_showsOneOf :
    ¬ ShowsOneOf "Item #1" "Items" ∧ ¬ ShowsOneOf "item" "\x7b\x7bcount\x7d\x7d items" ∧
      ¬ ShowsOneOf "item \x7d" "items" := by
  refine ⟨fun hshows ↦ ?_, fun hshows ↦ ?_, fun hshows ↦ ?_⟩
  · have hone := hshows.resolve (by decide +kernel) 1
    revert hone
    decide +kernel
  · have htwo := hshows.resolve (by decide +kernel) 2
    revert htwo
    decide +kernel
  · have hone := hshows.resolve (by decide +kernel) 1
    revert hone
    decide +kernel

end Lookup

end Phrasebook
