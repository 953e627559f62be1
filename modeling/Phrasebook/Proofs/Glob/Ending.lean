import Mathlib.Data.List.Forall2
import Mathlib.Data.List.Infix
import Phrasebook.Glob

/-!
# How patterns end

Whether a pattern describes what lies below the paths that it describes is decided by its end. A
pattern is open if nothing behind its last wildcard gets in the way: two stars are its last token,
or behind the last star stand only tokens that hold for every character, but for the last one, which
holds for a slash. An open pattern still describes a text with anything and a slash behind it. For
every other pattern there is a text that cannot stand below a path, whatever the path is.
-/

namespace Phrasebook.Glob

variable {front rest tail : List Token} {text : List Char} {token : Token}

def Token.isWild : Token → Bool
  | anyText => true
  | directories => true
  | _ => false

theorem matchesTokens_anyText :
    matchesTokens (.anyText :: rest) text ↔
      ∃ suffix, suffix <:+ text ∧ matchesTokens rest suffix := by
  have hsuffixes : suffixes text = text.tails := by
    induction text with
    | nil => rfl
    | cons c text ih => rw [suffixes, ih, List.tails_cons]
  rw [matchesTokens, hsuffixes, List.any_eq_true]
  simp only [List.mem_tails]

/-- What may follow more directories: the end of the text, or what stands behind one of its slashes.
-/
theorem mem_afterSlashes {suffix : List Char} :
    suffix ∈ afterSlashes text ↔ suffix = [] ∨ '/' :: suffix <:+ text := by
  induction text with
  | nil => simp [afterSlashes]
  | cons c text ih =>
    rw [List.suffix_cons_iff, List.cons.injEq, afterSlashes]
    by_cases hslash : c = '/'
    · rw [if_pos hslash, List.mem_cons, ih]
      tauto
    · rw [if_neg hslash, ih]
      tauto

theorem matchesTokens_directories :
    matchesTokens (.directories :: rest) text ↔
      ∃ suffix, (suffix = text ∨ suffix = [] ∨ '/' :: suffix <:+ text) ∧
        matchesTokens rest suffix := by
  rw [matchesTokens, List.any_eq_true]
  simp only [List.mem_cons, mem_afterSlashes]

theorem matchesTokens_one (h : token.isWild = false) :
    matchesTokens (token :: rest) text ↔
      ∃ c others, text = c :: others ∧ token.holds c ∧ matchesTokens rest others := by
  cases token with
  | anyText => cases h
  | directories => cases h
  | _ => cases text <;> simp [matchesTokens]

/-- Tokens that stand for single characters describe texts of their number. -/
theorem matchesTokens_iff_forall₂ (h : ∀ token ∈ tail, token.isWild = false) :
    matchesTokens tail text ↔ List.Forall₂ (fun token c ↦ token.holds c = true) tail text := by
  induction tail generalizing text with
  | nil => simp [matchesTokens]
  | cons token tail ih =>
    rw [matchesTokens_one (h token List.mem_cons_self), List.forall₂_cons_left_iff]
    simp only [ih fun token hmem ↦ h token (List.mem_cons_of_mem _ hmem)]
    constructor
    · rintro ⟨c, others, rfl, hc, hothers⟩
      exact ⟨c, others, hc, hothers, rfl⟩
    · rintro ⟨c, others, hc, hothers, rfl⟩
      exact ⟨c, others, rfl, hc, hothers⟩

/-- The last tokens of a pattern describe an end of the text. -/
theorem exists_suffix_of_matchesTokens (h : matchesTokens (front ++ rest) text) :
    ∃ suffix, suffix <:+ text ∧ matchesTokens rest suffix := by
  induction front generalizing text with
  | nil => exact ⟨text, List.suffix_rfl, h⟩
  | cons token front ih =>
    rw [List.cons_append] at h
    cases hwild : token.isWild with
    | false =>
      obtain ⟨c, others, rfl, -, hothers⟩ := (matchesTokens_one hwild).1 h
      obtain ⟨suffix, hsuffix, hrest⟩ := ih hothers
      exact ⟨suffix, hsuffix.trans (List.suffix_cons c others), hrest⟩
    | true =>
      have hany : ∃ others, others <:+ text ∧ matchesTokens (front ++ rest) others := by
        cases token with
        | anyText => exact matchesTokens_anyText.1 h
        | directories =>
          obtain ⟨others, rfl | rfl | hslash, hothers⟩ := matchesTokens_directories.1 h
          · exact ⟨others, List.suffix_rfl, hothers⟩
          · exact ⟨[], List.nil_suffix, hothers⟩
          · exact ⟨others, (List.suffix_cons '/' others).trans hslash, hothers⟩
        | _ => cases hwild
      obtain ⟨others, hothers, hmatch⟩ := hany
      obtain ⟨suffix, hsuffix, hrest⟩ := ih hmatch
      exact ⟨suffix, hsuffix.trans hothers, hrest⟩

/-- Tokens behind the last star that do not keep it from taking more text. -/
inductive Loose : List Token → Prop
  | nil : Loose []
  | snoc {init : List Token} {last : Token} (hinit : ∀ token ∈ init, ∀ c, token.holds c)
      (hlast : last.holds '/') : Loose (init ++ [last])

/-- Tokens at whose end there may stand any text that ends in a slash. -/
inductive Open : List Token → Prop
  | directories (front : List Token) : Open (front ++ [.directories])
  | anyText (front : List Token) {tail : List Token} (htail : Loose tail) :
      Open (front ++ .anyText :: tail)

theorem isWild_of_holds {c : Char} (h : token.holds c) : token.isWild = false := by
  cases token <;> first | rfl | cases h

/-- A text behind the matched one, with a slash at its end, is taken up by the end of the pattern if
the end alone can do so. -/
theorem matchesTokens_append
    (hlast : ∀ text more, matchesTokens rest text → matchesTokens rest (text ++ more ++ ['/']))
    (more : List Char) (h : matchesTokens (front ++ rest) text) :
    matchesTokens (front ++ rest) (text ++ more ++ ['/']) := by
  induction front generalizing text more with
  | nil => exact hlast text more h
  | cons token front ih =>
    rw [List.cons_append] at h ⊢
    cases hwild : token.isWild with
    | false =>
      obtain ⟨c, others, rfl, hc, hothers⟩ := (matchesTokens_one hwild).1 h
      exact (matchesTokens_one hwild).2 ⟨c, _, rfl, hc, ih more hothers⟩
    | true =>
      cases token with
      | anyText =>
        obtain ⟨suffix, ⟨before, rfl⟩, hsuffix⟩ := matchesTokens_anyText.1 h
        exact matchesTokens_anyText.2 ⟨_, ⟨before, by simp⟩, ih more hsuffix⟩
      | directories =>
        obtain ⟨suffix, rfl | rfl | ⟨before, rfl⟩, hsuffix⟩ := matchesTokens_directories.1 h
        · exact matchesTokens_directories.2 ⟨_, .inl rfl, ih more hsuffix⟩
        · -- the rest describes the empty text, so it also describes all that there is now
          have hall := ih (text ++ more) hsuffix
          exact matchesTokens_directories.2 ⟨_, .inl rfl, hall⟩
        · exact matchesTokens_directories.2
            ⟨_, .inr (.inr ⟨before, by simp⟩), ih more hsuffix⟩
      | _ => cases hwild

theorem Loose.isWild (htail : Loose tail) (h : token ∈ tail) : token.isWild = false := by
  cases htail with
  | nil => cases h
  | snoc hinit hlast =>
    rcases List.mem_append.1 h with hinside | hend
    · exact isWild_of_holds (hinit token hinside '/')
    · rw [List.mem_singleton.1 hend]
      exact isWild_of_holds hlast

theorem Loose.length_le (htail : Loose tail) (h : matchesTokens (.anyText :: tail) text) :
    tail.length ≤ text.length := by
  obtain ⟨suffix, hsuffix, hmatch⟩ := matchesTokens_anyText.1 h
  have hlength := ((matchesTokens_iff_forall₂ fun _ ↦ htail.isWild).1 hmatch).length_eq
  exact hlength.trans_le hsuffix.length_le

/-- The star takes up as much as leaves one character for each token behind it. -/
theorem Loose.matchesTokens_anyText (htail : Loose tail) (h : tail.length ≤ text.length) :
    matchesTokens (.anyText :: tail) (text ++ ['/']) := by
  rw [Glob.matchesTokens_anyText]
  have hsingle : ∀ token ∈ tail, token.isWild = false := fun _ ↦ htail.isWild
  cases htail with
  | nil => exact ⟨[], List.nil_suffix, rfl⟩
  | @snoc init last hinit hlast =>
    rw [List.length_append, List.length_singleton] at h
    refine ⟨text.drop (text.length - init.length) ++ ['/'], ?_, ?_⟩
    · obtain ⟨before, hbefore⟩ := List.drop_suffix (text.length - init.length) text
      exact ⟨before, by rw [← List.append_assoc, hbefore]⟩
    · rw [matchesTokens_iff_forall₂ hsingle]
      refine List.rel_append ?_ (.cons hlast .nil)
      refine List.forall₂_iff_zip.2 ⟨?_, fun hpair ↦ hinit _ (List.of_mem_zip hpair).1 _⟩
      rw [List.length_drop]
      omega

/-- An open pattern describes what lies below a text that it describes. -/
theorem Open.matchesTokens_append {tokens : List Token} (hopen : Open tokens) (more : List Char)
    (h : matchesTokens tokens text) : matchesTokens tokens (text ++ more ++ ['/']) := by
  cases hopen with
  | directories front =>
    refine Glob.matchesTokens_append (fun _ _ _ ↦ ?_) more h
    exact matchesTokens_directories.2 ⟨[], .inr (.inl rfl), rfl⟩
  | anyText front htail =>
    refine Glob.matchesTokens_append (fun text more hmatch ↦ ?_) more h
    refine htail.matchesTokens_anyText ((htail.length_le hmatch).trans ?_)
    simp

/-- Tokens behind which a directory begins: none, or a slash at their end, or more directories. -/
inductive AtStart : List Token → Prop
  | nil : AtStart []
  | slash (front : List Token) : AtStart (front ++ [.char '/'])
  | directories {front : List Token} (h : AtStart front) : AtStart (front ++ [.directories])

/-- Two stars stand only where a directory begins, if `prior` stands before the tokens. -/
def Placed (prior tokens : List Token) : Prop :=
  ∀ front rest, tokens = front ++ .directories :: rest → AtStart (prior ++ front)

theorem Placed.cons {prior tokens : List Token} (h : Placed (prior ++ [token]) tokens)
    (htoken : token = .directories → AtStart prior) : Placed prior (token :: tokens) := by
  intro front rest hsame
  cases front with
  | nil =>
    rw [List.append_nil]
    exact htoken (List.cons.inj hsame).1
  | cons first front =>
    obtain ⟨rfl, htokens⟩ := List.cons.inj hsame
    have hstart := h front rest htokens
    rwa [List.append_assoc] at hstart

theorem exists_of_map_cons {found : Except Fault (List Token)} {tokens : List Token}
    (h : found.map (token :: ·) = .ok tokens) :
    ∃ others, found = .ok others ∧ tokens = token :: others := by
  cases found with
  | error fault => cases h
  | ok others => exact ⟨others, rfl, (Except.ok.inj h).symm⟩

theorem isWild_of_class? {after : List Char} (h : class? text = some (token, after)) :
    token.isWild = false := by
  unfold class? at h
  split at h
  · obtain ⟨_, -, hsame⟩ := Option.map_eq_some_iff.1 h
    rw [← (Prod.mk.inj hsame).1]
    rfl
  · cases h
  · obtain ⟨_, -, hsame⟩ := Option.map_eq_some_iff.1 h
    rw [← (Prod.mk.inj hsame).1]
    rfl
  · cases h

/-- Whatever character is read before tokens, two stars among them stand where a directory begins.
-/
theorem placed_of_tokens {position : Nat} {before : Option Char} {prior tokens : List Token}
    (hbefore : (before.isNone || before == some '/') = true → AtStart prior)
    (h : Glob.tokens position before text = .ok tokens) : Placed prior tokens := by
  have hnil (prior : List Token) : Placed prior [] := by
    intro front rest hsame
    cases front <;> cases hsame
  fun_induction Glob.tokens position before text generalizing prior tokens with
  | case1 =>
    cases h
    exact hnil prior
  | case2 position before rest ih =>
    obtain ⟨others, hothers, rfl⟩ := exists_of_map_cons h
    exact (ih (by simp) hothers).cons (by simp)
  | case3 => cases h
  | case4 position before hstart =>
    cases h
    exact (hnil _).cons fun _ ↦ hbefore hstart
  | case5 position before hstart after _ ih =>
    obtain ⟨others, hothers, rfl⟩ := exists_of_map_cons h
    exact (ih (fun _ ↦ (hbefore hstart).directories) hothers).cons fun _ ↦ hbefore hstart
  | case6 => cases h
  | case7 => cases h
  | case8 position before rest _ _ ih =>
    obtain ⟨others, hothers, rfl⟩ := exists_of_map_cons h
    exact (ih (by simp) hothers).cons (by simp)
  | case9 position before rest token after hclass _ ih =>
    obtain ⟨others, hothers, rfl⟩ := exists_of_map_cons h
    refine (ih (by simp) hothers).cons fun hsame ↦ ?_
    have hwild := isWild_of_class? hclass
    rw [hsame] at hwild
    cases hwild
  | case10 => cases h
  | case11 position before c rest _ _ _ _ _ ih =>
    obtain ⟨others, hothers, rfl⟩ := exists_of_map_cons h
    refine (ih (fun hslash ↦ ?_) hothers).cons (by simp)
    obtain rfl : c = '/' := by simpa using hslash
    exact .slash prior

/-- In a pattern that was parsed, two stars stand only where a directory begins. -/
theorem placed_of_parse {pattern : Pattern} {source : String}
    (h : Pattern.parse source = .ok pattern) : Placed [] pattern.tokens := by
  unfold Pattern.parse at h
  cases htokens : Glob.tokens 0 none source.toList with
  | error fault =>
    rw [htokens] at h
    cases h
  | ok tokens =>
    rw [htokens] at h
    cases h
    exact placed_of_tokens (fun _ ↦ .nil) htokens

/-- Tokens behind which a directory begins describe a text up to its start or a slash in it, unless
the tokens behind them describe the empty text. -/
theorem AtStart.exists_suffix (hfront : AtStart front) (hrest : ¬ matchesTokens rest [])
    (h : matchesTokens (front ++ rest) text) :
    ∃ suffix, matchesTokens rest suffix ∧ (suffix = text ∨ '/' :: suffix <:+ text) := by
  induction hfront generalizing rest with
  | nil => exact ⟨text, h, .inl rfl⟩
  | slash front =>
    rw [List.append_assoc] at h
    obtain ⟨_, hsuffix, hmatch⟩ := exists_suffix_of_matchesTokens h
    obtain ⟨c, suffix, rfl, hc, hothers⟩ := (matchesTokens_one rfl).1 hmatch
    obtain rfl : c = '/' := beq_iff_eq.1 hc
    exact ⟨suffix, hothers, .inr hsuffix⟩
  | directories _ ih =>
    rw [List.append_assoc] at h
    have hempty : ¬ matchesTokens (.directories :: rest) [] := by
      rw [matchesTokens_directories]
      rintro ⟨suffix, rfl | rfl | hslash, hmatch⟩
      · exact hrest hmatch
      · exact hrest hmatch
      · cases List.suffix_nil.1 hslash
    obtain ⟨text', hmatch, htext⟩ := ih hempty h
    obtain ⟨suffix, rfl | rfl | hslash, hsuffix⟩ := matchesTokens_directories.1 hmatch
    · exact ⟨suffix, hsuffix, htext⟩
    · exact absurd hsuffix hrest
    · refine ⟨suffix, hsuffix, .inr ?_⟩
      rcases htext with rfl | hbehind
      · exact hslash
      · exact hslash.trans ((List.suffix_cons '/' text').trans hbehind)

/-! ## Patterns that are not open -/

/-- A text that cannot stand below a path in what tokens describe, be it followed by a slash or
not. -/
def Blocks (tokens : List Token) (below : List Char) : Prop :=
  ∀ path ending, ending = [] ∨ ending = ['/'] →
    ¬ matchesTokens tokens (path ++ '/' :: below ++ ending)

/-- Tokens end in some that are not wild, and the last wild one stands before those. -/
theorem exists_split (tokens : List Token) :
    ∃ front tail, tokens = front ++ tail ∧ (∀ token ∈ tail, token.isWild = false) ∧
      (front = [] ∨ ∃ before, front = before ++ [.anyText] ∨ front = before ++ [.directories]) := by
  induction tokens using List.reverseRecOn with
  | nil => exact ⟨[], [], rfl, by simp, .inl rfl⟩
  | append_singleton tokens token ih =>
    cases hwild : token.isWild with
    | false =>
      obtain ⟨front, tail, rfl, htail, hfront⟩ := ih
      refine ⟨front, tail ++ [token], by simp, fun other hother ↦ ?_, hfront⟩
      rcases List.mem_append.1 hother with hmem | hlast
      · exact htail other hmem
      · rwa [List.mem_singleton.1 hlast]
    | true =>
      refine ⟨tokens ++ [token], [], by simp, by simp, .inr ⟨tokens, ?_⟩⟩
      cases token with
      | anyText => exact .inl rfl
      | directories => exact .inr rfl
      | _ => cases hwild

/-- In a text that ends in a repeated character and another text, an end that is not longer than the
repetition begins with the repeated character. -/
theorem getElem_of_suffix {path suffix ending : List Char} {count : Nat} {d : Char}
    (h : suffix <:+ path ++ '/' :: List.replicate count d ++ ending) (hcount : suffix.length ≤ count)
    {i : Nat} (hi : i + ending.length < suffix.length) : suffix[i] = d := by
  have hlong : suffix <:+ List.replicate count d ++ ending := by
    refine List.suffix_of_suffix_length_le h ⟨path ++ ['/'], by simp⟩ ?_
    rw [List.length_append, List.length_replicate]
    omega
  rw [hlong.getElem]
  have hindex : (List.replicate count d ++ ending).length - suffix.length + i < count := by
    rw [List.length_append, List.length_replicate]
    omega
  rw [List.getElem_append_left (by rwa [List.length_replicate]), List.getElem_replicate]

theorem blocks_of_single (h : ∀ token ∈ tail, token.isWild = false) :
    Blocks tail (List.replicate tail.length 'x') := by
  intro path ending _ hmatch
  have hlength := ((matchesTokens_iff_forall₂ h).1 hmatch).length_eq
  simp only [List.length_append, List.length_cons, List.length_replicate] at hlength
  omega

/-- Behind two stars there is place only for as many characters as there are tokens. -/
theorem blocks_of_directories (hfront : AtStart front)
    (h : ∀ token ∈ tail, token.isWild = false) (hne : tail ≠ []) :
    Blocks (front ++ tail) (List.replicate (tail.length + 1) 'x') := by
  intro path ending hending hmatch
  have hempty : ¬ matchesTokens tail [] := by
    rw [matchesTokens_iff_forall₂ h, List.forall₂_nil_right_iff]
    exact hne
  have hpos := List.length_pos_iff.2 hne
  have hshort : ending.length ≤ 1 := by
    rcases hending with rfl | rfl <;> simp
  obtain ⟨suffix, hsuffix, htext⟩ := hfront.exists_suffix hempty hmatch
  have hlength := ((matchesTokens_iff_forall₂ h).1 hsuffix).length_eq
  rcases htext with rfl | hslash
  · simp only [List.length_append, List.length_cons, List.length_replicate] at hlength
    omega
  · have hfirst := getElem_of_suffix hslash (by rw [List.length_cons]; omega) (i := 0)
      (by rw [List.length_cons]; omega)
    cases hfirst

/-- If a token before the last one does not hold for a character, a text of such characters is too
much for it. -/
theorem blocks_of_not_holds {init : List Token} {last : Token} {d : Char}
    (h : ∀ token ∈ init ++ [last], token.isWild = false) (htoken : token ∈ init)
    (hd : ¬ token.holds d) :
    Blocks (front ++ (init ++ [last])) (List.replicate (init.length + 1) d) := by
  intro path ending hending hmatch
  obtain ⟨suffix, hsuffix, hend⟩ := exists_suffix_of_matchesTokens hmatch
  have hholds := (matchesTokens_iff_forall₂ h).1 hend
  have hlength := hholds.length_eq
  rw [List.length_append, List.length_singleton] at hlength
  obtain ⟨i, hi, rfl⟩ := List.getElem_of_mem htoken
  have hshort : ending.length ≤ 1 := by
    rcases hending with rfl | rfl <;> simp
  have hchar : suffix[i] = d := getElem_of_suffix hsuffix hlength.ge (by omega)
  have hboth := hholds.get (i := i) (by simp; omega) (by omega)
  simp only [List.get_eq_getElem, hchar, List.getElem_append_left hi] at hboth
  exact hd hboth

/-- If the last token does not hold for a slash, a slash at the end is too much for it. -/
theorem blocks_of_last {last : Token} (hlast : last.isWild = false) (hslash : ¬ last.holds '/') :
    Blocks (front ++ [last]) ['x', '/'] := by
  intro path ending hending hmatch
  obtain ⟨suffix, ⟨before, hbefore⟩, hend⟩ := exists_suffix_of_matchesTokens hmatch
  obtain ⟨c, others, rfl, hc, hothers⟩ := (matchesTokens_one hlast).1 hend
  obtain rfl : others = [] := List.isEmpty_iff.1 hothers
  have hsame := congrArg List.getLast? hbefore
  have hc' : c = '/' := by
    rcases hending with rfl | rfl <;> simpa using hsame
  exact hslash (hc' ▸ hc)

/-- Below no path at all does a pattern that is not open describe everything. -/
theorem exists_blocks {pattern : Pattern} {source : String}
    (h : Pattern.parse source = .ok pattern) (hopen : ¬ Open pattern.tokens) :
    ∃ below, Blocks pattern.tokens below := by
  obtain ⟨front, tail, htokens, htail, hfront⟩ := exists_split pattern.tokens
  rw [htokens] at hopen ⊢
  rcases hfront with rfl | ⟨before, rfl | rfl⟩
  · exact ⟨_, blocks_of_single htail⟩
  · have hloose : ¬ Loose tail := fun hloose ↦ hopen (by
      rw [List.append_assoc]
      exact .anyText before hloose)
    rcases List.eq_nil_or_concat' tail with rfl | ⟨init, last, rfl⟩
    · exact absurd .nil hloose
    · by_cases hslash : last.holds '/'
      · have hinit : ¬ ∀ token ∈ init, ∀ c, token.holds c := fun hinit ↦
          hloose (.snoc hinit hslash)
        push Not at hinit
        obtain ⟨token, htoken, d, hd⟩ := hinit
        exact ⟨_, blocks_of_not_holds htail htoken hd⟩
      · rw [← List.append_assoc]
        exact ⟨_, blocks_of_last (htail last (by simp)) hslash⟩
  · rcases eq_or_ne tail [] with rfl | hne
    · exact absurd (by simpa using Open.directories before) hopen
    · have hstart := placed_of_parse h before tail (by rw [htokens]; simp)
      exact ⟨_, blocks_of_directories hstart.directories htail hne⟩

end Phrasebook.Glob
