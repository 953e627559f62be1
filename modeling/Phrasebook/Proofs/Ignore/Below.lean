import Phrasebook.Ignore
import Phrasebook.Proofs.Glob.Ending
import Phrasebook.Proofs.Path.Name

/-!
# What lies below an ignored path

Not every rule that excludes a path excludes what lies below it. A rule for names does, because the
names of a path are names of every path below it, and so does a rule whose pattern is open at its
end, as the pattern of a directory is. Any other rule describes the paths that it excludes as
wholes, and has an exception below each of them.
-/

namespace Phrasebook.IgnoreRules

variable {rule : IgnorePattern} {raws : List String}

/-- Whether a rule also excludes everything below the paths that it excludes. -/
def ReachesBelow (rule : IgnorePattern) : Prop :=
  rule.matchesNames = true ∨ Glob.Open rule.pattern.tokens

/-- A path below another one loses what the other one loses, unless the other one is the root. -/
theorem dropHere_append {path : List Char} (h : dropHere path ≠ ['.']) (below : List Char) :
    dropHere (path ++ '/' :: below) = dropHere path ++ '/' :: below := by
  fun_induction dropHere path with
  | case1 rest ih => exact ih h
  | case2 path hplain =>
    unfold dropHere
    split
    · next rest hrest =>
      match path with
      | [] => cases hrest
      | [c] =>
        obtain ⟨rfl, -⟩ := List.cons.inj hrest
        exact absurd rfl h
      | c :: d :: others =>
        obtain ⟨rfl, hothers⟩ := List.cons.inj hrest
        obtain ⟨rfl, -⟩ := List.cons.inj hothers
        exact absurd rfl (hplain others)
    · rfl

/-- Every rule comes from one of the texts of the ignore file. -/
theorem exists_of_mem_patterns (h : rule ∈ (ofPatterns raws).1.patterns) :
    ∃ raw ∈ raws, ofPattern raw = .ok rule := by
  induction raws with
  | nil => cases h
  | cons raw rest ih =>
    rw [ofPatterns] at h
    cases hrule : ofPattern raw with
    | error fault =>
      simp only [hrule] at h
      obtain ⟨other, hmem, hother⟩ := ih h
      exact ⟨other, List.mem_cons_of_mem _ hmem, hother⟩
    | ok first =>
      simp only [hrule] at h
      rcases List.mem_cons.1 h with rfl | hrest
      · exact ⟨raw, List.mem_cons_self, hrule⟩
      · obtain ⟨other, hmem, hother⟩ := ih hrest
        exact ⟨other, List.mem_cons_of_mem _ hmem, hother⟩

/-- A rule that reaches below excludes what lies below a path that it excludes. -/
theorem excludes_below (hreach : ReachesBelow rule) {path : List Char}
    (h : excludes rule path = true) (below : List Char) :
    excludes rule (path ++ '/' :: below) = true := by
  unfold excludes at h ⊢
  by_cases hnames : rule.matchesNames = true
  · rw [if_pos hnames] at h ⊢
    rw [Text.fields_append_cons, List.any_append, h, Bool.true_or]
  · rw [if_neg hnames, Bool.or_eq_true] at h ⊢
    have hopen := hreach.resolve_left hnames
    refine .inr ?_
    rcases h with hpath | hslash
    · exact hopen.matchesTokens_append ('/' :: below) hpath
    · have hmore := hopen.matchesTokens_append below hslash
      simpa using hmore

/-- A rule that does not reach below has an exception below every path. -/
theorem exists_not_excludes_below {raw : String} (hrule : ofPattern raw = .ok rule)
    (hreach : ¬ ReachesBelow rule) :
    ∃ below, ∀ path, excludes rule (path ++ '/' :: below) = false := by
  obtain ⟨hnames, hopen⟩ := not_or.1 hreach
  obtain ⟨pattern, hpattern, rfl⟩ : ∃ pattern,
      Glob.Pattern.parse (String.ofList (normalize raw.toList)) = .ok pattern ∧
        rule = ⟨pattern, !(normalize raw.toList).contains '/'⟩ := by
    unfold ofPattern at hrule
    cases hparse : Glob.Pattern.parse (String.ofList (normalize raw.toList)) with
    | error fault =>
      simp only [hparse] at hrule
      cases hrule
    | ok pattern =>
      simp only [hparse] at hrule
      exact ⟨pattern, rfl, (Except.ok.inj hrule).symm⟩
  obtain ⟨below, hblocks⟩ := Glob.exists_blocks hpattern hopen
  refine ⟨below, fun path ↦ ?_⟩
  have hpath := hblocks path [] (.inl rfl)
  have hslash := hblocks path ['/'] (.inr rfl)
  rw [List.append_nil] at hpath
  rw [excludes, if_neg hnames, Bool.or_eq_false_iff]
  exact ⟨Bool.eq_false_iff.2 hpath, Bool.eq_false_iff.2 hslash⟩

/-- What lies below a path that is not the root is ignored, if a rule excludes the path that reaches
below; a rule that does not reach below leaves out something below every path that it excludes. -/
theorem isIgnored_below {path : String} (hpath : dropHere path.toList ≠ ['.'])
    (hrule : rule ∈ (ofPatterns raws).1.patterns)
    (h : excludes rule (dropHere path.toList) = true) :
    (ReachesBelow rule → ∀ below, (ofPatterns raws).1.isIgnored (path ++ "/" ++ below) = true) ∧
      (¬ ReachesBelow rule →
        ∃ below, excludes rule (dropHere (path ++ "/" ++ below).toList) = false) := by
  have hbelow (below : String) : dropHere (path ++ "/" ++ below).toList =
      dropHere path.toList ++ '/' :: below.toList := by
    rw [String.toList_append, String.toList_append, List.append_assoc, ← dropHere_append hpath]
    rfl
  constructor
  · intro hreach below
    rw [isIgnored, List.any_eq_true, hbelow]
    exact ⟨rule, hrule, excludes_below hreach h below.toList⟩
  · intro hreach
    obtain ⟨raw, -, hraw⟩ := exists_of_mem_patterns hrule
    obtain ⟨below, hbelow'⟩ := exists_not_excludes_below hraw hreach
    refine ⟨String.ofList below, ?_⟩
    rw [hbelow, String.toList_ofList]
    exact hbelow' _

theorem isIgnored_below_generated :
    (ofPatterns ["*.stories.tsx", "./src/generated/"]).1.isIgnored
      ("./src/generated" ++ "/" ++ "api.ts") = true := by
  have hrule : ⟨⟨"src/generated/".toList.map .char ++ [.directories]⟩, false⟩ ∈
      (ofPatterns ["*.stories.tsx", "./src/generated/"]).1.patterns := by decide +kernel
  have hpath : dropHere "./src/generated".toList ≠ ['.'] := by decide
  exact (isIgnored_below hpath hrule (by decide +kernel)).1 (.inr (.directories _)) "api.ts"

/-- A pattern with a slash inside of it says nothing about what is below the path that it names, and
what excludes the root by its dot says nothing about paths that are seen from there. -/
theorem not_isIgnored_below :
    ((ofPatterns ["src/generated"]).1.isIgnored "src/generated" = true ∧
        (ofPatterns ["src/generated"]).1.isIgnored ("src/generated" ++ "/" ++ "api.ts") = false) ∧
      (ofPatterns ["?"]).1.isIgnored "." = true ∧
        (ofPatterns ["?"]).1.isIgnored ("." ++ "/" ++ "api.ts") = false := by
  decide +kernel

end Phrasebook.IgnoreRules
