import Phrasebook.Proofs.Source.Sites
import Phrasebook.Proofs.Text.Blank

/-!
# What is found at a site

Whatever a pass finds was accepted by a rule, and no rule accepts a piece without a letter: the
template of a site is never blank.
-/

namespace Phrasebook

variable {excluded : List String} {found : Match}

namespace Rule

/-- The text between the interpolations of a literal stays in its template. -/
theorem mem_templateText?_of_literal {parts : List TemplatePart} {template text : String} {c : Char}
    (h : templateText? parts = some template) (hpart : .literal text ∈ parts)
    (hc : c ∈ text.toList) : c ∈ template.toList := by
  induction parts generalizing template with
  | nil => cases hpart
  | cons part rest ih =>
    cases part with
    | literal written =>
      obtain ⟨later, hlater, rfl⟩ := Option.map_eq_some_iff.1 h
      rw [String.toList_append, List.mem_append]
      rcases List.mem_cons.1 hpart with heq | hmem
      · cases heq
        exact .inl hc
      · exact .inr (ih hlater hmem)
    | identifier name =>
      obtain ⟨later, hlater, rfl⟩ := Option.map_eq_some_iff.1 h
      rw [String.toList_append, List.mem_append]
      rcases List.mem_cons.1 hpart with heq | hmem
      · cases heq
      · exact .inr (ih hlater hmem)
    | other => cases h

/-- No rule accepts a template literal without visible text. -/
theorem trim_ne_empty_of_matchTemplate {parts : List TemplatePart}
    (h : matchTemplate parts = some found) : Text.trim found.template ≠ "" := by
  unfold matchTemplate at h
  split at h
  · next template htemplate =>
    split at h
    · next hletters =>
      cases h
      obtain ⟨part, hpart, hletter⟩ := List.any_eq_true.1 hletters
      cases part with
      | literal text =>
        obtain ⟨c, hc, halphabetic⟩ := List.any_eq_true.1 hletter
        exact Text.trim_ne_empty (mem_templateText?_of_literal htemplate hpart hc)
          (Text.isBlank_of_isAlphabetic halphabetic)
      | identifier => cases hletter
      | other => cases hletter
    · cases h
  · cases h

/-- No rule accepts a conditional without visible text. -/
theorem trim_ne_empty_of_matchConditional {test : Option EqualityTest}
    {consequent alternate : Option String}
    (h : matchConditional test consequent alternate = some found) :
    Text.trim found.template ≠ "" := by
  unfold matchConditional at h
  split at h
  · dsimp only at h
    split at h
    · cases h
      have hbrace : Text.isBlank '\x7b' = false := by decide
      refine Text.trim_ne_empty ?_ hbrace
      simp [Plural.render]
    · cases h
  · cases h

/-- No rule accepts a blank template. -/
theorem trim_ne_empty_of_evaluate {candidate : Candidate}
    (h : evaluate excluded candidate = some found) : Text.trim found.template ≠ "" := by
  cases candidate with
  | text value =>
    simp only [evaluate, matchText] at h
    split at h
    · next hletter =>
      cases h
      exact Text.trim_ne_empty_of_containsAlphabetic hletter
    · cases h
  | «attribute» name value =>
    simp only [evaluate, matchAttribute] at h
    split at h
    · next haccepted =>
      cases h
      exact Text.trim_ne_empty_of_containsAlphabetic (Bool.and_eq_true_iff.1 haccepted).2
    · cases h
  | template parts => exact trim_ne_empty_of_matchTemplate h
  | conditional test consequent alternate => exact trim_ne_empty_of_matchConditional h

end Rule

namespace Collection

open Syntax

variable {text : List Char} {site : Site}

theorem exists_evaluate_of_siteOf? {node : Node} (h : siteOf? text excluded node = some site) :
    ∃ candidate, Rule.evaluate excluded candidate = some site.found := by
  unfold siteOf? at h
  split at h
  · obtain ⟨found, hfound, rfl⟩ := Option.map_eq_some_iff.1 h
    exact ⟨_, hfound⟩
  · unfold quotedSite? at h
    split at h
    · obtain ⟨found, hfound, rfl⟩ := Option.map_eq_some_iff.1 h
      exact ⟨_, hfound⟩
    · cases h
  · unfold templateSite? at h
    split at h
    · split at h
      · obtain ⟨parts, -, hparts⟩ := Option.bind_eq_some_iff.1 h
        obtain ⟨found, hfound, rfl⟩ := Option.map_eq_some_iff.1 hparts
        exact ⟨_, hfound⟩
      · cases h
    · cases h
  · unfold conditionalSite? at h
    split at h
    · obtain ⟨found, hfound, rfl⟩ := Option.map_eq_some_iff.1 h
      exact ⟨_, hfound⟩
    · cases h
  · cases h

mutual

/-- What is stored for a site is what a rule made of some candidate. -/
theorem exists_evaluate_of_mem_ofNode {node : Node}
    (h : site ∈ (ofNode text excluded node).sites) :
    ∃ candidate, Rule.evaluate excluded candidate = some site.found := by
  cases node with
  | mk kind span parts =>
    rw [sites_ofNode] at h
    split at h
    · next hsite =>
      rw [List.mem_singleton.1 h]
      exact exists_evaluate_of_siteOf? hsite
    · cases h
    · exact exists_evaluate_of_mem_ofNodes h

/-- Every site was found by a rule. -/
theorem exists_evaluate_of_mem_ofNodes {nodes : List Node}
    (h : site ∈ (ofNodes text excluded nodes).sites) :
    ∃ candidate, Rule.evaluate excluded candidate = some site.found := by
  cases nodes with
  | nil => cases h
  | cons node rest =>
    rw [ofNodes, sites_append] at h
    rcases List.mem_append.1 h with hnode | hrest
    · exact exists_evaluate_of_mem_ofNode hnode
    · exact exists_evaluate_of_mem_ofNodes hrest

end

/-- The template of a site is not blank. -/
theorem trim_ne_empty_of_mem_sites {module : Module} (h : site ∈ (ofModule excluded module).sites) :
    Text.trim site.found.template ≠ "" := by
  obtain ⟨candidate, hcandidate⟩ := exists_evaluate_of_mem_ofNodes h
  exact Rule.trim_ne_empty_of_evaluate hcandidate

end Collection

end Phrasebook
