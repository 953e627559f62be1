import Mathlib.Data.List.Perm.Subperm
import Phrasebook.Proofs.Check.Run
import Phrasebook.Proofs.Extraction.Dry

/-!
# A check and a dry run

A check and a dry run look at the same sources. They find the same texts and the same sources that
cannot be read. The dry run lets its catalog grow from source to source, so a lookup whose key is
new by then goes unreported there; every other lookup of an unknown key is reported by both.
-/

namespace Phrasebook.Check

open Extraction (Progress dryVisit)

variable {project : Project} {disk : Disk} {initial catalog : KeyedCatalog} {path : Path}
variable {code : String} {module : Syntax.Module} {files : List Path}

/-- Whether an issue is about a source that cannot be read. -/
def isUnreadable : Issue → Bool
  | .unreadable _ _ => true
  | _ => false

def isUnknownKey : Issue → Bool
  | .unknownKey _ _ _ => true
  | _ => false

/-- The issues of a pass are among those of another one, which has no further source that cannot be
read. -/
structure IssuesWithin (fewer more : List Issue) : Prop where
  sublist : fewer.Sublist more
  unreadable : fewer.filter isUnreadable = more.filter isUnreadable

theorem IssuesWithin.refl (issues : List Issue) : IssuesWithin issues issues :=
  ⟨List.Sublist.refl issues, rfl⟩

theorem IssuesWithin.append {first second fewer more : List Issue}
    (hfirst : IssuesWithin first second) (hothers : IssuesWithin fewer more) :
    IssuesWithin (first ++ fewer) (second ++ more) where
  sublist := hfirst.sublist.append hothers.sublist
  unreadable := by
    rw [List.filter_append, List.filter_append, hfirst.unreadable, hothers.unreadable]

theorem filter_isUnreadable_unknownIn (project : Project) (catalog : KeyedCatalog) (path : Path)
    (code : String) (module : Syntax.Module) :
    (unknownIn project catalog path code module).filter isUnreadable = [] := by
  rw [List.filter_eq_nil_iff]
  intro issue hissue
  obtain ⟨reference, -, rfl⟩ := List.mem_map.1 hissue
  exact Bool.false_ne_true

/-- A catalog that has grown lacks fewer keys. -/
theorem unknownIn_within {added : List (String × String)} (hgrown : initial.GrownBy catalog added)
    (project : Project) (path : Path) (code : String) (module : Syntax.Module) :
    IssuesWithin (unknownIn project catalog path code module)
      (unknownIn project initial path code module) where
  sublist := by
    refine List.Sublist.map _ (List.monotone_filter_right _ fun reference hunknown ↦ ?_)
    rw [Bool.not_eq_true'] at hunknown ⊢
    by_contra hknown
    rw [Bool.not_eq_false] at hknown
    rw [hgrown.contains hknown] at hunknown
    cases hunknown
  unreadable := by
    rw [filter_isUnreadable_unknownIn, filter_isUnreadable_unknownIn]

theorem unknownIn_congr (h : catalog.entries = initial.entries) (project : Project) (path : Path)
    (code : String) (module : Syntax.Module) :
    unknownIn project catalog path code module = unknownIn project initial path code module := by
  unfold unknownIn KeyedCatalog.contains
  rw [h]

/-- What a dry pass over sources adds to a progress, next to what a check finds in them with the
catalog that the pass began with. -/
structure Agrees (initial : KeyedCatalog) (pending : Nat) (found : List Issue)
    (before after : Progress) : Prop where
  filesScanned : after.report.filesScanned = before.report.filesScanned
  replacements : after.report.replacements = before.report.replacements + pending
  indexed : after.catalog.Indexed
  grown : ∃ added, initial.GrownBy after.catalog added
  issues : ∃ issues, after.report.issues = before.report.issues ++ issues ∧
    IssuesWithin issues found ∧
    (after.report.newKeys = before.report.newKeys → before.catalog.entries = initial.entries →
      after.catalog.entries = initial.entries ∧ issues = found)
  newKeys : before.report.newKeys ≤ after.report.newKeys

theorem agrees_addIssue {progress : Progress} {added : List (String × String)}
    (hindexed : progress.catalog.Indexed) (hgrown : initial.GrownBy progress.catalog added)
    (issue : Issue) : Agrees initial 0 [issue] progress (progress.addIssue issue) where
  filesScanned := rfl
  replacements := rfl
  indexed := hindexed
  grown := ⟨added, hgrown⟩
  issues := ⟨[issue], rfl, .refl _, fun _ hsame ↦ ⟨hsame, rfl⟩⟩
  newKeys := Nat.le_refl _

/-- A dry visit counts the texts of a source that a check finds pending there, and reports no lookup
that the check does not report. -/
theorem agrees_dryVisit {progress next : Progress} {added : List (String × String)}
    (hindexed : progress.catalog.Indexed) (hgrown : initial.GrownBy progress.catalog added)
    (h : dryVisit project disk progress path = .ok next) :
    Agrees initial (pendingOf project disk path) (issuesOf project disk initial path) progress
      next := by
  unfold dryVisit at h
  unfold pendingOf issuesOf readModule
  cases hread : disk.readText path with
  | error cause =>
    rw [hread] at h
    cases h
    exact agrees_addIssue hindexed hgrown _
  | ok code =>
    rw [hread] at h
    dsimp only at h ⊢
    cases hconvert : Conversion.ofSource (Extraction.optionsOf project) path
        (Extraction.scopeOf project path) code progress.catalog with
    | error fault =>
      rw [hconvert] at h
      cases fault with
      | cutsCharacter => cases h
      | unreadable =>
        cases h
        have hmodule : Syntax.Module.parse? path.hasMarkup code = none :=
          Conversion.parse?_eq_none_of_unreadable hconvert
        rw [hmodule]
        exact agrees_addIssue hindexed hgrown _
    | ok outcome =>
      rw [hconvert] at h
      cases h
      obtain ⟨conversion, after⟩ := outcome
      obtain ⟨calls, minted, hconverted⟩ := Conversion.converted_of_ofSource hindexed hconvert
      obtain ⟨module, hmodule, hcount, hunknown⟩ := Conversion.found_of_ofSource hconvert
      have hissues : conversion.unknownKeys.map (Extraction.unknownKeyIssue (project.shown path)
          code) = unknownIn project progress.catalog path code module := by
        rw [hunknown]
        rfl
      rw [hmodule]
      unfold Extraction.noteUnknown
      dsimp only
      rw [Extraction.foldl_addIssue, hissues]
      refine
        { filesScanned := rfl
          replacements := congrArg (progress.report.replacements + ·) hcount
          indexed := hconverted.assigned.indexed
          grown := ⟨added ++ minted, hgrown.trans hconverted.assigned.grown⟩
          issues := ⟨_, rfl, unknownIn_within hgrown project path code module, ?_⟩
          newKeys := Nat.le_add_right _ _ }
      intro hnew hsame
      refine ⟨?_, unknownIn_congr hsame project path code module⟩
      have hnone : minted = [] := by
        have hzero : conversion.newKeys = 0 := Nat.add_eq_left.1 hnew
        exact List.length_eq_zero_iff.1 (hconverted.newKeys.symm.trans hzero)
      subst hnone
      exact hconverted.assigned.grown.entries_eq.trans hsame

/-- Two agreements one after the other are one about the sources of both. -/
theorem Agrees.trans {before middle after : Progress} {first others : Nat}
    {found more : List Issue} (hfirst : Agrees initial first found before middle)
    (hothers : Agrees initial others more middle after) :
    Agrees initial (first + others) (found ++ more) before after where
  filesScanned := hothers.filesScanned.trans hfirst.filesScanned
  replacements := by rw [hothers.replacements, hfirst.replacements, Nat.add_assoc]
  indexed := hothers.indexed
  grown := hothers.grown
  issues := by
    obtain ⟨issues, hissues, hwithin, hsame⟩ := hfirst.issues
    obtain ⟨rest, hrest, hwithinRest, hsameRest⟩ := hothers.issues
    refine ⟨issues ++ rest, ?_, hwithin.append hwithinRest, ?_⟩
    · rw [hrest, hissues, List.append_assoc]
    · intro hnew hbegin
      have hless := hfirst.newKeys
      have hlater := hothers.newKeys
      obtain ⟨hmiddle, rfl⟩ := hsame (by omega) hbegin
      obtain ⟨hend, rfl⟩ := hsameRest (by omega) hmiddle
      exact ⟨hend, rfl⟩
  newKeys := Nat.le_trans hfirst.newKeys hothers.newKeys

/-- A dry pass that gets through its sources agrees with a check of them. -/
theorem agrees_foldlM {progress last : Progress} {added : List (String × String)}
    (hindexed : progress.catalog.Indexed) (hgrown : initial.GrownBy progress.catalog added)
    (h : files.foldlM (dryVisit project disk) progress = .ok last) :
    Agrees initial (files.map (pendingOf project disk)).sum
      (files.flatMap (issuesOf project disk initial)) progress last := by
  induction files generalizing progress added with
  | nil =>
    cases h
    exact
      { filesScanned := rfl
        replacements := rfl
        indexed := hindexed
        grown := ⟨added, hgrown⟩
        issues := ⟨[], (List.append_nil _).symm, .refl _, fun _ hsame ↦ ⟨hsame, rfl⟩⟩
        newKeys := Nat.le_refl _ }
  | cons path rest ih =>
    rw [List.foldlM_cons] at h
    cases hdry : dryVisit project disk progress path with
    | error fault =>
      rw [hdry] at h
      cases h
    | ok next =>
      rw [hdry] at h
      have hvisit : Agrees initial (pendingOf project disk path)
          (issuesOf project disk initial path) progress next := agrees_dryVisit hindexed hgrown hdry
      obtain ⟨more, hmore⟩ := hvisit.grown
      rw [List.map_cons, List.sum_cons, List.flatMap_cons]
      exact hvisit.trans (ih hvisit.indexed hmore h)

variable {host otherHost : Host} {session other final otherFinal : Session}
variable {report : CheckReport} {dry : ExtractionReport}

/-- A check and a dry run of the same disk that succeed count the same sources and the same texts
and report the same sources that cannot be read. The check reports every lookup of an unknown key
that the dry run reports, and no other one when the dry run mints no key. -/
theorem run_agrees_dryRun (hcheck : (run project).start host session = (.ok report, final))
    (hdry : (Extraction.run project true).start otherHost other = (.ok dry, otherFinal))
    (hdisk : other.disk = session.disk) :
    report.pending = dry.replacements ∧ report.filesScanned = dry.filesScanned ∧
      (report.issues.filter isUnreadable).Perm (dry.issues.filter isUnreadable) ∧
      (dry.issues.filter isUnknownKey).Subperm (report.issues.filter isUnknownKey) ∧
      (dry.newKeys = 0 →
        (report.issues.filter isUnknownKey).Perm (dry.issues.filter isUnknownKey)) := by
  obtain ⟨initial, files, hstored, hscanned, rfl, -⟩ := run_ok hcheck
  obtain ⟨same, sources, progress, hsame, hsources, hfolded, rfl, -⟩ := Extraction.run_dry_ok hdry
  rw [hdisk] at hsame hsources hfolded
  cases hstored.symm.trans hsame
  cases hscanned.symm.trans hsources
  have hagrees : Agrees (.ofCatalog initial) _ _ (.begin initial files) progress :=
    agrees_foldlM (KeyedCatalog.indexed_ofCatalog initial) (.refl _) hfolded
  have hperm := perm_issues project session.disk initial files
  obtain ⟨issues, hissues, hwithin, hminted⟩ := hagrees.issues
  have hreported : progress.report.issues = issues := hissues
  rw [hreported]
  refine ⟨?_, ?_, ?_, ?_, ?_⟩
  · exact (hagrees.replacements.trans (Nat.zero_add _)).symm
  · exact hagrees.filesScanned.symm
  · rw [hwithin.unreadable]
    exact hperm.filter isUnreadable
  · exact ((hwithin.sublist.filter isUnknownKey).subperm).trans
      (hperm.filter isUnknownKey).symm.subperm
  · intro hnone
    obtain ⟨-, rfl⟩ := hminted hnone rfl
    exact hperm.filter isUnknownKey

/-- A source with a text and a lookup of a key that no catalog has. -/
def greetingLookup : String :=
  "import \x7b t \x7d from \"localise-ai-sdk\";\n" ++
    "const a = <p title=\x7bt(\"a.lost\")\x7d>Hello</p>;\n"

def greetingLookupDisk : Disk where
  nodes :=
    [(["p"], .directory), (["p", "src"], .directory),
      (["p", "src", "a.tsx"], .file greetingLookup.toUTF8)]
  workingDirectory := ["p"]

theorem run_agrees_dryRun_greetingLookup :
    ∃ report final dry otherFinal,
      (run Extraction.plainProject).start Extraction.quietHost (.start greetingLookupDisk) =
        (.ok report, final) ∧
      (Extraction.run Extraction.plainProject true).start Extraction.quietHost
        (.start greetingLookupDisk) = (.ok dry, otherFinal) ∧
      report.pending = 1 ∧ dry.replacements = 1 ∧ report.filesScanned = dry.filesScanned ∧
      (dry.issues.filter isUnknownKey).Subperm (report.issues.filter isUnknownKey) := by
  have hcheck : ((run Extraction.plainProject).start Extraction.quietHost
      (.start greetingLookupDisk)).1.toOption.map (·.pending) = some 1 := by
    decide +kernel
  have hdry : ((Extraction.run Extraction.plainProject true).start Extraction.quietHost
      (.start greetingLookupDisk)).1.toBool = true := by
    decide +kernel
  cases hfirst : (run Extraction.plainProject).start Extraction.quietHost
      (.start greetingLookupDisk) with
  | mk answer final =>
    rw [hfirst] at hcheck
    cases answer with
    | error cause => cases hcheck
    | ok report =>
      cases hsecond : (Extraction.run Extraction.plainProject true).start Extraction.quietHost
          (.start greetingLookupDisk) with
      | mk other otherFinal =>
        rw [hsecond] at hdry
        cases other with
        | error cause => cases hdry
        | ok dry =>
          have hpending : report.pending = 1 := Option.some.inj hcheck
          obtain ⟨hreplacements, hscanned, -, hunknown, -⟩ :=
            run_agrees_dryRun hfirst hsecond rfl
          exact ⟨report, final, dry, otherFinal, rfl, rfl, hpending,
            hreplacements.symm.trans hpending, hscanned, hunknown⟩

end Phrasebook.Check
