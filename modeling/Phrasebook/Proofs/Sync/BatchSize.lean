import Phrasebook.Proofs.Catalog.RoundTrip
import Phrasebook.Proofs.Session.Alike
import Phrasebook.Proofs.Sync.Again

/-!
# The size of a batch

How the missing keys are cut into requests is no concern of a catalog: with a provider that answers
every request, and whose text for a key depends on nothing but the key, its template and the two
languages, the texts that come back are the same however the keys are cut. So is everything that is
made of them: what is reported for each locale, which changes of the disk are tried, and the files.
What is left to depend on the size are the requests themselves and the warnings, which count keys
batch by batch.
-/

namespace Phrasebook.Sync

/-- Every request is answered, and each key gets what the two languages, the key and its template
are translated to. -/
def AnswersBy (translate : String → String → String → String → Option String)
    (provider : Provider) : Prop :=
  ∀ earlier request, ∃ answer, provider earlier request = .ok answer ∧
    ∀ key template, request.keys.get? key = some template →
      answer.get? key = translate request.sourceLocale request.targetLocale key template

/-- Every request is answered, and what a key gets depends on the two languages, the key and its
template alone: neither on the requests before nor on what else is asked for. -/
def AnswersAlone (provider : Provider) : Prop :=
  ∃ translate, AnswersBy translate provider

variable {options : SyncOptions} {source : Catalog} {provider : Provider} {locale : String}
variable {entries batch : List (String × String)}

/-- What entries are filled with when each of them is asked for alone. -/
def filledAlone (translate : String → String → Option String) (entries : List (String × String)) :
    List (String × String) :=
  entries.filterMap fun entry ↦
    (((translate entry.1 entry.2).map Plural.normalize).filter
      fun text ↦ !Text.isBlankText text).map fun text ↦ (entry.1, text)

theorem textsFor_eq_filledAlone {answer : Catalog} {translate : String → String → Option String}
    (h : ∀ entry ∈ batch, answer.get? entry.1 = translate entry.1 entry.2) :
    textsFor answer batch = filledAlone translate batch := by
  unfold textsFor filledAlone answerFor?
  apply List.filterMap_congr
  intro entry hentry
  rw [h entry hentry]

/-- However entries are cut into batches, they are filled as if each of them were asked for
alone. -/
theorem fillings_eq_filledAlone {translate : String → String → String → String → Option String}
    (h : AnswersBy translate provider) (earlier : List ProviderRequest)
    {pieces : List (List (String × String))}
    (hnodup : (pieces.flatten.map Prod.fst).Nodup) :
    fillings (answersTo options provider locale earlier pieces) =
      filledAlone (translate options.sourceLocale locale) pieces.flatten := by
  induction pieces generalizing earlier with
  | nil => rfl
  | cons batch rest ih =>
    rw [List.flatten_cons, List.map_append] at hnodup
    obtain ⟨hbatch, hrest, -⟩ := List.nodup_append.1 hnodup
    obtain ⟨answer, hanswer, halone⟩ := h earlier (requestFor options locale batch)
    have hown : ∀ entry ∈ batch,
        answer.get? entry.1 = translate options.sourceLocale locale entry.1 entry.2 := by
      intro entry hentry
      refine halone entry.1 entry.2 (Catalog.get?_eq_some_iff.2 ?_)
      rw [requestFor, Catalog.entries_ofList hbatch]
      exact hentry
    rw [answersTo, fillings_cons, hanswer, textsOf, textsFor_eq_filledAlone hown, ih _ hrest,
      List.flatten_cons]
    exact List.filterMap_append.symm

/-- Filling a target does the same for any two ways of cutting the same entries. -/
theorem alike_fill (h : AnswersAlone provider) (size : Nat) (target : Catalog)
    {pieces others : List (List (String × String))} (hsame : others.flatten = pieces.flatten)
    (hnodup : (pieces.flatten.map Prod.fst).Nodup) :
    Run.Alike (fill { options with batchSize := size } provider locale target others)
      (fill options provider locale target pieces) := by
  obtain ⟨translate, hanswers⟩ := h
  intro host left right hfiles
  obtain ⟨_, hleft⟩ := start_fill { options with batchSize := size } provider locale host left
    target others
  obtain ⟨_, hright⟩ := start_fill options provider locale host right target pieces
  rw [hleft, hright, fillings_eq_filledAlone hanswers _ hnodup,
    fillings_eq_filledAlone hanswers _ (hsame ▸ hnodup), hsame]
  exact ⟨rfl, hfiles.disk, hfiles.changes⟩

theorem alike_read (path : Path) : Run.Alike (CatalogFile.read path) (CatalogFile.read path) := by
  intro host left right hfiles
  obtain ⟨_, hleft⟩ := CatalogFile.start_read host left path
  obtain ⟨_, hright⟩ := CatalogFile.start_read host right path
  rw [hleft, hright, hfiles.disk]
  exact ⟨rfl, rfl, hfiles.changes⟩

theorem alike_write (path : Path) (catalog : Catalog) :
    Run.Alike (CatalogFile.write path catalog) (CatalogFile.write path catalog) := by
  rw [CatalogFile.write_eq]
  refine Run.Alike.bind ?_ fun _ ↦ (Run.alike_writeText path catalog.write).adapt _
  unfold CatalogFile.makeRoom
  cases path.parent? with
  | none => exact Run.alike_pure ()
  | some parent => exact (Run.alike_ensureDirectories parent).adapt _

/-- What comes of a locale does not depend on the size of its batches when each key is answered
alone. -/
theorem alike_syncLocale (h : AnswersAlone provider) (size : Nat) :
    Run.Alike (syncLocale { options with batchSize := size } source (some provider) locale)
      (syncLocale options source (some provider) locale) := by
  unfold syncLocale
  refine (alike_read _).bind fun target ↦ Run.alike_ite (Run.alike_pure _) ?_
  have hflatten : ∀ size, (batches size (missing source target)).flatten = missing source target :=
    fun size ↦ (chunks_batches size _).flatten
  refine (alike_fill h size target ?_ ?_).bind fun filled ↦ ?_
  · rw [hflatten, hflatten]
  · rw [hflatten]
    exact keys_missing_nodup source target
  · dsimp only
    split
    · exact (alike_write _ _).bind fun _ ↦ Run.alike_pure _
    · exact Run.alike_pure _

theorem alike_outcomeOf (h : AnswersAlone provider) (size : Nat) :
    Run.Alike (outcomeOf { options with batchSize := size } source (some provider) locale)
      (outcomeOf options source (some provider) locale) := by
  refine (alike_syncLocale h size).outcome.bind fun answer ↦ ?_
  cases answer with
  | ok outcome => exact Run.alike_pure outcome
  | error cause => exact (Run.alike_warn _ _).bind fun _ ↦ Run.alike_pure _

/-- What comes of all locales does not depend on the size of the batches either. -/
theorem alike_syncAll (h : AnswersAlone provider) (size : Nat) (seen targets : List String) :
    Run.Alike (syncAll { options with batchSize := size } source (some provider) seen targets)
      (syncAll options source (some provider) seen targets) := by
  induction targets generalizing seen with
  | nil => exact Run.alike_pure []
  | cons locale rest ih =>
    rw [syncAll, syncAll]
    refine Run.alike_ite ((Run.alike_warn _ _).bind fun _ ↦ ih seen) (Run.alike_ite (ih seen) ?_)
    exact (alike_outcomeOf h size).bind fun outcome ↦
      (ih (locale :: seen)).bind fun others ↦ Run.alike_pure _

theorem alike_catalogs (h : AnswersAlone provider) (size : Nat) (targets : List String) :
    Run.Alike (catalogs { options with batchSize := size } targets (some provider))
      (catalogs options targets (some provider)) := by
  refine Run.alike_disk.bind fun disk ↦ ?_
  refine Run.alike_ite ((Run.alike_throw _).bind fun _ ↦ ?_) ?_
  all_goals exact ((alike_read _).adapt _).bind fun source ↦ alike_syncAll h size [] targets

/-- With a provider that always answers, and for each key by itself, the size of a batch makes no
difference: a synchronization reports the same for every locale, or fails with the same fault, tries
the same changes of the disk and leaves the same files behind. -/
theorem catalogs_batchSize (options : SyncOptions) (targets : List String) (provider : Provider)
    (host : Host) (session : Session) (size : Nat) (h : AnswersAlone provider) :
    let first := (catalogs options targets (some provider)).start host session
    let other :=
      (catalogs { options with batchSize := size } targets (some provider)).start host session
    other.1 = first.1 ∧ other.2.disk = first.2.disk ∧ other.2.changes = first.2.changes := by
  obtain ⟨hanswer, hfiles⟩ := alike_catalogs h size targets host session session (.refl session)
  exact ⟨hanswer, hfiles.disk, hfiles.changes⟩

theorem answersAlone_marking : AnswersAlone .marking := by
  refine ⟨fun _ locale _ template ↦ some (Provider.mark locale template), fun _ request ↦
    ⟨_, rfl, fun key template hkey ↦ ?_⟩⟩
  have hnodup : ((request.keys.entries.map fun entry ↦
      (entry.1, Provider.mark request.targetLocale entry.2)).map Prod.fst).Nodup := by
    rw [List.map_map]
    exact request.keys.keys_nodup
  rw [Catalog.get?_eq_some_iff, Catalog.entries_ofList hnodup]
  exact List.mem_map.2 ⟨(key, template), Catalog.get?_eq_some_iff.1 hkey, rfl⟩

/-- The catalogs in one directory, with one key asked for at a time. -/
def singly : SyncOptions :=
  ⟨⟨"/t"⟩, "en", 1⟩

theorem catalogs_batchSize_twoKeys :
    AnswersAlone .marking ∧
      ((catalogs singly ["fr", "de"] (some .marking)).start obligingHost
        (.start twoKeys)).1.toOption =
          some [⟨"fr", .translated 2 0⟩, ⟨"de", .translated 2 0⟩] ∧
      let first := (catalogs singly ["fr", "de"] (some .marking)).start obligingHost
        (.start twoKeys)
      let other := (catalogs ⟨singly.catalogDir, singly.sourceLocale, 2⟩ ["fr", "de"]
        (some .marking)).start obligingHost (.start twoKeys)
      other.1 = first.1 ∧ other.2.disk = first.2.disk ∧ other.2.changes = first.2.changes := by
  refine ⟨answersAlone_marking, by decide +kernel, ?_⟩
  exact catalogs_batchSize singly ["fr", "de"] .marking obligingHost (.start twoKeys) 2
    answersAlone_marking

end Phrasebook.Sync
