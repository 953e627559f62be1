import Phrasebook.Proofs.Catalog.Furnished
import Phrasebook.Proofs.Sync.Batch

/-!
# The turn of one locale

A locale has its turn once: its catalog is read, its missing keys are asked for, and its file is
written when something came back. `Filled` says everything that a turn which does not fail amounts
to, in terms of the catalog that was read and the answers of the provider. Whether or not it fails,
a turn sends requests for its own locale only and changes no file but its own.
-/

namespace Phrasebook.Sync

/-- A locale with what came of it, and the sessions before and after its turn. -/
structure Turn where
  report : LocaleReport
  before : Session
  after : Session

namespace Turn

def Failed (turn : Turn) : Prop :=
  ∃ reason, turn.report.outcome = .failed reason

def path (options : SyncOptions) (turn : Turn) : Path :=
  CatalogFile.pathOf options.catalogDir turn.report.locale

/-- The batches of a locale with the answers of a provider, which knows what it was asked before. -/
def answers (options : SyncOptions) (source : Catalog) (provider : Provider) (target : Catalog)
    (turn : Turn) : List (List (String × String) × Except ProviderFault Catalog) :=
  answersTo options provider turn.report.locale turn.before.requests
    (batches options.batchSize (missing source target))

/-- A turn was taken, beginning in one session and ending in the other. -/
def Taken (options : SyncOptions) (source : Catalog) (provider : Provider) (host : Host)
    (turn : Turn) : Prop :=
  (outcomeOf options source (some provider) turn.report.locale).start host turn.before =
    (.ok turn.report.outcome, turn.after)

end Turn

/-- What a turn amounts to that found a target and filled it with texts. -/
structure Filled (options : SyncOptions) (source target : Catalog)
    (answers : List (List (String × String) × Except ProviderFault Catalog))
    (texts : List (String × String)) (filled : Catalog) (turn : Turn) : Prop where
  /-- The missing keys are asked for in consecutive batches. -/
  chunked : Chunks (max options.batchSize 1) (missing source target) (answers.map Prod.fst)
  requests : turn.after.requests =
    turn.before.requests ++ answers.map fun entry ↦ requestFor options turn.report.locale entry.1
  /-- A missing key is filled from the answer to its own batch, when that gives a text. -/
  own {batch : List (String × String)} {answer : Except ProviderFault Catalog} {key : String} :
    (batch, answer) ∈ answers → key ∈ batch.map Prod.fst →
      texts.lookup key = answer.toOption.bind (answerFor? · key)
  keys : (texts.map Prod.fst).Sublist ((missing source target).map Prod.fst)
  /-- Old entries keep their places, and new ones follow in the order of the source. -/
  entries : filled.entries =
    target.entries.map (fun entry ↦ (entry.1, (texts.lookup entry.1).getD entry.2)) ++
      texts.filter fun entry ↦ !target.contains entry.1
  upToDate : missing source target = [] →
    turn.report.outcome = .upToDate ∧ turn.after.requests = turn.before.requests ∧ texts = []
  translated : missing source target ≠ [] → ∃ failed,
    turn.report.outcome = .translated texts.length failed ∧
      texts.length + failed = (missing source target).length
  unwritten : texts = [] →
    turn.after.disk = turn.before.disk ∧ turn.after.changes = turn.before.changes
  written : texts ≠ [] → ∃ place created, turn.after.disk.locate (turn.path options) = .ok place ∧
    turn.after.changes = turn.before.changes ++
      List.map .create created ++ [.write place filled.write.toUTF8] ∧
    turn.after.disk.readText (turn.path options) = .ok filled.write

variable {options : SyncOptions} {source target : Catalog} {provider : Provider} {host : Host}
variable {before after : Session} {locale : String} {outcome : LocaleOutcome} {turn : Turn}

/-! ## A turn that does not fail -/

theorem keys_missing_nodup (source target : Catalog) :
    ((missing source target).map Prod.fst).Nodup :=
  source.keys_nodup.sublist (List.filter_sublist.map Prod.fst)

variable (source provider host) in
theorem start_syncLocale_unread {fault : CatalogFile.Fault}
    (h : CatalogFile.stored before.disk (CatalogFile.pathOf options.catalogDir locale) =
      .error fault) :
    ∃ warnings, (syncLocale options source (some provider) locale).start host before =
      (.error fault, { before with warnings := warnings }) := by
  obtain ⟨warnings, hread⟩ :=
    CatalogFile.start_read host before (CatalogFile.pathOf options.catalogDir locale)
  rw [h] at hread
  exact ⟨warnings, Run.start_bind_error hread _⟩

variable (source provider host) in
/-- A locale whose catalog could be read is asked for, and then its file is written if there is
anything to write. -/
theorem start_syncLocale_read
    (h : CatalogFile.stored before.disk (CatalogFile.pathOf options.catalogDir locale) =
      .ok target) :
    ∃ warnings,
      let texts := fillings (answersTo options provider locale before.requests
        (batches options.batchSize (missing source target)))
      let asked : Session :=
        { before with
          warnings := warnings
          requests := before.requests ++
            (batches options.batchSize (missing source target)).map (requestFor options locale) }
      (syncLocale options source (some provider) locale).start host before =
        if missing source target = [] then (.ok .upToDate, asked)
        else if texts = [] then (.ok (.translated 0 (missing source target).length), asked)
        else
          ((fun _ ↦ .translated texts.length ((missing source target).length - texts.length)) <$>
            CatalogFile.write (CatalogFile.pathOf options.catalogDir locale)
              (target.setAll texts)).start host asked := by
  obtain ⟨warnings, hread⟩ :=
    CatalogFile.start_read host before (CatalogFile.pathOf options.catalogDir locale)
  rw [h] at hread
  unfold syncLocale
  by_cases hmissing : missing source target = []
  · refine ⟨warnings, ?_⟩
    simp only [Run.start_bind_ok hread, hmissing, batches_nil, List.map_nil, List.append_nil]
    rfl
  · obtain ⟨later, hfill⟩ := start_fill options provider locale host
      { before with warnings := warnings } target (batches options.batchSize (missing source target))
    refine ⟨later, ?_⟩
    have hempty : (missing source target).isEmpty = false := List.isEmpty_eq_false_iff.2 hmissing
    simp only [Run.start_bind_ok hread, hempty, Bool.false_eq_true, if_false, if_neg hmissing]
    rw [Run.start_bind_ok hfill]
    by_cases htexts : fillings (answersTo options provider locale before.requests
        (batches options.batchSize (missing source target))) = []
    · simp [htexts]
    · have hpos := List.length_pos_iff.2 htexts
      simp only [if_neg htexts, if_pos hpos, map_eq_pure_bind]

/-- A text that came back is written. -/
theorem written_of_write {path : Path} {filled : Catalog}
    (h : (CatalogFile.write path filled).start host before = (.ok (), after)) :
    after.requests = before.requests ∧
      ∃ place created, after.disk.locate path = .ok place ∧
        after.changes = before.changes ++
          List.map .create created ++ [.write place filled.write.toUTF8] ∧
        after.disk.readText path = .ok filled.write := by
  have hread := CatalogFile.readText_write h
  obtain ⟨built, place, hbuilds, hwritable, rfl⟩ := CatalogFile.write_ok h
  obtain ⟨created, hcreated⟩ := hbuilds.changes
  obtain ⟨hlocate, -, hnode⟩ := Disk.writable_eq_ok hwritable
  refine ⟨hbuilds.requests, place, created, (Disk.keepsDirectories_put hnode).locate hlocate, ?_,
    hread⟩
  rw [← hcreated]
  rfl

/-- How a locale ends that does not fail: the file is written exactly when a text came back. -/
theorem syncLocale_ok
    (h : (syncLocale options source (some provider) locale).start host before =
      (.ok outcome, after)) :
    ∃ target, CatalogFile.stored before.disk (CatalogFile.pathOf options.catalogDir locale) =
        .ok target ∧
      let path := CatalogFile.pathOf options.catalogDir locale
      let keys := missing source target
      let texts := fillings (answersTo options provider locale before.requests
        (batches options.batchSize keys))
      after.requests = before.requests ++
          (batches options.batchSize keys).map (requestFor options locale) ∧
        outcome = (if keys = [] then .upToDate
          else .translated texts.length (keys.length - texts.length)) ∧
        (texts = [] → after.disk = before.disk ∧ after.changes = before.changes) ∧
        (texts ≠ [] → ∃ place created, after.disk.locate path = .ok place ∧
          after.changes = before.changes ++
            List.map .create created ++ [.write place (target.setAll texts).write.toUTF8] ∧
          after.disk.readText path = .ok (target.setAll texts).write) := by
  cases hstored : CatalogFile.stored before.disk (CatalogFile.pathOf options.catalogDir locale) with
  | error fault =>
    obtain ⟨warnings, hstart⟩ := start_syncLocale_unread source provider host hstored
    rw [hstart] at h
    cases h
  | ok target =>
    refine ⟨target, rfl, ?_⟩
    obtain ⟨warnings, hstart⟩ := start_syncLocale_read source provider host hstored
    rw [h] at hstart
    intro path keys texts
    change _ = if keys = [] then _ else if texts = [] then _ else _ at hstart
    by_cases hkeys : keys = []
    · have htexts : texts = [] := by simp only [texts, hkeys, batches_nil]; rfl
      rw [if_pos hkeys] at hstart ⊢
      cases hstart
      exact ⟨rfl, rfl, fun _ ↦ ⟨rfl, rfl⟩, fun hne ↦ absurd htexts hne⟩
    · rw [if_neg hkeys] at hstart ⊢
      by_cases htexts : texts = []
      · rw [if_pos htexts] at hstart
        cases hstart
        exact ⟨rfl, by rw [htexts]; rfl, fun _ ↦ ⟨rfl, rfl⟩, fun hne ↦ absurd htexts hne⟩
      · rw [if_neg htexts, Run.start_map] at hstart
        cases hwrite : (CatalogFile.write path (target.setAll texts)).start host
            { before with
              warnings := warnings
              requests := before.requests ++
                (batches options.batchSize keys).map (requestFor options locale) } with
        | mk answer final =>
          rw [hwrite] at hstart
          cases answer with
          | error fault => cases hstart
          | ok _ =>
            cases hstart
            obtain ⟨hrequests, hwritten⟩ := written_of_write hwrite
            exact ⟨hrequests, rfl, fun hnone ↦ absurd hnone htexts, fun _ ↦ hwritten⟩

/-- What a turn amounts to that does not fail. -/
theorem filled_of_syncLocale
    (h : (syncLocale options source (some provider) locale).start host before =
      (.ok outcome, after)) :
    ∃ target, CatalogFile.stored before.disk (CatalogFile.pathOf options.catalogDir locale) =
        .ok target ∧
      let turn : Turn := ⟨⟨locale, outcome⟩, before, after⟩
      let answers := turn.answers options source provider target
      Filled options source target answers (fillings answers) (target.setAll (fillings answers))
        turn := by
  obtain ⟨target, hstored, hrequests, houtcome, hunwritten, hwritten⟩ := syncLocale_ok h
  refine ⟨target, hstored, ?_⟩
  intro turn answers
  have hbatches : answers.map Prod.fst = batches options.batchSize (missing source target) :=
    batches_answersTo _ _
  have hchunks : Chunks (max options.batchSize 1) (missing source target)
      (answers.map Prod.fst) := by
    rw [hbatches]
    exact chunks_batches _ _
  have hnodup : ((answers.map Prod.fst).flatten.map Prod.fst).Nodup := by
    rw [hchunks.flatten]
    exact keys_missing_nodup source target
  have hkeys : ((fillings answers).map Prod.fst).Sublist
      ((missing source target).map Prod.fst) := by
    rw [← hchunks.flatten]
    exact keys_fillings answers
  have hshort : (fillings answers).length ≤ (missing source target).length := by
    simpa using hkeys.length_le
  exact
    { chunked := hchunks
      requests := by
        rw [hrequests, ← hbatches, List.map_map]
        rfl
      own := fun hmem hkey ↦ lookup_fillings hnodup hmem hkey
      keys := hkeys
      entries := Catalog.entries_setAll (hnodup.sublist (keys_fillings answers))
      upToDate := fun hnone ↦ by
        refine ⟨houtcome.trans (if_pos hnone), ?_, ?_⟩
        · rw [hrequests, hnone, batches_nil, List.map_nil, List.append_nil]
        · exact List.length_eq_zero_iff.1 (by simpa [hnone] using hshort)
      translated := fun hsome ↦
        ⟨_, houtcome.trans (if_neg hsome), Nat.add_sub_of_le hshort⟩
      unwritten := hunwritten
      written := hwritten }

/-- However its turn ends, a locale asks for itself only and changes no file but its own. -/
structure Turn.Separate (turn : Turn) : Prop where
  requests : ∃ own, turn.after.requests = turn.before.requests ++ own ∧
    ∀ request ∈ own, request.targetLocale = turn.report.locale
  disk : Disk.ChangedWithin
    (fun place ↦ place.getLast? = some (turn.report.locale ++ "." ++ CatalogFile.extension))
    turn.before.disk turn.after.disk

/-- However it ends for a locale whose catalog could be read, every batch of its missing keys is
asked for, and nothing follows but the attempt to write its file. -/
theorem after_syncLocale {answer : Except CatalogFile.Fault LocaleOutcome}
    (hstored : CatalogFile.stored before.disk (CatalogFile.pathOf options.catalogDir locale) =
      .ok target)
    (h : (syncLocale options source (some provider) locale).start host before = (answer, after)) :
    ∃ asked : Session, asked.disk = before.disk ∧
      asked.requests = before.requests ++
        (batches options.batchSize (missing source target)).map (requestFor options locale) ∧
      (after = asked ∨ ∃ filled written, (CatalogFile.write
        (CatalogFile.pathOf options.catalogDir locale) filled).start host asked =
          (written, after)) := by
  obtain ⟨warnings, hstart⟩ := start_syncLocale_read source provider host hstored
  rw [h] at hstart
  dsimp only at hstart
  refine ⟨
    { before with
      warnings := warnings
      requests := before.requests ++
        (batches options.batchSize (missing source target)).map (requestFor options locale) },
    rfl, rfl, ?_⟩
  split at hstart
  · exact .inl (congrArg Prod.snd hstart)
  · split at hstart
    · exact .inl (congrArg Prod.snd hstart)
    · rw [Run.start_map] at hstart
      have hlast := (congrArg Prod.snd hstart).symm
      dsimp only at hlast
      rw [← hlast]
      exact .inr ⟨_, _, (Prod.eta _).symm⟩

theorem targetLocale_of_mem_requests {pieces : List (List (String × String))}
    {request : ProviderRequest} (h : request ∈ pieces.map (requestFor options locale)) :
    request.targetLocale = locale := by
  obtain ⟨batch, -, rfl⟩ := List.mem_map.1 h
  rfl

/-- A locale keeps to its own requests and its own file, whether it succeeds or fails. -/
theorem separate_of_syncLocale {report : LocaleReport} (hplain : '/' ∉ report.locale.toList)
    {answer : Except CatalogFile.Fault LocaleOutcome}
    (h : (syncLocale options source (some provider) report.locale).start host before =
      (answer, after)) :
    Turn.Separate ⟨report, before, after⟩ := by
  cases hstored : CatalogFile.stored before.disk
      (CatalogFile.pathOf options.catalogDir report.locale) with
  | error fault =>
    obtain ⟨warnings, hstart⟩ := start_syncLocale_unread source provider host hstored
    rw [h] at hstart
    cases hstart
    exact ⟨⟨[], (List.append_nil _).symm, by simp⟩, .refl _ _⟩
  | ok target =>
    obtain ⟨asked, hdisk, hrequests, rfl | ⟨filled, written, hwrite⟩⟩ := after_syncLocale hstored h
    · refine ⟨⟨_, hrequests, fun _ ↦ targetLocale_of_mem_requests⟩, ?_⟩
      rw [hdisk]
      exact .refl _ _
    · have hsent := CatalogFile.requests_write host asked
        (CatalogFile.pathOf options.catalogDir report.locale) filled
      have hchanged := CatalogFile.changedWithin_write host asked filled
        (CatalogFile.fileName?_pathOf options.catalogDir hplain)
      rw [hwrite] at hsent hchanged
      rw [hdisk] at hchanged
      exact ⟨⟨_, hsent.trans hrequests, fun _ ↦ targetLocale_of_mem_requests⟩, hchanged⟩

/-- A turn that was taken is the synchronization of its locale, up to a warning. -/
theorem Turn.Taken.syncLocale (h : turn.Taken options source provider host) :
    ∃ answer middle, (syncLocale options source (some provider) turn.report.locale).start host
        turn.before = (answer, middle) ∧ middle.OnlyWarned turn.after ∧
      (¬ turn.Failed → answer = .ok turn.report.outcome ∧ middle = turn.after) := by
  unfold Taken outcomeOf at h
  rw [Run.start_bind, Run.start_outcome] at h
  cases hstart : (Sync.syncLocale options source (some provider) turn.report.locale).start host
      turn.before with
  | mk answer middle =>
    rw [hstart] at h
    refine ⟨answer, middle, rfl, ?_⟩
    cases answer with
    | ok outcome =>
      simp only [Run.start_pure, Prod.mk.injEq, Except.ok.injEq] at h
      obtain ⟨houtcome, hafter⟩ := h
      rw [houtcome, hafter]
      exact ⟨.refl _, fun _ ↦ ⟨rfl, rfl⟩⟩
    | error cause =>
      simp only [Run.start_bind, Run.start_warn, Run.start_pure, Prod.mk.injEq,
        Except.ok.injEq] at h
      obtain ⟨houtcome, hafter⟩ := h
      refine ⟨?_, fun hsettled ↦ absurd ⟨_, houtcome.symm⟩ hsettled⟩
      rw [← hafter]
      exact ⟨rfl, rfl, rfl⟩

theorem Turn.Taken.separate (h : turn.Taken options source provider host)
    (hplain : '/' ∉ turn.report.locale.toList) : turn.Separate := by
  obtain ⟨answer, middle, hstart, hwarned, -⟩ := h.syncLocale
  obtain ⟨⟨own, hown, hlocale⟩, hdisk⟩ := separate_of_syncLocale hplain hstart
  exact ⟨⟨own, hwarned.requests.trans hown, hlocale⟩, hwarned.disk ▸ hdisk⟩

/-- A turn that finds a catalog asks for all that is missing in it, and for nothing else. -/
theorem Turn.Taken.requests (h : turn.Taken options source provider host)
    (hstored : CatalogFile.stored turn.before.disk (turn.path options) = .ok target) :
    turn.after.requests = turn.before.requests ++
      (batches options.batchSize (missing source target)).map
        (requestFor options turn.report.locale) := by
  obtain ⟨answer, middle, hstart, hwarned, -⟩ := h.syncLocale
  rw [hwarned.requests]
  obtain ⟨asked, -, hrequests, rfl | ⟨filled, written, hwrite⟩⟩ := after_syncLocale hstored hstart
  · exact hrequests
  · have hsent := CatalogFile.requests_write host asked (turn.path options) filled
    rw [Turn.path, hwrite] at hsent
    exact hsent.trans hrequests

/-- The catalog of a locale is at a place after its turn. -/
def Turn.Holds (options : SyncOptions) (turn : Turn) (place : Disk.Place) : Prop :=
  turn.after.disk.locate (turn.path options) = .ok place

/-- A turn makes room if it has to, and changes the file of its locale. -/
theorem Turn.Taken.furnished {region : Disk.Place → Prop} {start : Disk}
    (h : turn.Taken options source provider host) (hplain : '/' ∉ turn.report.locale.toList)
    (hroom : CatalogFile.HasRoom start options.catalogDir)
    (hbefore : CatalogFile.Furnished options.catalogDir region start turn.before.disk) :
    CatalogFile.Furnished options.catalogDir
      (fun place ↦ region place ∨ turn.Holds options place) start turn.after.disk := by
  obtain ⟨answer, middle, hstart, hwarned, -⟩ := h.syncLocale
  unfold Turn.Holds
  rw [hwarned.disk]
  cases hstored : CatalogFile.stored turn.before.disk (turn.path options) with
  | error fault =>
    obtain ⟨warnings, hunread⟩ := start_syncLocale_unread source provider host hstored
    rw [hstart] at hunread
    cases hunread
    exact hbefore.mono fun _ ↦ .inl
  | ok target =>
    obtain ⟨asked, hdisk, -, rfl | ⟨filled, written, hwrite⟩⟩ := after_syncLocale hstored hstart
    · rw [hdisk]
      exact hbefore.mono fun _ ↦ .inl
    · rw [← hdisk] at hbefore
      have hafter := hbefore.write host hroom hplain filled
      rw [hwrite] at hafter
      exact hafter

/-- By itself a turn makes room if it has to, and changes the file of its locale. -/
theorem Turn.Taken.furnished_alone (h : turn.Taken options source provider host)
    (hplain : '/' ∉ turn.report.locale.toList)
    (hroom : CatalogFile.HasRoom turn.before.disk options.catalogDir) :
    CatalogFile.Furnished options.catalogDir (turn.Holds options) turn.before.disk
      turn.after.disk := by
  have hnone : CatalogFile.Furnished options.catalogDir (fun _ ↦ False) turn.before.disk
    turn.before.disk := .refl _ _ _
  exact (h.furnished hplain hroom hnone).mono fun _ hplace ↦ hplace.resolve_left id

/-- A locale of which nothing is missing is up to date. -/
theorem Turn.Taken.upToDate (h : turn.Taken options source provider host)
    (hstored : CatalogFile.stored turn.before.disk (turn.path options) = .ok target)
    (hmissing : missing source target = []) : turn.report.outcome = .upToDate := by
  obtain ⟨warnings, hstart⟩ := start_syncLocale_read source provider host hstored
  dsimp only at hstart
  rw [if_pos hmissing] at hstart
  unfold Taken outcomeOf at h
  rw [Run.start_bind, Run.start_outcome, hstart] at h
  exact (Except.ok.inj (Prod.mk.inj h).1).symm

theorem Turn.Taken.filled (h : turn.Taken options source provider host) (hsettled : ¬ turn.Failed) :
    ∃ target, CatalogFile.stored turn.before.disk (turn.path options) = .ok target ∧
      let answers := turn.answers options source provider target
      Filled options source target answers (fillings answers) (target.setAll (fillings answers))
        turn := by
  obtain ⟨answer, middle, hstart, -, hsame⟩ := h.syncLocale
  obtain ⟨rfl, rfl⟩ := hsame hsettled
  exact filled_of_syncLocale hstart

end Phrasebook.Sync
