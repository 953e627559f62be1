import Phrasebook.Proofs.Sync.Turns

/-!
# Synchronizing again

In the catalog of a locale that did not fail exactly those keys are missing after a synchronization
for which no text came back. The source catalog has the keys that it had: even where its name leads
to the catalog of a target, the texts that are written there are for keys that it had. So the next
synchronization asks for the keys without a text and for nothing else, whoever answers it, and a
locale for which nothing failed is not asked for again. It can be otherwise only where the source
locale is a path, either because the directory of the catalogs leads back out of a missing
directory, or because writing the source catalog as the catalog of a target was cut short.
-/

namespace Phrasebook.Sync

variable {options : SyncOptions} {source target : Catalog} {provider : Provider} {host : Host}
variable {session start final : Session} {turns : List Turn} {turn : Turn} {locale : String}
variable {keys : List String} {disk : Disk}

/-- The entries of batches for which the answers give no text. -/
def unfilled (answers : List (List (String × String) × Except ProviderFault Catalog)) :
    List (String × String) :=
  answers.flatMap fun (batch, answer) ↦
    batch.filter fun entry ↦ (answer.toOption.bind (answerFor? · entry.1)).isNone

theorem isBlankText_of_mem_fillings
    {answers : List (List (String × String) × Except ProviderFault Catalog)}
    {entry : String × String} (h : entry ∈ fillings answers) :
    Text.isBlankText entry.2 = false := by
  obtain ⟨⟨batch, answer⟩, -, hentry⟩ := List.mem_flatMap.1 h
  cases answer with
  | error fault => cases hentry
  | ok answer =>
    obtain ⟨asked, -, htext⟩ := List.mem_filterMap.1 hentry
    obtain ⟨text, hanswer, rfl⟩ := Option.map_eq_some_iff.1 htext
    obtain ⟨-, hfilled⟩ := Option.filter_eq_some_iff.1 hanswer
    simpa using hfilled

/-- A key that was given a text is not missing any more; all others are missing as before. -/
theorem missing_setAll {texts : List (String × String)} (hnodup : (texts.map Prod.fst).Nodup)
    (hfilled : ∀ entry ∈ texts, Text.isBlankText entry.2 = false) :
    missing source (target.setAll texts) =
      (missing source target).filter fun entry ↦ (texts.lookup entry.1).isNone := by
  unfold missing
  rw [List.filter_filter]
  apply List.filter_congr
  rintro ⟨key, template⟩ -
  dsimp only
  rw [lacks, lacks, Catalog.get?_setAll hnodup]
  cases htext : texts.lookup key with
  | none => simp
  | some text =>
    have hblank := hfilled _ (Catalog.mem_of_lookup_eq_some htext)
    simp [hblank]

/-- The entries of batches that stay unfilled are those whose key no filling has. -/
theorem unfilled_eq_filter
    {answers : List (List (String × String) × Except ProviderFault Catalog)}
    (hnodup : ((answers.map Prod.fst).flatten.map Prod.fst).Nodup) :
    unfilled answers = (answers.map Prod.fst).flatten.filter fun entry ↦
      ((fillings answers).lookup entry.1).isNone := by
  rw [List.filter_flatten, List.map_map, ← List.flatMap_def]
  unfold unfilled
  apply List.flatMap_congr
  rintro ⟨batch, answer⟩ hown
  apply List.filter_congr
  intro entry hentry
  rw [lookup_fillings hnodup hown (List.mem_map_of_mem hentry)]

/-- After the texts that came back for the missing keys were set, the unfilled keys are missing. -/
theorem missing_setAll_fillings
    {answers : List (List (String × String) × Except ProviderFault Catalog)}
    (hasked : (answers.map Prod.fst).flatten = missing source target) :
    missing source (target.setAll (fillings answers)) = unfilled answers := by
  have hnodup : ((answers.map Prod.fst).flatten.map Prod.fst).Nodup := by
    rw [hasked]
    exact keys_missing_nodup source target
  calc
    missing source (target.setAll (fillings answers)) =
        (missing source target).filter fun entry ↦ ((fillings answers).lookup entry.1).isNone :=
      missing_setAll (hnodup.sublist (keys_fillings answers)) fun _ ↦ isBlankText_of_mem_fillings
    _ = unfilled answers := by rw [unfilled_eq_filter hnodup, hasked]

/-- What a turn leaves behind that does not fail: the catalog it found, with the texts set. -/
theorem Filled.stored {texts : List (String × String)} {turn : Turn}
    {answers : List (List (String × String) × Except ProviderFault Catalog)}
    (h : Filled options source target answers texts (target.setAll texts) turn)
    (htarget : CatalogFile.stored turn.before.disk (turn.path options) = .ok target) :
    CatalogFile.stored turn.after.disk (turn.path options) = .ok (target.setAll texts) := by
  by_cases htexts : texts = []
  · rw [(h.unwritten htexts).1, htarget, htexts, Catalog.setAll_nil]
  · obtain ⟨place, created, -, -, htext⟩ := h.written htexts
    exact CatalogFile.stored_of_readText htext

/-- A turn in which nothing failed leaves nothing unfilled. -/
theorem Filled.unfilled_eq_nil {filled : Catalog} {turn : Turn}
    {answers : List (List (String × String) × Except ProviderFault Catalog)}
    (h : Filled options source target answers (fillings answers) filled turn)
    (hreport : turn.report.hasFailures = false) : unfilled answers = [] := by
  have hlength : (fillings answers).length = (missing source target).length := by
    by_cases hmissing : missing source target = []
    · rw [(h.upToDate hmissing).2.2, hmissing]
    · obtain ⟨failed, houtcome, hsum⟩ := h.translated hmissing
      have hnone : failed = 0 := by
        simpa [LocaleReport.hasFailures, houtcome] using hreport
      rwa [hnone, Nat.add_zero] at hsum
  have hkeys : (fillings answers).map Prod.fst = (missing source target).map Prod.fst :=
    h.keys.eq_of_length (by simpa using hlength)
  have hnodup : ((answers.map Prod.fst).flatten.map Prod.fst).Nodup := by
    rw [h.chunked.flatten]
    exact keys_missing_nodup source target
  rw [unfilled_eq_filter hnodup, h.chunked.flatten, List.filter_eq_nil_iff]
  intro entry hentry
  rw [Option.isNone_iff_eq_none, Catalog.lookup_eq_none_iff, hkeys, not_not]
  exact List.mem_map_of_mem hentry

/-! ## The source catalog -/

/-- The source catalog can be read and has given keys. -/
def Sourced (options : SyncOptions) (keys : List String) (disk : Disk) : Prop :=
  disk.isFile (CatalogFile.pathOf options.catalogDir options.sourceLocale) = true ∧
    ∃ source, CatalogFile.stored disk
      (CatalogFile.pathOf options.catalogDir options.sourceLocale) = .ok source ∧
      source.keys = keys

/-- A turn that failed left something else in the file of the source catalog than it found there. -/
def Turn.Spoils (options : SyncOptions) (turn : Turn) : Prop :=
  turn.Failed ∧
    turn.after.disk.find (CatalogFile.pathOf options.catalogDir options.sourceLocale) ≠
      turn.before.disk.find (CatalogFile.pathOf options.catalogDir options.sourceLocale)

theorem Sourced.of_find_eq {later : Disk} (h : Sourced options keys disk)
    (hsame : later.find (CatalogFile.pathOf options.catalogDir options.sourceLocale) =
      disk.find (CatalogFile.pathOf options.catalogDir options.sourceLocale)) :
    Sourced options keys later := by
  obtain ⟨hfile, source, hstored, hkeys⟩ := h
  refine ⟨?_, source, (CatalogFile.stored_of_find_eq hsame).trans hstored, hkeys⟩
  unfold Disk.isFile at hfile ⊢
  rwa [hsame]

/-- The texts that come back are for keys of the source catalog. -/
theorem Filled.texts_subset
    {answers : List (List (String × String) × Except ProviderFault Catalog)}
    {texts : List (String × String)} {filled : Catalog}
    (h : Filled options source target answers texts filled turn) :
    texts.map Prod.fst ⊆ source.keys :=
  (h.keys.trans (List.filter_sublist.map Prod.fst)).subset

/-- A turn leaves the keys of the source catalog as they are, also where it writes that file. -/
theorem Turn.Taken.sourced (h : turn.Taken options source provider host)
    (hplain : '/' ∉ turn.report.locale.toList)
    (hroom : CatalogFile.HasRoom turn.before.disk options.catalogDir)
    (hspoils : ¬ turn.Spoils options) (hbefore : Sourced options source.keys turn.before.disk) :
    Sourced options source.keys turn.after.disk := by
  by_cases hsame : turn.after.disk.find
      (CatalogFile.pathOf options.catalogDir options.sourceLocale) =
        turn.before.disk.find (CatalogFile.pathOf options.catalogDir options.sourceLocale)
  · exact hbefore.of_find_eq hsame
  obtain ⟨hfile, again, hagain, hkeys⟩ := hbefore
  obtain ⟨target, htarget, hfilled⟩ := h.filled fun hfailed ↦ hspoils ⟨hfailed, hsame⟩
  have htexts : fillings (turn.answers options source provider target) ≠ [] := by
    intro hnone
    rw [(hfilled.unwritten hnone).1] at hsame
    exact hsame rfl
  obtain ⟨place, -, hholds, -, hwritten⟩ := hfilled.written htexts
  obtain ⟨contents, hfind⟩ := Disk.find_of_isFile hfile
  obtain ⟨there, hlocate, hnode⟩ := Disk.find_eq_ok_iff.1 hfind
  have hfurnished := h.furnished_alone hplain hroom
  -- Only its own file is changed by a turn, so that is the file of the source catalog.
  have hthere : turn.Holds options there := by
    by_contra hother
    exact hsame (hfurnished.find hlocate hnode hother)
  obtain rfl : place = there := Except.ok.inj (hholds.symm.trans hthere)
  have hown := hfurnished.locate_of_nodeAt? hroom hplain hholds hnode
  obtain rfl : again = target := by
    refine CatalogFile.stored_unique ?_ hagain htarget
    rw [Disk.find_of_locate hlocate, Turn.path, Disk.find_of_locate hown]
  have hsources := hfurnished.keeps.locate hlocate
  have htext : turn.after.disk.readText
      (CatalogFile.pathOf options.catalogDir options.sourceLocale) =
        .ok (again.setAll (fillings (turn.answers options source provider again))).write := by
    rw [← hwritten, Disk.readText, Disk.readText, Disk.find_of_locate hsources,
      Disk.find_of_locate hholds]
  refine ⟨Disk.isFile_of_readText htext, _, CatalogFile.stored_of_readText htext, ?_⟩
  rw [Catalog.keys_setAll_of_subset (hkeys ▸ hfilled.texts_subset), hkeys]

/-- Turns that spoil nothing leave a source catalog that can be read and has the keys that it had.
-/
theorem Consecutive.sourced (h : Consecutive start turns final)
    (htaken : ∀ turn ∈ turns, turn.Taken options source provider host)
    (hplain : ∀ turn ∈ turns, '/' ∉ turn.report.locale.toList)
    (hspoils : ∀ turn ∈ turns, ¬ turn.Spoils options)
    (hroom : CatalogFile.HasRoom start.disk options.catalogDir)
    (hstart : Sourced options source.keys start.disk) :
    Sourced options source.keys final.disk := by
  induction turns generalizing start with
  | nil =>
    rw [Session.OnlyWarned.disk h]
    exact hstart
  | cons turn rest ih =>
    obtain ⟨hwarned, hrest⟩ := h
    rw [← hwarned.disk] at hroom hstart
    have hturn := htaken turn List.mem_cons_self
    have hplain' := hplain turn List.mem_cons_self
    exact ih hrest (fun other hother ↦ htaken other (List.mem_cons_of_mem _ hother))
      (fun other hother ↦ hplain other (List.mem_cons_of_mem _ hother))
      (fun other hother ↦ hspoils other (List.mem_cons_of_mem _ hother))
      ((hturn.furnished_alone hplain' hroom).hasRoom hroom)
      (hturn.sourced hplain' hroom (hspoils turn List.mem_cons_self) hstart)

/-- Where the name of the source locale leads to no other directory, no turn changes its catalog. -/
theorem Synchronized.find_source {targets : List String}
    (h : Synchronized options source provider host targets session turns final)
    (hname : '/' ∉ options.sourceLocale.toList)
    (hfile : session.disk.isFile
      (CatalogFile.pathOf options.catalogDir options.sourceLocale) = true)
    {part : List Turn} {last : Session} (hpart : part ⊆ turns)
    (hrow : Consecutive session part last) :
    last.disk.find (CatalogFile.pathOf options.catalogDir options.sourceLocale) =
      session.disk.find (CatalogFile.pathOf options.catalogDir options.sourceLocale) := by
  obtain ⟨contents, hfind⟩ := Disk.find_of_isFile hfile
  obtain ⟨place, hlocate, hnode⟩ := Disk.find_eq_ok_iff.1 hfind
  refine (h.furnished hpart hrow h.room).find hlocate hnode
    (not_held (fun turn hturn ↦ h.plain turn (hpart hturn)) hname (fun hmem ↦ ?_) hlocate)
  exact h.source_not_mem (List.map_subset _ hpart hmem)

/-- No turn spoils the source catalog when the name of its locale holds no slash. -/
theorem Synchronized.not_spoils {targets : List String}
    (h : Synchronized options source provider host targets session turns final)
    (hname : '/' ∉ options.sourceLocale.toList)
    (hfile : session.disk.isFile
      (CatalogFile.pathOf options.catalogDir options.sourceLocale) = true) :
    ∀ turn ∈ turns, ¬ turn.Spoils options := by
  rintro turn hturn ⟨-, hchanged⟩
  obtain ⟨earlier, later, hearlier, -, hbefore, -⟩ := h.split hturn
  have hwith : earlier ++ [turn] ⊆ turns :=
    List.append_subset.2 ⟨hearlier, List.cons_subset.2 ⟨hturn, List.nil_subset turns⟩⟩
  refine hchanged ?_
  rw [h.find_source hname hfile hwith hbefore.concat, h.find_source hname hfile hearlier hbefore]

/-! ## The next synchronization -/

/-- On a disk, a synchronization asks for a locale for the entries of the source catalog with given
keys, batch by batch, and for nothing else, whatever its targets, its size of batches and its
provider are. Without such keys the locale is up to date, and nothing is asked for it. -/
def AsksAgain (options : SyncOptions) (locale : String) (keys : List String) (disk : Disk) : Prop :=
  ∀ (size : Nat) (targets : List String) (provider : Provider) (host : Host) (session : Session),
    (∀ target ∈ targets, '/' ∉ target.toList) → locale ∈ targets → session.disk = disk →
    ∃ source entries reports sent final,
      CatalogFile.stored disk (CatalogFile.pathOf options.catalogDir options.sourceLocale) =
        .ok source ∧
      entries.Sublist source.entries ∧ entries.map Prod.fst = keys ∧
      (catalogs { options with batchSize := size } targets (some provider)).start host session =
        (.ok reports, final) ∧
      final.requests = session.requests ++ sent ∧
      AsksFor { options with batchSize := size } locale entries sent ∧
      (keys = [] → ⟨locale, .upToDate⟩ ∈ reports ∧
        ∀ request ∈ sent, request.targetLocale ≠ locale)

theorem keys_missing_congr {other : Catalog} (h : other.keys = source.keys) :
    (missing other target).map Prod.fst = (missing source target).map Prod.fst := by
  have hkeys (catalog : Catalog) :
      (missing catalog target).map Prod.fst = catalog.keys.filter (lacks target) := by
    rw [Catalog.keys, List.filter_map]
    rfl
  rw [hkeys, hkeys, h]

/-- Where the source catalog can be read and has its keys, a synchronization asks for those that a
catalog lacks. -/
theorem Sourced.asksAgain (h : Sourced options source.keys disk)
    (hroom : CatalogFile.HasRoom disk options.catalogDir) (hne : locale ≠ options.sourceLocale)
    (hstored : CatalogFile.stored disk (CatalogFile.pathOf options.catalogDir locale) =
      .ok target) :
    AsksAgain options locale ((missing source target).map Prod.fst) disk := by
  rintro size targets provider host session hplain hmem rfl
  obtain ⟨hfile, again, hagain, hkeys⟩ := h
  obtain ⟨reports, sent, final, hstart, hsent, hasks, hnone⟩ := exists_asksFor
    { options with batchSize := size } provider host hfile hagain hroom hplain hmem hne hstored
  rw [← keys_missing_congr hkeys]
  refine ⟨again, missing again target, reports, sent, final, hagain, List.filter_sublist, rfl,
    hstart, hsent, hasks, fun hkeys ↦ ?_⟩
  have hempty := List.map_eq_nil_iff.1 hkeys
  exact ⟨hnone hempty, (hempty ▸ hasks).of_nil⟩

/-- What a turn found lacking and did not fill is what is asked for after the synchronization. -/
structure Turn.Resumes (options : SyncOptions) (source : Catalog) (provider : Provider)
    (final : Session) (turn : Turn) (target : Catalog) : Prop where
  stored : CatalogFile.stored turn.before.disk (turn.path options) = .ok target
  within : (unfilled (turn.answers options source provider target)).Sublist source.entries
  asks : AsksAgain options turn.report.locale
    ((unfilled (turn.answers options source provider target)).map Prod.fst) final.disk
  upToDate : turn.report.hasFailures = false →
    unfilled (turn.answers options source provider target) = []

/-- A second synchronization asks, for every locale that did not fail in the first one, for exactly
the keys that the first one did not fill. For an absolute path as source locale the directory of
the catalogs has to be there, or its path to have no step upward; and no turn may have failed when
it had changed the source catalog already, as none can where the source locale is a name. -/
theorem catalogs_again (options : SyncOptions) (targets : List String) (provider : Provider)
    (host : Host) (session : Session) (source : Catalog)
    (hfile : session.disk.isFile
      (CatalogFile.pathOf options.catalogDir options.sourceLocale) = true)
    (hsource : CatalogFile.stored session.disk
      (CatalogFile.pathOf options.catalogDir options.sourceLocale) = .ok source)
    (htree : session.disk.IsTree)
    (hroom : (⟨options.sourceLocale⟩ : Path).isAbsolute = true →
      session.disk.isDirectory options.catalogDir = true ∨ .up ∉ options.catalogDir.components)
    (hplain : ∀ locale ∈ targets, '/' ∉ locale.toList) :
    ∃ turns final,
      (catalogs options targets (some provider)).start host session =
        (.ok (turns.map Turn.report), final) ∧
      Consecutive session turns final ∧
      (∀ turn ∈ turns, turn.Taken options source provider host) ∧
      ('/' ∉ options.sourceLocale.toList → (∀ turn ∈ turns, ¬ turn.Spoils options) ∧
        CatalogFile.stored final.disk
          (CatalogFile.pathOf options.catalogDir options.sourceLocale) = .ok source) ∧
      ((∀ turn ∈ turns, ¬ turn.Spoils options) → ∀ turn ∈ turns, ¬ turn.Failed →
        ∃ target, turn.Resumes options source provider final target) := by
  have hroom' := CatalogFile.HasRoom.of_isFile hfile htree hroom
  obtain ⟨turns, final, first⟩ := exists_synchronized provider host hfile hsource hroom' hplain
  refine ⟨turns, final, first.start, first.consecutive, first.taken, fun hname ↦ ?_,
    fun hspoils turn hturn hsettled ↦ ?_⟩
  · have hfind := first.find_source hname hfile (List.Subset.refl turns) first.consecutive
    exact ⟨first.not_spoils hname hfile, (CatalogFile.stored_of_find_eq hfind).trans hsource⟩
  obtain ⟨target, htarget, hfilled⟩ := (first.taken turn hturn).filled hsettled
  have hmissing := missing_setAll_fillings hfilled.chunked.flatten
  have hsourced := first.consecutive.sourced first.taken first.plain hspoils hroom'
    ⟨hfile, source, hsource, rfl⟩
  have hlater := (first.furnished (List.Subset.refl turns) first.consecutive hroom').hasRoom hroom'
  have hne : turn.report.locale ≠ options.sourceLocale := fun hsame ↦
    first.source_not_mem (hsame ▸ List.mem_map_of_mem hturn)
  have hstored := (first.stored_turn hturn).2.trans (hfilled.stored htarget)
  have hasks := hsourced.asksAgain hlater hne hstored
  rw [hmissing] at hasks
  refine ⟨target, htarget, ?_, hasks, hfilled.unfilled_eq_nil⟩
  rw [← hmissing]
  exact List.filter_sublist

/-- A provider that repeats what its first request holds and then answers no more. -/
def echoingOnce : Provider := fun earlier request ↦
  if earlier.isEmpty then .ok request.keys else .error (.decode "")

def obligingHost : Host :=
  ⟨[], fun _ _ ↦ none, fun _ _ ↦ .unreachable ""⟩

def twoKeys : Disk where
  nodes :=
    [(["t"], .directory),
      (["t", "en.json"], .file "\x7b\"hi\": \"Hello\", \"bye\": \"Goodbye\"\x7d".toUTF8)]
  workingDirectory := []

theorem isTree_twoKeys : twoKeys.IsTree := .of_forall (by decide)

theorem catalogs_again_echoingOnce :
    ∃ final reports sent last entries,
      (catalogs ⟨⟨"/t"⟩, "en", 1⟩ ["fr"] (some echoingOnce)).start obligingHost
          (.start twoKeys) =
        (.ok [⟨"fr", .translated 1 1⟩], final) ∧
      (catalogs ⟨⟨"/t"⟩, "en", 2⟩ ["de", "fr"] (some .marking)).start obligingHost
          (.start final.disk) =
        (.ok reports, last) ∧
      last.requests = [] ++ sent ∧ entries.map Prod.fst = ["bye"] ∧
      AsksFor ⟨⟨"/t"⟩, "en", 2⟩ "fr" entries sent := by
  obtain ⟨turns, final, hstart, hconsecutive, -, hplain, hturns⟩ :=
    catalogs_again ⟨⟨"/t"⟩, "en", 1⟩ ["fr"] echoingOnce obligingHost (.start twoKeys)
      (.ofList [("hi", "Hello"), ("bye", "Goodbye")]) (by decide +kernel) (by decide +kernel)
      isTree_twoKeys (by decide) (by decide)
  have hreports : ((catalogs ⟨⟨"/t"⟩, "en", 1⟩ ["fr"] (some echoingOnce)).start obligingHost
      (.start twoKeys)).1.toOption = some [⟨"fr", .translated 1 1⟩] := by decide +kernel
  rw [hstart] at hreports
  obtain ⟨turn, rfl, hreport⟩ := List.map_eq_singleton_iff.1 (Option.some.inj hreports)
  obtain ⟨target, hresumes⟩ := hturns (hplain (by decide)).1 turn List.mem_cons_self
    (by rw [Turn.Failed, hreport]; rintro ⟨reason, hfailed⟩; cases hfailed)
  have htarget := hresumes.stored
  have hasks := hresumes.asks
  rw [Turn.path, hreport, hconsecutive.1.disk] at htarget
  have hempty : CatalogFile.stored twoKeys (CatalogFile.pathOf ⟨"/t"⟩ "fr") = .ok .empty := by
    decide +kernel
  obtain rfl : Catalog.empty = target := Except.ok.inj (hempty.symm.trans htarget)
  rw [Turn.answers, hreport, hconsecutive.1.requests] at hasks
  have hunfilled : (unfilled (answersTo ⟨⟨"/t"⟩, "en", 1⟩ echoingOnce "fr" []
      (batches 1 (missing (.ofList [("hi", "Hello"), ("bye", "Goodbye")]) .empty)))).map Prod.fst =
        ["bye"] := by decide +kernel
  obtain ⟨source, entries, reports, sent, last, -, -, hkeys, hagain, hsent, hentries, -⟩ :=
    hasks 2 ["de", "fr"] .marking obligingHost (.start final.disk) (by decide) (by decide) rfl
  refine ⟨final, reports, sent, last, entries, hstart.trans ?_, hagain, hsent,
    hkeys.trans hunfilled, hentries⟩
  rw [List.map_singleton, hreport]

/-- A provider that cannot be reached for one language and marks the texts of all others. -/
def markingBut (locale : String) : Provider := fun earlier request ↦
  if request.targetLocale = locale then .error (.decode "") else Provider.marking earlier request

/-- A disk with a source catalog of two keys and a French catalog of one of them. -/
def oneInFrench : Disk where
  nodes :=
    [(["en.json"], .file "\x7b\"hi\": \"Hello\", \"bye\": \"Goodbye\"\x7d".toUTF8),
      (["t"], .directory), (["t", "fr.json"], .file "\x7b\"hi\": \"Salut\"\x7d".toUTF8)]
  workingDirectory := []

/-- A disk with a source catalog in which one key has no text. -/
def halfFrench : Disk where
  nodes :=
    [(["t"], .directory),
      (["t", "fr.json"], .file "\x7b\"hi\": \"\", \"bye\": \"Au revoir\"\x7d".toUTF8)]
  workingDirectory := []

/-- A host on which there is room for no more than five bytes of the French catalog. -/
def crowdedHost : Host where
  environment := []
  refusal? _ change :=
    match change with
    | .write place _ => if place.getLast? = some "fr.json" then some ⟨some 5, .tooLarge⟩ else none
    | .create _ => none
  transport _ _ := .unreachable ""

theorem eq_ok_of_toOption {ε α : Type} {answer : Except ε α} {value : α}
    (h : answer.toOption = some value) : answer = .ok value := by
  cases answer with
  | error fault => cases h
  | ok other => exact congrArg Except.ok (Option.some.inj h)

/-- Where the path of the directory leads back out of a missing directory, the first catalog that is
written makes the others appear: of two keys that were not filled for French, one is there for the
second synchronization. And where the source locale leads to the catalog of a target, a cut of that
catalog leaves the second synchronization without a source. -/
theorem not_asksAgain :
    (∃ final,
      (catalogs ⟨⟨"new/../t"⟩, "/en", 2⟩ ["fr", "de"] (some (markingBut "fr"))).start obligingHost
          (.start oneInFrench) =
        (.ok [⟨"fr", .translated 0 2⟩, ⟨"de", .translated 2 0⟩], final) ∧
      ¬ AsksAgain ⟨⟨"new/../t"⟩, "/en", 2⟩ "fr" ["hi", "bye"] final.disk) ∧
    ∃ final,
      (catalogs ⟨⟨"/t"⟩, "./fr", 2⟩ ["de", "fr"] (some (markingBut "de"))).start crowdedHost
          (.start halfFrench) =
        (.ok [⟨"de", .translated 0 2⟩,
          ⟨"fr", .failed "Failed to write file: /t/fr.json: File too large (os error 27)"⟩],
          final) ∧
      ¬ AsksAgain ⟨⟨"/t"⟩, "./fr", 2⟩ "de" ["hi", "bye"] final.disk := by
  constructor
  · have hreports : ((catalogs ⟨⟨"new/../t"⟩, "/en", 2⟩ ["fr", "de"]
        (some (markingBut "fr"))).start obligingHost (.start oneInFrench)).1.toOption =
          some [⟨"fr", .translated 0 2⟩, ⟨"de", .translated 2 0⟩] := by decide +kernel
    have hrequests : ((catalogs ⟨⟨"new/../t"⟩, "/en", 2⟩ ["fr", "de"] (some .marking)).start
        obligingHost (.start ((catalogs ⟨⟨"new/../t"⟩, "/en", 2⟩ ["fr", "de"]
          (some (markingBut "fr"))).start obligingHost (.start oneInFrench)).2.disk)).2.requests =
            [⟨"/en", "fr", .ofList [("bye", "Goodbye")]⟩] := by decide +kernel
    cases hfirst : (catalogs ⟨⟨"new/../t"⟩, "/en", 2⟩ ["fr", "de"] (some (markingBut "fr"))).start
        obligingHost (.start oneInFrench) with
    | mk answer final =>
      rw [hfirst] at hreports hrequests
      refine ⟨final, congrArg (·, final) (eq_ok_of_toOption hreports), fun hasks ↦ ?_⟩
      obtain ⟨source, entries, reports, sent, last, -, -, hkeys, hagain, hsent, hentries, -⟩ :=
        hasks 2 ["fr", "de"] .marking obligingHost (.start final.disk) (by decide) (by decide) rfl
      have hboth := hentries.keys (by rw [hkeys]; decide)
      rw [hagain, hsent] at hrequests
      rw [show sent = _ from hrequests, hkeys] at hboth
      revert hboth
      decide
  · have hreports : ((catalogs ⟨⟨"/t"⟩, "./fr", 2⟩ ["de", "fr"] (some (markingBut "de"))).start
        crowdedHost (.start halfFrench)).1.toOption = some [⟨"de", .translated 0 2⟩,
          ⟨"fr", .failed "Failed to write file: /t/fr.json: File too large (os error 27)"⟩] := by
      decide +kernel
    have hbroken : (CatalogFile.stored ((catalogs ⟨⟨"/t"⟩, "./fr", 2⟩ ["de", "fr"]
        (some (markingBut "de"))).start crowdedHost (.start halfFrench)).2.disk
          (CatalogFile.pathOf ⟨"/t"⟩ "./fr")).toOption = none := by decide +kernel
    cases hfirst : (catalogs ⟨⟨"/t"⟩, "./fr", 2⟩ ["de", "fr"] (some (markingBut "de"))).start
        crowdedHost (.start halfFrench) with
    | mk answer final =>
      rw [hfirst] at hreports hbroken
      refine ⟨final, congrArg (·, final) (eq_ok_of_toOption hreports), fun hasks ↦ ?_⟩
      obtain ⟨source, entries, reports, sent, last, hsource, -⟩ :=
        hasks 2 ["de", "fr"] .marking obligingHost (.start final.disk) (by decide) (by decide) rfl
      rw [hsource] at hbroken
      cases hbroken

end Phrasebook.Sync
