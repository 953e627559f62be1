import Phrasebook.Proofs.Catalog.Room
import Phrasebook.Proofs.Sync.Again

/-!
# Locales by themselves

What a synchronization comes to for one locale does not depend on the others. On a steady host, with
a provider that answers each request by itself, every locale ends as it ends when it is synchronized
alone, and the same is in its file afterwards, whichever locales have their turns before and after
it, in whatever order, and whatever fails for them. The one thing that the locales share is the
directory of their catalogs, which the first one that is written creates. That makes a difference
where the path of the directory leads back out of a missing directory: then catalogs that could not
be found before can be found afterwards.
-/

namespace Phrasebook

/-- What a provider answers to a request does not depend on the requests before it. -/
def Provider.IsSteady (provider : Provider) : Prop :=
  ∀ earlier request, provider earlier request = provider [] request

namespace Sync

open Run (Does)

variable {options : SyncOptions} {source : Catalog} {provider : Provider} {host : Host}
variable {start ready before after disk : Disk} {locale other : String} {done targets : List String}
variable {answer : Except CatalogFile.Fault Unit}

/-! ## One locale -/

/-- What comes of a locale whose synchronization ends in some way. -/
def outcomeFor : Except CatalogFile.Fault LocaleOutcome → LocaleOutcome
  | .ok outcome => outcome
  | .error cause => .failed (": ".intercalate cause.messages)

theorem does_outcomeOf {result : Except CatalogFile.Fault LocaleOutcome}
    (h : Does host (syncLocale options source (some provider) locale) before result after) :
    Does host (outcomeOf options source (some provider) locale) before (.ok (outcomeFor result))
      after := by
  refine h.outcome.bind ?_
  cases result with
  | ok outcome => exact Run.does_pure outcome
  | error cause => exact (Run.does_warn _).bind (Run.does_pure _)

theorem does_read (host : Host) (path : Path) (disk : Disk) :
    Does host (CatalogFile.read path) disk (CatalogFile.stored disk path) disk := by
  rintro session rfl
  obtain ⟨warnings, hread⟩ := CatalogFile.start_read host session path
  rw [hread]
  exact ⟨rfl, rfl⟩

theorem answersTo_of_steady (hprovider : provider.IsSteady) (earlier : List ProviderRequest)
    (pieces : List (List (String × String))) :
    answersTo options provider locale earlier pieces =
      answersTo options provider locale [] pieces := by
  induction pieces generalizing earlier with
  | nil => rfl
  | cons batch rest ih =>
    rw [answersTo, answersTo, ih, hprovider, ih ([] ++ [requestFor options locale batch])]

/-- The texts that come back for what a locale lacks. -/
def textsOfLocale (options : SyncOptions) (source : Catalog) (provider : Provider)
    (locale : String) (target : Catalog) : List (String × String) :=
  fillings
    (answersTo options provider locale [] (batches options.batchSize (missing source target)))

variable (options source locale host) in
/-- What fills a catalog from a steady provider are the texts that come back for its locale. -/
theorem does_fill (hprovider : provider.IsSteady) (target : Catalog) (disk : Disk) :
    let texts := textsOfLocale options source provider locale target
    Does host
      (fill options provider locale target (batches options.batchSize (missing source target)))
      disk (.ok (target.setAll texts, texts.length)) disk := by
  rintro texts session rfl
  obtain ⟨warnings, hfill⟩ := start_fill options provider locale host session target
    (batches options.batchSize (missing source target))
  rw [hfill, answersTo_of_steady hprovider]
  exact ⟨rfl, rfl⟩

section SyncLocale

variable {target : Catalog} {fault : CatalogFile.Fault}

theorem does_syncLocale_unread
    (h : CatalogFile.stored before (CatalogFile.pathOf options.catalogDir locale) = .error fault) :
    Does host (syncLocale options source (some provider) locale) before (.error fault) before := by
  have hread := does_read host (CatalogFile.pathOf options.catalogDir locale) before
  rw [h] at hread
  exact hread.bind_error _

/-- A locale for which no text comes back is reported, and its file stays as it is. -/
theorem does_syncLocale_unwritten (hprovider : provider.IsSteady)
    (h : CatalogFile.stored before (CatalogFile.pathOf options.catalogDir locale) = .ok target)
    (hnone : textsOfLocale options source provider locale target = []) :
    Does host (syncLocale options source (some provider) locale) before
      (.ok (if missing source target = [] then .upToDate
        else .translated 0 (missing source target).length)) before := by
  have hread := does_read host (CatalogFile.pathOf options.catalogDir locale) before
  rw [h] at hread
  refine hread.bind ?_
  by_cases hmissing : missing source target = []
  · rw [if_pos hmissing, hmissing]
    exact Run.does_pure _
  · have hfill := does_fill options source host locale hprovider target before
    rw [hnone] at hfill
    dsimp only
    rw [if_neg hmissing, if_neg (by simpa using hmissing)]
    exact hfill.bind (Run.does_pure _)

/-- A locale for which texts come back ends as writing its catalog does. -/
theorem does_syncLocale_written (hprovider : provider.IsSteady)
    (h : CatalogFile.stored before (CatalogFile.pathOf options.catalogDir locale) = .ok target)
    (hsome : textsOfLocale options source provider locale target ≠ [])
    (hwrite : Does host (CatalogFile.write (CatalogFile.pathOf options.catalogDir locale)
      (target.setAll (textsOfLocale options source provider locale target))) before answer after) :
    let count := (textsOfLocale options source provider locale target).length
    Does host (syncLocale options source (some provider) locale) before
      (answer.map fun _ ↦ .translated count ((missing source target).length - count)) after := by
  intro count
  have hread := does_read host (CatalogFile.pathOf options.catalogDir locale) before
  rw [h] at hread
  refine hread.bind ?_
  have hmissing : missing source target ≠ [] := by
    intro hnone
    refine hsome ?_
    rw [textsOfLocale, hnone, batches_nil]
    rfl
  dsimp only
  rw [if_neg (by simpa using hmissing)]
  refine (does_fill options source host locale hprovider target before).bind ?_
  dsimp only
  rw [if_pos (List.length_pos_iff.2 hsome)]
  cases answer with
  | error fault => exact hwrite.bind_error _
  | ok _ => exact hwrite.bind (Run.does_pure _)

end SyncLocale

/-- How a locale ends depends on the catalog that is found for it, and on how its file is written if
it is. -/
theorem exists_does_outcomeOf (options : SyncOptions) (source : Catalog) (locale : String)
    (host : Host) (hprovider : provider.IsSteady) (found : Except CatalogFile.Fault Catalog) :
    (∃ outcome, ∀ disk,
      CatalogFile.stored disk (CatalogFile.pathOf options.catalogDir locale) = found →
        Does host (outcomeOf options source (some provider) locale) disk (.ok outcome) disk) ∨
    ∃ (filled : Catalog) (conclude : Except CatalogFile.Fault Unit → LocaleOutcome),
      ∀ disk answer after,
        CatalogFile.stored disk (CatalogFile.pathOf options.catalogDir locale) = found →
        Does host (CatalogFile.write (CatalogFile.pathOf options.catalogDir locale) filled) disk
          answer after →
        Does host (outcomeOf options source (some provider) locale) disk (.ok (conclude answer))
          after := by
  cases found with
  | error fault => exact .inl ⟨_, fun disk h ↦ does_outcomeOf (does_syncLocale_unread h)⟩
  | ok target =>
    by_cases htexts : textsOfLocale options source provider locale target = []
    · exact .inl ⟨_, fun disk h ↦ does_outcomeOf (does_syncLocale_unwritten hprovider h htexts)⟩
    · exact .inr ⟨_, _, fun disk answer after h hwrite ↦
        does_outcomeOf (does_syncLocale_written hprovider h htexts hwrite)⟩

/-- What comes of a locale, with what is in its file afterwards, when it is synchronized alone. -/
def ComesTo (options : SyncOptions) (source : Catalog) (provider : Provider) (host : Host)
    (start : Disk) (report : LocaleReport) (contents? : Option ByteArray) : Prop :=
  ∃ alone, Does host (outcomeOf options source (some provider) report.locale) start
      (.ok report.outcome) alone ∧
    alone.contents? (CatalogFile.pathOf options.catalogDir report.locale) = contents?

/-- A locale that is synchronized alone comes to one thing only. -/
theorem ComesTo.unique {first second : LocaleReport} {contents? others? : Option ByteArray}
    (h : ComesTo options source provider host start first contents?)
    (h' : ComesTo options source provider host start second others?)
    (hlocale : first.locale = second.locale) : first = second ∧ contents? = others? := by
  obtain ⟨alone, hdoes, rfl⟩ := h
  obtain ⟨again, hdoes', rfl⟩ := h'
  rw [hlocale] at hdoes ⊢
  obtain ⟨houtcome, rfl⟩ := hdoes.unique hdoes'
  obtain ⟨locale, outcome⟩ := first
  obtain ⟨other, _⟩ := second
  obtain rfl : locale = other := hlocale
  cases houtcome
  exact ⟨rfl, rfl⟩

/-- The disk after the turns of some locales: nothing was written, or room was made and then no
more was written than their files. -/
def Reached (directory : Path) (start ready : Disk) (done : List String) (disk : Disk) : Prop :=
  disk = start ∨ CatalogFile.Ready directory ready done disk

theorem Reached.mono {directory : Path} (h : Reached directory start ready done disk)
    (locale : String) : Reached directory start ready (locale :: done) disk :=
  h.imp_right fun hready ↦ hready.mono locale

theorem Reached.showSame (h : Reached options.catalogDir start ready done disk)
    (hprepared : CatalogFile.Prepared host options.catalogDir start answer ready)
    (hplain : '/' ∉ locale.toList) (hnot : locale ∉ done) :
    CatalogFile.ShowSame (CatalogFile.pathOf options.catalogDir locale) start disk := by
  rcases h with rfl | hready
  · exact .refl _ disk
  · exact (hprepared.shown hplain).trans (hready.showSame hplain hnot)

/-- A turn after those of other locales ends as it ends alone, and leaves the other files alone. -/
theorem exists_turn (hhost : host.IsSteady) (hprovider : provider.IsSteady)
    (hprepared : CatalogFile.Prepared host options.catalogDir start answer ready)
    (hreached : Reached options.catalogDir start ready done disk)
    (hplain : '/' ∉ locale.toList) (hnot : locale ∉ done) :
    ∃ outcome after,
      Does host (outcomeOf options source (some provider) locale) disk (.ok outcome) after ∧
      Reached options.catalogDir start ready (locale :: done) after ∧
      ComesTo options source provider host start ⟨locale, outcome⟩
        (after.contents? (CatalogFile.pathOf options.catalogDir locale)) ∧
      ∀ other, '/' ∉ other.toList → other ≠ locale →
        after.contents? (CatalogFile.pathOf options.catalogDir other) =
          disk.contents? (CatalogFile.pathOf options.catalogDir other) := by
  have hsame := hreached.showSame hprepared hplain hnot
  rcases exists_does_outcomeOf options source locale host hprovider (CatalogFile.stored start
      (CatalogFile.pathOf options.catalogDir locale)) with
    ⟨outcome, hdoes⟩ | ⟨filled, conclude, hdoes⟩
  · exact ⟨outcome, disk, hdoes disk hsame.stored, hreached.mono locale,
      ⟨start, hdoes start rfl, hsame.contents?.symm⟩, fun _ _ _ ↦ rfl⟩
  · obtain ⟨result, after, alone, hwrite, hwrite', hready, hown, hothers⟩ :=
      hprepared.write hhost hreached hplain hnot filled
    exact ⟨conclude result, after, hdoes disk result after hsame.stored hwrite, .inr hready,
      ⟨alone, hdoes start result alone rfl hwrite', hown.symm⟩, hothers⟩

/-- Whatever turns there were before, every locale that has its turn ends as it ends alone. -/
theorem exists_turns (hhost : host.IsSteady) (hprovider : provider.IsSteady)
    (hprepared : CatalogFile.Prepared host options.catalogDir start answer ready)
    (hreached : Reached options.catalogDir start ready done disk) (hnodup : targets.Nodup)
    (hplain : ∀ locale ∈ targets, '/' ∉ locale.toList) (hsource : options.sourceLocale ∉ targets)
    (hnew : ∀ locale ∈ targets, locale ∉ done) :
    ∃ reports after,
      Does host (syncAll options source (some provider) done targets) disk (.ok reports) after ∧
      reports.map (·.locale) = targets ∧
      (∀ report ∈ reports, ComesTo options source provider host start report
        (after.contents? (CatalogFile.pathOf options.catalogDir report.locale))) ∧
      ∀ other, '/' ∉ other.toList → other ∉ targets →
        after.contents? (CatalogFile.pathOf options.catalogDir other) =
          disk.contents? (CatalogFile.pathOf options.catalogDir other) := by
  induction targets generalizing done disk with
  | nil => exact ⟨[], disk, Run.does_pure [], rfl, by simp, fun _ _ _ ↦ rfl⟩
  | cons locale rest ih =>
    obtain ⟨hfirst, hrest⟩ := List.nodup_cons.1 hnodup
    have hplain' := hplain locale List.mem_cons_self
    have hne : locale ≠ options.sourceLocale := Ne.symm (List.ne_of_not_mem_cons hsource)
    have hseen : done.contains locale = false := by
      simpa using hnew locale List.mem_cons_self
    obtain ⟨outcome, middle, hturn, hmiddle, hcomes, hothers⟩ :=
      exists_turn hhost hprovider hprepared hreached hplain' (hnew locale List.mem_cons_self)
    have hnew' : ∀ other ∈ rest, other ∉ locale :: done := by
      intro other hother
      rw [List.mem_cons, not_or]
      exact ⟨fun hsame ↦ hfirst (hsame ▸ hother), hnew other (List.mem_cons_of_mem _ hother)⟩
    obtain ⟨reports, after, hturns, hlocales, hreports, hlater⟩ := ih hmiddle hrest
      (fun other hother ↦ hplain other (List.mem_cons_of_mem _ hother))
      (List.not_mem_of_not_mem_cons hsource) hnew'
    refine ⟨⟨locale, outcome⟩ :: reports, after, ?_, ?_, ?_, fun other hother hout ↦ ?_⟩
    · rw [syncAll, if_neg (by simpa using hne), hseen]
      exact hturn.bind (hturns.bind (Run.does_pure _))
    · rw [List.map_cons, hlocales]
    · intro report hreport
      rcases List.mem_cons.1 hreport with rfl | hmem
      · rw [hlater locale hplain' hfirst]
        exact hcomes
      · exact hreports report hmem
    · rw [hlater other hother (List.not_mem_of_not_mem_cons hout),
        hothers other hother (List.ne_of_not_mem_cons hout)]

/-! ## The synchronization -/

def sourceOf (options : SyncOptions) (disk : Disk) : Except Fault Catalog :=
  if disk.isFile (CatalogFile.pathOf options.catalogDir options.sourceLocale) then
    (CatalogFile.stored disk (CatalogFile.pathOf options.catalogDir options.sourceLocale)).mapError
      (.unusable (CatalogFile.pathOf options.catalogDir options.sourceLocale))
  else .error (.sourceMissing (CatalogFile.pathOf options.catalogDir options.sourceLocale))

/-- A synchronization reads the source catalog, and then the locales have their turns. -/
theorem does_catalogs {provider? : Option Provider} {answer : Except Fault (List LocaleReport)}
    (h : ∀ source, sourceOf options before = .ok source →
      Does host (syncAll options source provider? [] targets) before answer after)
    (hfault : ∀ fault, sourceOf options before = .error fault →
      answer = .error fault ∧ after = before) :
    Does host (catalogs options targets provider?) before answer after := by
  unfold catalogs
  refine Run.does_disk.bind ?_
  dsimp only
  by_cases hfile : before.isFile (CatalogFile.pathOf options.catalogDir options.sourceLocale) = true
  · have hread := (does_read host (CatalogFile.pathOf options.catalogDir options.sourceLocale)
      before).adapt (Fault.unusable (CatalogFile.pathOf options.catalogDir options.sourceLocale))
    have hsource : sourceOf options before = _ := if_pos hfile
    rw [← hsource] at hread
    rw [hfile, Bool.not_true, if_neg Bool.false_ne_true]
    cases hfound : sourceOf options before with
    | ok source =>
      rw [hfound] at hread
      exact hread.bind (h source hfound)
    | error fault =>
      obtain ⟨rfl, rfl⟩ := hfault fault hfound
      rw [hfound] at hread
      exact hread.bind_error _
  · obtain ⟨rfl, rfl⟩ := hfault _ (if_neg hfile)
    rw [Bool.not_eq_true] at hfile
    rw [hfile, Bool.not_false, if_pos rfl]
    exact (Run.does_throw _).bind_error _

theorem isFile_of_sourceOf (h : sourceOf options disk = .ok source) :
    disk.isFile (CatalogFile.pathOf options.catalogDir options.sourceLocale) = true := by
  by_contra hnone
  rw [sourceOf, if_neg hnone] at h
  cases h

/-- Of reports on different locales, one is on a given locale. -/
theorem exists_filter_eq {reports : List LocaleReport} (hnodup : (reports.map (·.locale)).Nodup)
    (hmem : locale ∈ reports.map (·.locale)) :
    ∃ report ∈ reports, report.locale = locale ∧
      reports.filter (·.locale == locale) = [report] := by
  obtain ⟨report, hreport, rfl⟩ := List.mem_map.1 hmem
  obtain ⟨earlier, later, rfl⟩ := List.append_of_mem hreport
  rw [List.map_append, List.map_cons] at hnodup
  obtain ⟨-, hlater, hdisjoint⟩ := List.nodup_append.1 hnodup
  refine ⟨report, hreport, rfl, ?_⟩
  have hearlier : earlier.filter (·.locale == report.locale) = [] := by
    rw [List.filter_eq_nil_iff]
    intro other hother hsame
    exact hdisjoint _ (List.mem_map_of_mem hother) _ List.mem_cons_self (beq_iff_eq.1 hsame)
  have hlater : later.filter (·.locale == report.locale) = [] := by
    rw [List.filter_eq_nil_iff]
    intro other hother hsame
    exact (List.nodup_cons.1 hlater).1 (beq_iff_eq.1 hsame ▸ List.mem_map_of_mem hother)
  rw [List.filter_append, List.filter_cons_of_pos (by simp), hearlier, hlater,
    List.nil_append]

/-- A synchronization fails as a whole, whatever its targets are, when the source catalog cannot be
used. -/
theorem does_catalogs_error {fault : Fault} (host : Host) (targets : List String)
    (provider? : Option Provider) (h : sourceOf options disk = .error fault) :
    Does host (catalogs options targets provider?) disk (.error fault) disk := by
  refine does_catalogs (fun source hsource ↦ ?_) fun other hother ↦ ?_
  · rw [h] at hsource
    cases hsource
  · rw [h] at hother
    cases hother
    exact ⟨rfl, rfl⟩

/-- A synchronization reports on each of its locales what comes of it alone. -/
theorem exists_does_catalogs (hhost : host.IsSteady) (hprovider : provider.IsSteady)
    (hprepared : CatalogFile.Prepared host options.catalogDir start answer ready)
    (hfound : sourceOf options start = .ok source) (hnodup : targets.Nodup)
    (hplain : ∀ locale ∈ targets, '/' ∉ locale.toList) (hsource : options.sourceLocale ∉ targets)
    (hlocale : locale ∈ targets) :
    ∃ reports report after,
      Does host (catalogs options targets (some provider)) start (.ok reports) after ∧
      reports.map (·.locale) = targets ∧ report.locale = locale ∧
      reports.filter (·.locale == locale) = [report] ∧
      ComesTo options source provider host start report
        (after.contents? (CatalogFile.pathOf options.catalogDir locale)) := by
  obtain ⟨reports, after, hturns, hlocales, hcomes, -⟩ := exists_turns hhost hprovider hprepared
    (.inl rfl) hnodup hplain hsource fun _ _ ↦ List.not_mem_nil
  rw [← hlocales] at hnodup hlocale
  obtain ⟨report, hreport, hsame, hfilter⟩ := exists_filter_eq hnodup hlocale
  refine ⟨reports, report, after, does_catalogs (fun other hother ↦ ?_) fun fault hfault ↦ ?_,
    hlocales, hsame, hfilter, hsame ▸ hcomes report hreport⟩
  · rw [hfound] at hother
    cases hother
    exact hturns
  · rw [hfound] at hfault
    cases hfault

/-- What a synchronization of several locales comes to for one of them is what it comes to when that
one is synchronized alone: the same report, or the same fault, and the same file. -/
structure IsolatedAmong (options : SyncOptions) (provider : Provider) (host : Host)
    (session : Session) (targets : List String) (locale : String) : Prop where
  outcome : ∃ outcome : Except Fault LocaleOutcome,
    ((catalogs options targets (some provider)).start host session).1.map
        (List.filter (·.locale == locale)) = outcome.map (fun outcome ↦ [⟨locale, outcome⟩]) ∧
      ((catalogs options [locale] (some provider)).start host session).1 =
        outcome.map fun outcome ↦ [⟨locale, outcome⟩]
  file : ((catalogs options targets (some provider)).start host session).2.disk.contents?
      (CatalogFile.pathOf options.catalogDir locale) =
    ((catalogs options [locale] (some provider)).start host session).2.disk.contents?
      (CatalogFile.pathOf options.catalogDir locale)

/-- On a steady host, with a provider that answers every request by itself, a synchronization comes
to the same for each of its locales as when that one is synchronized alone, in whatever order they
have their turns. Only where an absolute path names the source locale does the directory of the
catalogs have to be there, or its path to have no step upward. -/
theorem catalogs_isolated (options : SyncOptions) (provider : Provider) (host : Host)
    (session : Session) (hhost : host.IsSteady) (hprovider : provider.IsSteady)
    (htree : session.disk.IsTree)
    (hroom : (⟨options.sourceLocale⟩ : Path).isAbsolute = true →
      session.disk.isDirectory options.catalogDir = true ∨ .up ∉ options.catalogDir.components)
    (targets : List String) (hnodup : targets.Nodup)
    (hplain : ∀ locale ∈ targets, '/' ∉ locale.toList) (hsource : options.sourceLocale ∉ targets) :
    ∀ others : List String, others.Perm targets → ∀ locale ∈ targets,
      IsolatedAmong options provider host session others locale := by
  intro others hperm locale hlocale
  cases hfound : sourceOf options session.disk with
  | error fault =>
    obtain ⟨hanswer, hdisk⟩ := does_catalogs_error host others (some provider) hfound session rfl
    obtain ⟨hanswer', hdisk'⟩ :=
      does_catalogs_error host [locale] (some provider) hfound session rfl
    exact ⟨⟨.error fault, by rw [hanswer]; rfl, hanswer'⟩, by rw [hdisk, hdisk']⟩
  | ok source =>
    obtain ⟨answer, ready, hprepared⟩ :=
      CatalogFile.exists_prepared hhost (.of_isFile (isFile_of_sourceOf hfound) htree hroom)
    obtain ⟨reports, report, after, hjoint, -, hsame, hfilter, hcomes⟩ :=
      exists_does_catalogs hhost hprovider hprepared hfound (hperm.nodup_iff.2 hnodup)
        (fun other hother ↦ hplain other (hperm.subset hother))
        (fun hmem ↦ hsource (hperm.subset hmem)) (hperm.symm.subset hlocale)
    obtain ⟨again, other, alone, halone, hlocales, hsame', hfilter', hcomes'⟩ :=
      exists_does_catalogs hhost hprovider hprepared hfound (List.nodup_singleton locale)
        (fun other hother ↦ List.mem_singleton.1 hother ▸ hplain locale hlocale)
        (fun hmem ↦ hsource (List.mem_singleton.1 hmem ▸ hlocale))
        (List.mem_singleton_self locale)
    obtain ⟨rfl, hfile⟩ := hcomes.unique hcomes' (hsame.trans hsame'.symm)
    obtain ⟨hanswer, hdisk⟩ := hjoint session rfl
    obtain ⟨hanswer', hdisk'⟩ := halone session rfl
    obtain ⟨only, rfl, honly⟩ := List.map_eq_singleton_iff.1 hlocales
    rw [List.filter_cons_of_pos (by simpa using honly), List.filter_nil] at hfilter'
    obtain ⟨named, outcome⟩ := report
    obtain rfl : named = locale := hsame
    refine ⟨⟨.ok outcome, ?_, ?_⟩, ?_⟩
    · rw [hanswer]
      exact congrArg Except.ok hfilter
    · rw [hanswer', hfilter']
      rfl
    · rw [hdisk, hdisk', hfile]

/-- A disk with a source catalog of two keys and a catalog of one of them. -/
def oneTranslated : Disk where
  nodes :=
    [(["en.json"], .file "\x7b\"hi\": \"Hello\", \"bye\": \"Goodbye\"\x7d".toUTF8),
      (["t"], .directory), (["t", "de.json"], .file "\x7b\"hi\": \"Hallo\"\x7d".toUTF8)]
  workingDirectory := []

/-- A host that does not let the French catalog be written. -/
def guardedHost : Host where
  environment := []
  refusal? _ change :=
    match change with
    | .write place _ => if place.getLast? = some "fr.json" then some ⟨none, .denied⟩ else none
    | .create _ => none
  transport _ _ := .unreachable ""

theorem isTree_oneTranslated : oneTranslated.IsTree := .of_forall (by decide)

theorem catalogs_isolated_oneTranslated :
    ((catalogs ⟨⟨"new/t"⟩, "/en", 1⟩ ["fr", "de"] (some .marking)).start guardedHost
        (.start oneTranslated)).1.toOption =
      some [⟨"fr", .failed "Failed to write file: new/t/fr.json: Permission denied (os error 13)"⟩,
        ⟨"de", .translated 2 0⟩] ∧
    IsolatedAmong ⟨⟨"new/t"⟩, "/en", 1⟩ .marking guardedHost (.start oneTranslated) ["fr", "de"]
      "de" := by
  refine ⟨by decide +kernel, ?_⟩
  exact catalogs_isolated ⟨⟨"new/t"⟩, "/en", 1⟩ .marking guardedHost (.start oneTranslated)
    (fun _ _ ↦ rfl) (fun _ _ ↦ rfl) isTree_oneTranslated (fun _ ↦ .inr (by decide)) ["de", "fr"]
    (by decide) (by decide) (by decide) ["fr", "de"] (by decide) "de" (by decide)

/-- Where the path of the directory leads back out of a missing directory, the first catalog that is
written makes the others appear: a locale is not asked for what it has any more. -/
theorem not_isolatedAmong_leadingBack :
    obligingHost.IsSteady ∧ Provider.IsSteady .marking ∧ oneTranslated.IsTree ∧
      ["fr", "de"].Nodup ∧ (∀ locale ∈ ["fr", "de"], '/' ∉ locale.toList) ∧ "/en" ∉ ["fr", "de"] ∧
      ¬ IsolatedAmong ⟨⟨"new/../t"⟩, "/en", 1⟩ .marking obligingHost (.start oneTranslated)
        ["fr", "de"] "de" := by
  refine ⟨fun _ _ ↦ rfl, fun _ _ ↦ rfl, isTree_oneTranslated, by decide, by decide, by decide, ?_⟩
  rintro ⟨⟨outcome, hjoint, halone⟩, -⟩
  have htogether : ((catalogs ⟨⟨"new/../t"⟩, "/en", 1⟩ ["fr", "de"] (some .marking)).start
      obligingHost (.start oneTranslated)).1.toOption =
        some [⟨"fr", .translated 2 0⟩, ⟨"de", .translated 1 0⟩] := by decide +kernel
  have hseparate : ((catalogs ⟨⟨"new/../t"⟩, "/en", 1⟩ ["de"] (some .marking)).start
      obligingHost (.start oneTranslated)).1.toOption = some [⟨"de", .translated 2 0⟩] := by
    decide +kernel
  rw [halone] at hseparate
  cases outcome with
  | error fault => cases hseparate
  | ok outcome =>
    obtain rfl : outcome = .translated 2 0 := by
      simpa [Except.map, Except.toOption] using hseparate
    cases hanswer : ((catalogs ⟨⟨"new/../t"⟩, "/en", 1⟩ ["fr", "de"] (some .marking)).start
        obligingHost (.start oneTranslated)).1 with
    | error fault =>
      rw [hanswer] at htogether
      cases htogether
    | ok reports =>
      rw [hanswer] at htogether hjoint
      obtain rfl : reports = _ := Option.some.inj htogether
      cases hjoint

end Sync

end Phrasebook
