import Phrasebook.Proofs.Sync.Locale

/-!
# Synchronizing all catalogs

The locales have their turns one after the other, each of them once. Since no turn touches what
belongs to another locale, the turn of a locale finds the catalog that was there before the first
one, and what it leaves behind is there after the last one. Put together with what one turn amounts
to, this says of a whole synchronization what becomes of each catalog.
-/

namespace Phrasebook.Sync

variable {options : SyncOptions} {source : Catalog} {provider : Provider} {host : Host}
variable {session start final : Session}

/-- Turns between two sessions, one after the other, with nothing but warnings between them. -/
def Consecutive : Session → List Turn → Session → Prop
  | start, [], final => start.OnlyWarned final
  | start, turn :: rest, final => start.OnlyWarned turn.before ∧ Consecutive turn.after rest final

theorem Consecutive.warned {other : Session} {turns : List Turn}
    (h : Consecutive other turns final) (hwarned : start.OnlyWarned other) :
    Consecutive start turns final := by
  cases turns with
  | nil => exact hwarned.trans h
  | cons turn rest => exact ⟨hwarned.trans h.1, h.2⟩

theorem Consecutive.concat {turns : List Turn} {turn : Turn}
    (h : Consecutive start turns turn.before) : Consecutive start (turns ++ [turn]) turn.after := by
  induction turns generalizing start with
  | nil => exact ⟨h, .refl turn.after⟩
  | cons first rest ih => exact ⟨h.1, ih h.2⟩

/-- The turns before a turn lead to it, and the turns after it go on from it. -/
theorem Consecutive.split {earlier later : List Turn} {turn : Turn}
    (h : Consecutive start (earlier ++ turn :: later) final) :
    Consecutive start earlier turn.before ∧ Consecutive turn.after later final := by
  induction earlier generalizing start with
  | nil => exact h
  | cons first rest ih =>
    obtain ⟨hwarned, hrest⟩ := h
    obtain ⟨hbefore, hafter⟩ := ih hrest
    exact ⟨⟨hwarned, hbefore⟩, hafter⟩

/-- A place belongs to a locale when its catalog could be there. -/
def Owned (turns : List Turn) (place : Disk.Place) : Prop :=
  ∃ turn ∈ turns,
    place.getLast? = some (turn.report.locale ++ "." ++ CatalogFile.extension)

theorem owned_head {turn : Turn} {rest : List Turn} {place : Disk.Place}
    (h : place.getLast? = some (turn.report.locale ++ "." ++ CatalogFile.extension)) :
    Owned (turn :: rest) place :=
  ⟨turn, List.mem_cons_self, h⟩

theorem Owned.tail {turn : Turn} {rest : List Turn} {place : Disk.Place} (h : Owned rest place) :
    Owned (turn :: rest) place := by
  obtain ⟨other, hother, hlast⟩ := h
  exact ⟨other, List.mem_cons_of_mem _ hother, hlast⟩

/-- Turns that keep to themselves change no file but those of their own catalogs. -/
theorem Consecutive.disk {turns : List Turn} (h : Consecutive start turns final)
    (hseparate : ∀ turn ∈ turns, turn.Separate) :
    Disk.ChangedWithin (Owned turns) start.disk final.disk := by
  induction turns generalizing start with
  | nil =>
    rw [h.disk]
    exact .refl _ _
  | cons turn rest ih =>
    obtain ⟨hwarned, hrest⟩ := h
    have hturn := (hseparate turn List.mem_cons_self).disk
    rw [hwarned.disk] at hturn
    have hlater := ih hrest fun other hother ↦ hseparate other (List.mem_cons_of_mem _ hother)
    exact (hturn.mono fun _ ↦ owned_head).trans (hlater.mono fun _ ↦ Owned.tail)

/-- All that was asked for in a row of turns was asked for by one of them, for its own locale. -/
theorem Consecutive.requests {turns : List Turn} (h : Consecutive start turns final)
    (hseparate : ∀ turn ∈ turns, turn.Separate) :
    ∃ sent, final.requests = start.requests ++ sent ∧
      ∀ request ∈ sent, ∃ turn ∈ turns, request.targetLocale = turn.report.locale := by
  induction turns generalizing start with
  | nil => exact ⟨[], by rw [h.requests, List.append_nil], by simp⟩
  | cons turn rest ih =>
    obtain ⟨hwarned, hrest⟩ := h
    obtain ⟨own, hown, howner⟩ := (hseparate turn List.mem_cons_self).requests
    obtain ⟨sent, hsent, howners⟩ := ih hrest fun other hother ↦
      hseparate other (List.mem_cons_of_mem _ hother)
    refine ⟨own ++ sent, ?_, fun request hrequest ↦ ?_⟩
    · rw [hsent, hown, hwarned.requests, List.append_assoc]
    · rcases List.mem_append.1 hrequest with hmem | hmem
      · exact ⟨turn, List.mem_cons_self, howner request hmem⟩
      · obtain ⟨other, hother, hlocale⟩ := howners request hmem
        exact ⟨other, List.mem_cons_of_mem _ hother, hlocale⟩

/-! ## Which locales have a turn -/

/-- A turn has an outcome however its locale ends. -/
theorem start_outcomeOf (options : SyncOptions) (source : Catalog) (provider? : Option Provider)
    (locale : String) (host : Host) (session : Session) :
    ∃ outcome after, (outcomeOf options source provider? locale).start host session =
      (.ok outcome, after) := by
  unfold outcomeOf
  rw [Run.start_bind, Run.start_outcome]
  cases (syncLocale options source provider? locale).start host session with
  | mk answer after =>
    cases answer with
    | ok outcome => exact ⟨outcome, after, rfl⟩
    | error cause => exact ⟨_, _, rfl⟩

/-- The locales that still have a turn when some have had theirs. -/
def pending (options : SyncOptions) (seen targets : List String) : List String :=
  ((targets.filter (· != options.sourceLocale)).filter fun locale ↦ !seen.contains locale).eraseDups

theorem pending_source {seen targets : List String} {locale : String}
    (h : locale = options.sourceLocale) :
    pending options seen (locale :: targets) = pending options seen targets := by
  simp [pending, h]

theorem pending_seen {seen targets : List String} {locale : String} (h : seen.contains locale) :
    pending options seen (locale :: targets) = pending options seen targets := by
  unfold pending
  by_cases hsource : locale = options.sourceLocale
  · simp [hsource]
  · rw [List.filter_cons_of_pos (by simpa using hsource),
      List.filter_cons_of_neg (by simpa using h)]

/-- A locale that is not the source and was not seen has the next turn. -/
theorem pending_new {seen targets : List String} {locale : String}
    (hsource : locale ≠ options.sourceLocale) (hseen : seen.contains locale = false) :
    pending options seen (locale :: targets) =
      locale :: pending options (locale :: seen) targets := by
  unfold pending
  rw [List.filter_cons_of_pos (by simpa using hsource),
    List.filter_cons_of_pos (by simpa using hseen), List.eraseDups_cons, List.filter_filter]
  congr 2
  apply List.filter_congr
  intro other _
  rw [List.contains_cons, Bool.not_or]

theorem mem_pending {seen targets : List String} {locale : String}
    (h : locale ∈ pending options seen targets) : locale ∈ targets ∧ locale ∉ seen := by
  induction targets generalizing seen with
  | nil => cases h
  | cons first rest ih =>
    by_cases hsource : first = options.sourceLocale
    · rw [pending_source hsource] at h
      exact ⟨List.mem_cons_of_mem _ (ih h).1, (ih h).2⟩
    · cases hseen : seen.contains first with
      | true =>
        rw [pending_seen hseen] at h
        exact ⟨List.mem_cons_of_mem _ (ih h).1, (ih h).2⟩
      | false =>
        rw [pending_new hsource hseen] at h
        rcases List.mem_cons.1 h with rfl | hmem
        · exact ⟨List.mem_cons_self, by simpa using hseen⟩
        · obtain ⟨hrest, hnew⟩ := ih hmem
          exact ⟨List.mem_cons_of_mem _ hrest, fun hin ↦ hnew (List.mem_cons_of_mem _ hin)⟩

theorem nodup_pending (seen targets : List String) : (pending options seen targets).Nodup := by
  induction targets generalizing seen with
  | nil => exact List.nodup_nil
  | cons first rest ih =>
    by_cases hsource : first = options.sourceLocale
    · rw [pending_source hsource]
      exact ih seen
    · cases hseen : seen.contains first with
      | true =>
        rw [pending_seen hseen]
        exact ih seen
      | false =>
        rw [pending_new hsource hseen]
        exact List.nodup_cons.2 ⟨fun hin ↦ (mem_pending hin).2 List.mem_cons_self, ih _⟩

variable (options source provider host) in
/-- Every locale that is no source locale and was not seen has its turn. -/
theorem start_syncAll (targets seen : List String) (session : Session) :
    ∃ turns final,
      (syncAll options source (some provider) seen targets).start host session =
        (.ok (turns.map Turn.report), final) ∧
      Consecutive session turns final ∧
      (∀ turn ∈ turns, turn.Taken options source provider host) ∧
      turns.map (·.report.locale) = pending options seen targets := by
  induction targets generalizing seen session with
  | nil => exact ⟨[], session, rfl, .refl session, by simp, rfl⟩
  | cons locale rest ih =>
    rw [syncAll]
    by_cases hsource : locale = options.sourceLocale
    · obtain ⟨turns, final, hstart, hconsecutive, htaken, hlocales⟩ := ih seen
        { session with warnings := session.warnings ++ [.sourceLocaleSkipped locale] }
      refine ⟨turns, final, ?_, hconsecutive.warned (session.onlyWarned_warnings _), htaken, ?_⟩
      · rw [if_pos (beq_iff_eq.2 hsource), Run.start_bind_ok (Run.start_warn _ _ _), hstart]
      · rw [hlocales, pending_source hsource]
    · have hsource' : ¬ (locale == options.sourceLocale) = true := by simpa using hsource
      rw [if_neg hsource']
      cases hseen : seen.contains locale with
      | true =>
        obtain ⟨turns, final, hstart, hconsecutive, htaken, hlocales⟩ := ih seen session
        refine ⟨turns, final, ?_, hconsecutive, htaken, ?_⟩
        · exact hstart
        · rw [hlocales, pending_seen hseen]
      | false =>
        obtain ⟨outcome, after, houtcome⟩ :=
          start_outcomeOf options source (some provider) locale host session
        obtain ⟨turns, final, hstart, hconsecutive, htaken, hlocales⟩ := ih (locale :: seen) after
        refine ⟨⟨⟨locale, outcome⟩, session, after⟩ :: turns, final, ?_,
          ⟨.refl session, hconsecutive⟩, ?_, ?_⟩
        · rw [if_neg Bool.false_ne_true, Run.start_bind_ok houtcome, Run.start_bind_ok hstart]
          rfl
        · intro turn hturn
          rcases List.mem_cons.1 hturn with rfl | hmem
          · exact houtcome
          · exact htaken turn hmem
        · rw [List.map_cons, hlocales, pending_new hsource hseen]

theorem plain_of_locales {turns : List Turn} {targets : List String}
    (hlocales : turns.map (·.report.locale) = pending options [] targets)
    (hplain : ∀ locale ∈ targets, '/' ∉ locale.toList) :
    ∀ turn ∈ turns, '/' ∉ turn.report.locale.toList := by
  intro turn hturn
  have hpending : turn.report.locale ∈ pending options [] targets := by
    rw [← hlocales]
    exact List.mem_map_of_mem hturn
  exact hplain _ (mem_pending hpending).1

/-- A synchronization whose source catalog can be read goes on to its targets. -/
theorem start_catalogs (targets : List String) (provider? : Option Provider) (host : Host)
    (hfile : session.disk.isFile
      (CatalogFile.pathOf options.catalogDir options.sourceLocale) = true)
    (hsource : CatalogFile.stored session.disk
      (CatalogFile.pathOf options.catalogDir options.sourceLocale) = .ok source) :
    ∃ warned, session.OnlyWarned warned ∧
      (catalogs options targets provider?).start host session =
        (syncAll options source provider? [] targets).start host warned := by
  obtain ⟨warnings, hread⟩ := CatalogFile.start_read host session
    (CatalogFile.pathOf options.catalogDir options.sourceLocale)
  refine ⟨{ session with warnings := warnings }, session.onlyWarned_warnings _, ?_⟩
  unfold catalogs
  simp only [Run.start_bind, Run.start_disk, hfile, Bool.not_true, Bool.false_eq_true, if_false,
    Run.start_adapt, hread, hsource, Except.mapError]

/-- The other turns of a synchronization touch nothing of a turn that found some target: neither
what it reads, nor what it leaves behind, nor what is asked for its locale. -/
structure Undisturbed (options : SyncOptions) (session final : Session) (target : Catalog)
    (turn : Turn) : Prop where
  before {place : Disk.Place} : session.disk.locate (turn.path options) = .ok place →
    CatalogFile.stored session.disk (turn.path options) = .ok target
  after {place : Disk.Place} : turn.after.disk.locate (turn.path options) = .ok place →
    final.disk.contents? (turn.path options) = turn.after.disk.contents? (turn.path options)
  requests : ∃ earlier later, turn.before.requests = session.requests ++ earlier ∧
    final.requests = turn.after.requests ++ later ∧
    ∀ request ∈ earlier ++ later, request.targetLocale ≠ turn.report.locale

/-- A place of another locale is not where the catalog of a locale is. -/
theorem not_owned {turns : List Turn} {locale : String} {disk : Disk} {place : Disk.Place}
    (hplain : '/' ∉ locale.toList) (hothers : locale ∉ turns.map (·.report.locale))
    (h : disk.locate (CatalogFile.pathOf options.catalogDir locale) = .ok place) :
    ¬ Owned turns place := by
  rintro ⟨other, hother, hlast⟩
  exact hothers (CatalogFile.eq_of_getLast? hplain h hlast ▸ List.mem_map_of_mem hother)

/-- No other turn of a row disturbs one that found its target. -/
theorem undisturbed_of_consecutive {earlier later : List Turn} {turn : Turn} {target : Catalog}
    (h : Consecutive session (earlier ++ turn :: later) final)
    (hseparate : ∀ other ∈ earlier ++ turn :: later, other.Separate)
    (hnodup : ((earlier ++ turn :: later).map (·.report.locale)).Nodup)
    (hplain : '/' ∉ turn.report.locale.toList)
    (htarget : CatalogFile.stored turn.before.disk (turn.path options) = .ok target) :
    Undisturbed options session final target turn := by
  obtain ⟨hbefore, hafter⟩ := h.split
  have hseparateEarlier : ∀ other ∈ earlier, other.Separate := fun other hother ↦
    hseparate other (List.mem_append_left _ hother)
  have hseparateLater : ∀ other ∈ later, other.Separate := fun other hother ↦
    hseparate other (List.mem_append_right _ (List.mem_cons_of_mem _ hother))
  rw [List.map_append, List.map_cons] at hnodup
  obtain ⟨-, hrest, hdisjoint⟩ := List.nodup_append.1 hnodup
  have hnotLater := (List.nodup_cons.1 hrest).1
  have hnotEarlier : turn.report.locale ∉ earlier.map (·.report.locale) := fun hin ↦
    hdisjoint _ hin _ List.mem_cons_self rfl
  have hdiskBefore := hbefore.disk hseparateEarlier
  have hdiskAfter := hafter.disk hseparateLater
  obtain ⟨sentEarlier, hsentEarlier, hownEarlier⟩ := hbefore.requests hseparateEarlier
  obtain ⟨sentLater, hsentLater, hownLater⟩ := hafter.requests hseparateLater
  refine ⟨fun {place} hlocate ↦ ?_, fun {place} hlocate ↦ ?_,
    sentEarlier, sentLater, hsentEarlier, hsentLater, fun request hrequest ↦ ?_⟩
  · exact CatalogFile.stored_congr hlocate hdiskBefore.keeps
      (hdiskBefore.contents? hlocate (not_owned hplain hnotEarlier hlocate)) htarget
  · exact hdiskAfter.contents? hlocate (not_owned hplain hnotLater hlocate)
  · rintro hsame
    rcases List.mem_append.1 hrequest with hmem | hmem
    · obtain ⟨other, hother, hlocale⟩ := hownEarlier request hmem
      exact hnotEarlier (hsame ▸ hlocale ▸ List.mem_map_of_mem hother)
    · obtain ⟨other, hother, hlocale⟩ := hownLater request hmem
      exact hnotLater (hsame ▸ hlocale ▸ List.mem_map_of_mem hother)

/-- A synchronization reports every distinct target once, in the order in which they were first
named, and every one of them that does not fail is filled exactly as the provider answers. -/
theorem catalogs_filled (options : SyncOptions) (targets : List String) (provider : Provider)
    (host : Host) (session : Session) (source : Catalog)
    (hfile : session.disk.isFile
      (CatalogFile.pathOf options.catalogDir options.sourceLocale) = true)
    (hsource : CatalogFile.stored session.disk
      (CatalogFile.pathOf options.catalogDir options.sourceLocale) = .ok source)
    (hplain : ∀ locale ∈ targets, '/' ∉ locale.toList) :
    ∃ turns final,
      (catalogs options targets (some provider)).start host session =
        (.ok (turns.map Turn.report), final) ∧
      turns.map (·.report.locale) =
        (targets.filter (· != options.sourceLocale)).eraseDups ∧
      Consecutive session turns final ∧
      (∀ turn ∈ turns, turn.Taken options source provider host) ∧
      ∀ turn ∈ turns, ¬ turn.Failed → ∃ target texts filled,
        CatalogFile.stored turn.before.disk (turn.path options) = .ok target ∧
        Undisturbed options session final target turn ∧
        Filled options source target (turn.answers options source provider target) texts filled
          turn := by
  obtain ⟨warnings, hread⟩ := CatalogFile.start_read host session
    (CatalogFile.pathOf options.catalogDir options.sourceLocale)
  rw [hsource] at hread
  obtain ⟨turns, final, hstart, hconsecutive, htaken, hlocales⟩ :=
    start_syncAll options source provider host targets [] { session with warnings := warnings }
  have hmem : ∀ turn ∈ turns, '/' ∉ turn.report.locale.toList := by
    intro turn hturn
    have hpending : turn.report.locale ∈ pending options [] targets := by
      rw [← hlocales]
      exact List.mem_map_of_mem hturn
    exact hplain _ (mem_pending hpending).1
  refine ⟨turns, final, ?_, ?_, hconsecutive.warned (session.onlyWarned_warnings _), htaken, ?_⟩
  · unfold catalogs
    simp only [Run.start_bind, Run.start_disk, hfile, Bool.not_true, Bool.false_eq_true, if_false,
      Run.start_adapt, hread, Except.mapError]
    exact hstart
  · rw [hlocales]
    unfold pending
    rw [List.filter_eq_self.2 (by simp)]
  · intro turn hturn hsettled
    obtain ⟨target, htarget, hfilled⟩ := (htaken turn hturn).filled hsettled
    obtain ⟨earlier, later, rfl⟩ := List.append_of_mem hturn
    refine ⟨target, _, _, htarget, ?_, hfilled⟩
    refine undisturbed_of_consecutive (hconsecutive.warned (session.onlyWarned_warnings _))
      (fun other hother ↦ (htaken other hother).separate (hmem other hother)) ?_ (hmem turn hturn)
      htarget
    rw [hlocales]
    exact nodup_pending _ _

/-- A disk with a source catalog of two keys, a French catalog in which one of them has no text, and
an Italian one that lacks nothing. -/
def partlyTranslated : Disk where
  nodes :=
    [(["t"], .directory),
      (["t", "en.json"], .file "\x7b\"hi\": \"Hello\", \"bye\": \"Goodbye\"\x7d".toUTF8),
      (["t", "fr.json"], .file "\x7b\"old\": \"Ancien\", \"bye\": \" \"\x7d".toUTF8),
      (["t", "it.json"], .file "\x7b\"hi\": \"Ciao\", \"bye\": \"Addio\"\x7d".toUTF8)]
  workingDirectory := []

/-- A provider that does not answer its first request and marks the texts of all others. -/
def markingLater : Provider := fun earlier request ↦
  if earlier.isEmpty then .error (.decode "") else Provider.marking earlier request

theorem catalogs_filled_partlyTranslated :
    ∃ (turns : List Turn) (final : Session),
      (catalogs ⟨⟨"/t"⟩, "en", 1⟩ ["fr", "en", "de", "fr", "it"] (some markingLater)).start
          ⟨[], fun _ _ ↦ none, fun _ _ ↦ .unreachable ""⟩ (.start partlyTranslated) =
        (.ok (turns.map Turn.report), final) ∧
      turns.map Turn.report =
        [⟨"fr", .translated 1 1⟩, ⟨"de", .translated 2 0⟩, ⟨"it", .upToDate⟩] ∧
      CatalogFile.stored final.disk (CatalogFile.pathOf ⟨"/t"⟩ "fr") =
        .ok (.ofList [("old", "Ancien"), ("bye", "[FR] Goodbye")]) ∧
      ∀ turn ∈ turns, ∃ target texts filled,
        CatalogFile.stored turn.before.disk (turn.path ⟨⟨"/t"⟩, "en", 1⟩) = .ok target ∧
        Undisturbed ⟨⟨"/t"⟩, "en", 1⟩ (.start partlyTranslated) final target turn ∧
        Filled ⟨⟨"/t"⟩, "en", 1⟩ (.ofList [("hi", "Hello"), ("bye", "Goodbye")]) target
          (turn.answers ⟨⟨"/t"⟩, "en", 1⟩ (.ofList [("hi", "Hello"), ("bye", "Goodbye")])
            markingLater target) texts filled turn := by
  obtain ⟨turns, final, hstart, -, -, -, hturns⟩ :=
    catalogs_filled ⟨⟨"/t"⟩, "en", 1⟩ ["fr", "en", "de", "fr", "it"] markingLater
      ⟨[], fun _ _ ↦ none, fun _ _ ↦ .unreachable ""⟩ (.start partlyTranslated)
      (.ofList [("hi", "Hello"), ("bye", "Goodbye")]) (by decide +kernel) (by decide +kernel)
      (by decide +kernel)
  have hevaluated : ((catalogs ⟨⟨"/t"⟩, "en", 1⟩ ["fr", "en", "de", "fr", "it"]
      (some markingLater)).start ⟨[], fun _ _ ↦ none, fun _ _ ↦ .unreachable ""⟩
        (.start partlyTranslated)).1.toOption =
          some [⟨"fr", .translated 1 1⟩, ⟨"de", .translated 2 0⟩, ⟨"it", .upToDate⟩] := by
    decide +kernel
  have hfrench : CatalogFile.stored ((catalogs ⟨⟨"/t"⟩, "en", 1⟩ ["fr", "en", "de", "fr", "it"]
      (some markingLater)).start ⟨[], fun _ _ ↦ none, fun _ _ ↦ .unreachable ""⟩
        (.start partlyTranslated)).2.disk (CatalogFile.pathOf ⟨"/t"⟩ "fr") =
          .ok (.ofList [("old", "Ancien"), ("bye", "[FR] Goodbye")]) := by
    decide +kernel
  rw [hstart] at hevaluated hfrench
  have hreports := Option.some.inj hevaluated
  refine ⟨turns, final, hstart, hreports, hfrench, fun turn hturn ↦ hturns turn hturn ?_⟩
  rintro ⟨reason, hfailed⟩
  have hreport := hreports ▸ List.mem_map_of_mem (f := Turn.report) hturn
  simp only [List.mem_cons, List.not_mem_nil, or_false] at hreport
  rcases hreport with h | h | h <;> rw [h] at hfailed <;> cases hfailed

end Phrasebook.Sync
