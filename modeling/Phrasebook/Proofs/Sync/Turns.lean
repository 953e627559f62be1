import Phrasebook.Proofs.Sync.Catalogs

/-!
# The turns of a synchronization

The turn of a locale finds the catalog that was there when the synchronization began, and what it
leaves behind is there when it ends: the other turns make room in the directory of the catalogs and
change the files of their own locales. So a synchronization asks for a locale for what is missing
in the catalog that it had at the beginning, and for nothing else.
-/

namespace Phrasebook.Sync

variable {options : SyncOptions} {source target : Catalog} {provider : Provider} {host : Host}
variable {session start final : Session} {turns : List Turn} {locale : String}

theorem mem_pending_iff {targets : List String} :
    locale ∈ pending options [] targets ↔ locale ∈ targets ∧ locale ≠ options.sourceLocale := by
  simp [pending, List.mem_eraseDups]

/-- The catalog of one of the turns is at a place. -/
def Held (options : SyncOptions) (turns : List Turn) (place : Disk.Place) : Prop :=
  ∃ turn ∈ turns, turn.Holds options place

theorem not_held {disk : Disk} {place : Disk.Place}
    (hplain : ∀ turn ∈ turns, '/' ∉ turn.report.locale.toList)
    (hlocale : '/' ∉ locale.toList) (hothers : locale ∉ turns.map (·.report.locale))
    (h : disk.locate (CatalogFile.pathOf options.catalogDir locale) = .ok place) :
    ¬ Held options turns place := by
  rintro ⟨turn, hturn, hholds⟩
  have hlast := Disk.locate_getLast (CatalogFile.fileName?_pathOf _ (hplain turn hturn)) hholds
  exact hothers (CatalogFile.eq_of_getLast? hlocale h hlast ▸ List.mem_map_of_mem hturn)

/-- Turns in a row make room if they have to, and change the files of their locales. -/
theorem Consecutive.furnished {region : Disk.Place → Prop} {disk : Disk}
    (h : Consecutive start turns final)
    (htaken : ∀ turn ∈ turns, turn.Taken options source provider host)
    (hplain : ∀ turn ∈ turns, '/' ∉ turn.report.locale.toList)
    (hroom : CatalogFile.HasRoom disk options.catalogDir)
    (hbefore : CatalogFile.Furnished options.catalogDir region disk start.disk) :
    CatalogFile.Furnished options.catalogDir (fun place ↦ region place ∨ Held options turns place)
      disk final.disk := by
  induction turns generalizing start region with
  | nil =>
    rw [Session.OnlyWarned.disk h]
    exact hbefore.mono fun _ ↦ .inl
  | cons turn rest ih =>
    obtain ⟨hwarned, hrest⟩ := h
    rw [← hwarned.disk] at hbefore
    have hturn := (htaken turn List.mem_cons_self).furnished (hplain turn List.mem_cons_self)
      hroom hbefore
    refine (ih hrest (fun other hother ↦ htaken other (List.mem_cons_of_mem _ hother))
      (fun other hother ↦ hplain other (List.mem_cons_of_mem _ hother)) hturn).mono ?_
    rintro place ((hplace | hplace) | ⟨other, hother, hplace⟩)
    · exact .inl hplace
    · exact .inr ⟨turn, List.mem_cons_self, hplace⟩
    · exact .inr ⟨other, List.mem_cons_of_mem _ hother, hplace⟩

/-- The turns of a synchronization, where there is room for the catalogs. -/
structure Synchronized (options : SyncOptions) (source : Catalog) (provider : Provider)
    (host : Host) (targets : List String) (session : Session) (turns : List Turn)
    (final : Session) : Prop where
  start : (catalogs options targets (some provider)).start host session =
    (.ok (turns.map Turn.report), final)
  consecutive : Consecutive session turns final
  taken : ∀ turn ∈ turns, turn.Taken options source provider host
  locales : turns.map (·.report.locale) = pending options [] targets
  plain : ∀ turn ∈ turns, '/' ∉ turn.report.locale.toList
  room : CatalogFile.HasRoom session.disk options.catalogDir

/-- Where the source catalog can be read and there is room, a synchronization takes its turns. -/
theorem exists_synchronized (provider : Provider) (host : Host) {targets : List String}
    (hfile : session.disk.isFile
      (CatalogFile.pathOf options.catalogDir options.sourceLocale) = true)
    (hsource : CatalogFile.stored session.disk
      (CatalogFile.pathOf options.catalogDir options.sourceLocale) = .ok source)
    (hroom : CatalogFile.HasRoom session.disk options.catalogDir)
    (hplain : ∀ locale ∈ targets, '/' ∉ locale.toList) :
    ∃ turns final, Synchronized options source provider host targets session turns final := by
  obtain ⟨warned, hwarned, hcatalogs⟩ := start_catalogs targets (some provider) host hfile hsource
  obtain ⟨turns, final, hstart, hconsecutive, htaken, hlocales⟩ :=
    start_syncAll options source provider host targets [] warned
  exact ⟨turns, final,
    { start := hcatalogs.trans hstart
      consecutive := hconsecutive.warned hwarned
      taken := htaken
      locales := hlocales
      plain := plain_of_locales hlocales hplain
      room := hroom }⟩

namespace Synchronized

variable {targets : List String} {turn : Turn}

theorem source_not_mem
    (h : Synchronized options source provider host targets session turns final) :
    options.sourceLocale ∉ turns.map (·.report.locale) := by
  rw [h.locales, mem_pending_iff]
  exact fun hsource ↦ hsource.2 rfl

theorem exists_turn (h : Synchronized options source provider host targets session turns final)
    (hmem : locale ∈ targets) (hne : locale ≠ options.sourceLocale) :
    ∃ turn ∈ turns, turn.report.locale = locale := by
  rw [← List.mem_map, h.locales]
  exact mem_pending_iff.2 ⟨hmem, hne⟩

/-- The turns before a turn lead to it, those after it go on from it, and all are of other
locales. -/
theorem split (h : Synchronized options source provider host targets session turns final)
    (hturn : turn ∈ turns) :
    ∃ earlier later, earlier ⊆ turns ∧ later ⊆ turns ∧
      Consecutive session earlier turn.before ∧ Consecutive turn.after later final ∧
      turn.report.locale ∉ earlier.map (·.report.locale) ∧
      turn.report.locale ∉ later.map (·.report.locale) := by
  have hnodup : (turns.map (·.report.locale)).Nodup := h.locales ▸ nodup_pending _ _
  obtain ⟨earlier, later, rfl⟩ := List.append_of_mem hturn
  obtain ⟨hbefore, hafter⟩ := h.consecutive.split
  rw [List.map_append, List.map_cons] at hnodup
  obtain ⟨-, hrest, hdisjoint⟩ := List.nodup_append.1 hnodup
  refine ⟨earlier, later, fun _ ↦ List.mem_append_left _,
    fun _ hother ↦ List.mem_append_right _ (List.mem_cons_of_mem _ hother), hbefore, hafter,
    fun hmem ↦ ?_, (List.nodup_cons.1 hrest).1⟩
  exact hdisjoint _ hmem _ List.mem_cons_self rfl

/-- Some of the turns, in a row, from where there is room. -/
theorem furnished (h : Synchronized options source provider host targets session turns final)
    {part : List Turn} {first last : Session} (hpart : part ⊆ turns)
    (hrow : Consecutive first part last)
    (hroom : CatalogFile.HasRoom first.disk options.catalogDir) :
    CatalogFile.Furnished options.catalogDir (Held options part) first.disk last.disk := by
  have hnone : CatalogFile.Furnished options.catalogDir (fun _ ↦ False) first.disk first.disk :=
    .refl _ _ _
  exact (hrow.furnished (fun turn hturn ↦ h.taken turn (hpart hturn))
    (fun turn hturn ↦ h.plain turn (hpart hturn)) hroom hnone).mono fun _ hplace ↦
      hplace.resolve_left id

/-- What a turn finds is what was there at the beginning, and what it leaves is there at the
end. -/
theorem stored_turn (h : Synchronized options source provider host targets session turns final)
    (hturn : turn ∈ turns) :
    CatalogFile.stored turn.before.disk (turn.path options) =
        CatalogFile.stored session.disk (turn.path options) ∧
      CatalogFile.stored final.disk (turn.path options) =
        CatalogFile.stored turn.after.disk (turn.path options) := by
  obtain ⟨earlier, later, hearlier, hlater, hbefore, hafter, hnotEarlier, hnotLater⟩ :=
    h.split hturn
  have hplain := h.plain turn hturn
  have hfirst := h.furnished hearlier hbefore h.room
  have hmiddle := (h.taken turn hturn).furnished hplain h.room hfirst
  have hlast := h.furnished hlater hafter (hmiddle.hasRoom h.room)
  constructor
  · exact (hfirst.showSame h.room hplain fun place ↦
      not_held (fun other hother ↦ h.plain other (hearlier hother)) hplain hnotEarlier).stored
  · exact (hlast.showSame (hmiddle.hasRoom h.room) hplain fun place ↦
      not_held (fun other hother ↦ h.plain other (hlater hother)) hplain hnotLater).stored

/-- No request of turns of other locales is for a locale. -/
theorem filter_requests_eq_nil {requests : List ProviderRequest}
    (hsent : ∀ request ∈ requests, ∃ other ∈ turns, request.targetLocale = other.report.locale)
    (hnone : locale ∉ turns.map (·.report.locale)) :
    requests.filter (·.targetLocale == locale) = [] := by
  rw [List.filter_eq_nil_iff]
  intro request hrequest hsame
  obtain ⟨other, hother, hlocale⟩ := hsent request hrequest
  rw [beq_iff_eq, hlocale] at hsame
  exact hnone (hsame ▸ List.mem_map_of_mem hother)

/-- The requests of a synchronization for a locale are those of its turn. -/
theorem requests_turn (h : Synchronized options source provider host targets session turns final)
    (hturn : turn ∈ turns) {own : List ProviderRequest}
    (hown : turn.after.requests = turn.before.requests ++ own)
    (hlocale : ∀ request ∈ own, request.targetLocale = turn.report.locale) :
    ∃ sent, final.requests = session.requests ++ sent ∧
      sent.filter (·.targetLocale == turn.report.locale) = own := by
  have hseparate : ∀ other ∈ turns, other.Separate := fun other hother ↦
    (h.taken other hother).separate (h.plain other hother)
  obtain ⟨earlier, later, hearlier, hlater, hbefore, hafter, hnotEarlier, hnotLater⟩ :=
    h.split hturn
  obtain ⟨first, hfirst, hfirstOwned⟩ := hbefore.requests fun other hother ↦
    hseparate other (hearlier hother)
  obtain ⟨last, hlast, hlastOwned⟩ := hafter.requests fun other hother ↦
    hseparate other (hlater hother)
  refine ⟨first ++ own ++ last, ?_, ?_⟩
  · calc
      final.requests = turn.after.requests ++ last := hlast
      _ = session.requests ++ first ++ own ++ last := by rw [hown, hfirst]
      _ = session.requests ++ (first ++ own ++ last) := by simp only [List.append_assoc]
  · rw [List.filter_append, List.filter_append, filter_requests_eq_nil hfirstOwned hnotEarlier,
      filter_requests_eq_nil hlastOwned hnotLater, List.nil_append, List.append_nil,
      List.filter_eq_self]
    intro request hrequest
    exact beq_iff_eq.2 (hlocale request hrequest)

end Synchronized

/-- Of the requests that were sent, those for a locale are for given entries, batch by batch. -/
def AsksFor (options : SyncOptions) (locale : String) (entries : List (String × String))
    (sent : List ProviderRequest) : Prop :=
  ∃ pieces, Chunks (max options.batchSize 1) entries pieces ∧
    sent.filter (·.targetLocale == locale) = pieces.map (requestFor options locale)

/-- Who asks for nothing for a locale sends no request for it. -/
theorem AsksFor.of_nil {sent : List ProviderRequest} (h : AsksFor options locale [] sent) :
    ∀ request ∈ sent, request.targetLocale ≠ locale := by
  obtain ⟨pieces, hchunks, hsent⟩ := h
  have hpieces : pieces = [] := by
    rw [List.eq_nil_iff_forall_not_mem]
    intro piece hpiece
    exact (hchunks.short piece hpiece).1 (List.flatten_eq_nil_iff.1 hchunks.flatten piece hpiece)
  rw [hpieces, List.map_nil, List.filter_eq_nil_iff] at hsent
  intro request hrequest hlocale
  exact hsent request hrequest (beq_iff_eq.2 hlocale)

/-- Together the requests for a locale hold the keys that are asked for, in their order. -/
theorem AsksFor.keys {sent : List ProviderRequest} {entries : List (String × String)}
    (h : AsksFor options locale entries sent) (hnodup : (entries.map Prod.fst).Nodup) :
    (sent.filter (·.targetLocale == locale)).flatMap (·.keys.keys) = entries.map Prod.fst := by
  obtain ⟨pieces, hchunks, hsent⟩ := h
  rw [hsent, ← hchunks.flatten, List.flatMap_map, List.map_flatten, ← List.flatMap_def]
  apply List.flatMap_congr
  intro piece hpiece
  have hpiece' : (piece.map Prod.fst).Nodup := by
    refine hnodup.sublist (List.Sublist.map _ ?_)
    rw [← hchunks.flatten]
    exact List.sublist_flatten_of_mem hpiece
  exact congrArg (List.map Prod.fst) (Catalog.entries_ofList hpiece')

/-- A synchronization asks for what is missing in the catalog that a locale had at its beginning,
and finds it up to date when that is nothing. -/
theorem exists_asksFor (options : SyncOptions) (provider : Provider) (host : Host)
    {targets : List String}
    (hfile : session.disk.isFile
      (CatalogFile.pathOf options.catalogDir options.sourceLocale) = true)
    (hsource : CatalogFile.stored session.disk
      (CatalogFile.pathOf options.catalogDir options.sourceLocale) = .ok source)
    (hroom : CatalogFile.HasRoom session.disk options.catalogDir)
    (hplain : ∀ locale ∈ targets, '/' ∉ locale.toList)
    (hmem : locale ∈ targets) (hne : locale ≠ options.sourceLocale)
    (hstored : CatalogFile.stored session.disk (CatalogFile.pathOf options.catalogDir locale) =
      .ok target) :
    ∃ reports sent final,
      (catalogs options targets (some provider)).start host session = (.ok reports, final) ∧
      final.requests = session.requests ++ sent ∧
      AsksFor options locale (missing source target) sent ∧
      (missing source target = [] → ⟨locale, .upToDate⟩ ∈ reports) := by
  obtain ⟨turns, final, h⟩ := exists_synchronized provider host hfile hsource hroom hplain
  obtain ⟨turn, hturn, rfl⟩ := h.exists_turn hmem hne
  have hfound := (h.stored_turn hturn).1.trans hstored
  obtain ⟨sent, hsent, hown⟩ := h.requests_turn hturn ((h.taken turn hturn).requests hfound)
    fun _ ↦ targetLocale_of_mem_requests
  refine ⟨_, sent, final, h.start, hsent, ⟨_, chunks_batches _ _, hown⟩, fun hmissing ↦ ?_⟩
  rw [← (h.taken turn hturn).upToDate hfound hmissing]
  exact List.mem_map_of_mem hturn

end Phrasebook.Sync
