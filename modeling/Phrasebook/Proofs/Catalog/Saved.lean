import Mathlib.Data.List.Perm.Subperm
import Phrasebook.Proofs.Catalog.Nested
import Phrasebook.Proofs.Extraction.Run
import Phrasebook.Proofs.Sync.Catalogs

/-!
# What a saved catalog keeps

Converting the sources writes the source catalog again, and filling a locale writes the catalog of
that locale again. Neither takes a key out of the catalog that it read, so the texts that stood in
the file are in it afterwards, each at its names joined by dots. What is no text is not in the
catalog that was read, and texts whose joined names are the same are one entry there: these are
not in the file any more.
-/

namespace Phrasebook

namespace Disk

def membersAt? (disk : Disk) (path : Path) : Option (List (String × Json.Value)) :=
  match (disk.readText path).toOption.map Json.parse with
  | some (.ok (.object members)) => some members
  | _ => none

variable {disk : Disk} {path : Path} {text : String} {members : List (String × Json.Value)}

theorem membersAt?_eq_some_iff :
    disk.membersAt? path = some members ↔
      ∃ text, disk.readText path = .ok text ∧ Json.parse text = .ok (.object members) := by
  unfold membersAt?
  cases disk.readText path with
  | error fault => simp [Except.toOption]
  | ok text => cases hparse : Json.parse text with
    | error fault => simp [Except.toOption, hparse]
    | ok value => cases value <;> simp [Except.toOption, hparse]

/-- A file reads as a text exactly when it holds the bytes of that text. -/
theorem readText_eq_ok_iff :
    disk.readText path = .ok text ↔
      ∃ contents, disk.contents? path = some contents ∧ String.fromUTF8? contents = some text := by
  unfold readText contents?
  cases disk.find path with
  | error fault => simp
  | ok node =>
    cases node with
    | directory => simp
    | file contents => cases hutf8 : String.fromUTF8? contents <;> simp [hutf8]

theorem exists_locate_of_readText (h : disk.readText path = .ok text) :
    ∃ place, disk.locate path = .ok place := by
  obtain ⟨place, hwritable⟩ := writable_of_readText h
  exact ⟨place, (writable_eq_ok hwritable).1⟩

end Disk

namespace CatalogFile

/-- The object in a file has, later on, a member for each of the names that its leaves give. -/
def Keeps (names : List Json.Leaf → List String) (path : Path) (before after : Disk) : Prop :=
  ∀ members ∈ before.membersAt? path, ∃ kept ∈ after.membersAt? path,
    (names (Json.leavesAmong members)).Subperm (kept.map Prod.fst)

instance (names : List Json.Leaf → List String) (path : Path) (before after : Disk) :
    Decidable (Keeps names path before after) :=
  inferInstanceAs (Decidable (∀ members ∈ before.membersAt? path, _))

/-- Every leaf has a member of its own at its names joined by dots. -/
def KeepsLeaves : Path → Disk → Disk → Prop :=
  Keeps fun leaves ↦ leaves.map Json.Leaf.dotted

instance (path : Path) (before after : Disk) : Decidable (KeepsLeaves path before after) :=
  inferInstanceAs (Decidable (Keeps _ path before after))

/-- Every text has a member at its names joined by dots, and texts have different members unless
these are the same. -/
def KeepsTexts : Path → Disk → Disk → Prop :=
  Keeps fun leaves ↦
    ((leaves.filter fun leaf ↦ leaf.isText && leaf.isNamed).map Json.Leaf.dotted).dedup

variable {path : Path} {before after : Disk} {initial saved : Catalog}
variable {members : List (String × Json.Value)}

/-- The catalog in a file with an object holds the texts of the object. -/
theorem stored_of_membersAt? (h : before.membersAt? path = some members) :
    stored before path =
      .ok (.ofList ((Catalog.leavesOfMembers "" members).filterMap Catalog.Leaf.entry?)) := by
  obtain ⟨text, hread, hparse⟩ := Disk.membersAt?_eq_some_iff.1 h
  have hfilled : Text.isBlankText text = false := by
    refine Bool.eq_false_iff.2 fun hblank ↦ ?_
    obtain ⟨fault, hfault⟩ := Json.parse_of_isBlankText hblank
    rw [hparse] at hfault
    cases hfault
  unfold stored Catalog.read
  simp only [contains_of_readText hread, hread, hfilled, hparse, Bool.not_true,
    Bool.false_eq_true, if_false]

theorem membersAt?_of_readText (h : after.readText path = .ok saved.write) :
    after.membersAt? path = some (saved.entries.map Json.textMember) :=
  Disk.membersAt?_eq_some_iff.2 ⟨_, h, saved.parse_write⟩

/-- Where a catalog was read and one that has all its keys was written, all texts are kept. -/
theorem keepsTexts_of_keys (hstored : stored before path = .ok initial)
    (hwritten : after.readText path = .ok saved.write) (hkeys : initial.keys ⊆ saved.keys) :
    KeepsTexts path before after := by
  intro members hmembers
  have hsame := (stored_of_membersAt? hmembers).symm.trans hstored
  obtain rfl := Except.ok.inj hsame
  refine ⟨_, membersAt?_of_readText hwritten, ?_⟩
  have hnames : (saved.entries.map Json.textMember).map Prod.fst = saved.keys := by
    rw [List.map_map]
    rfl
  rw [hnames]
  refine List.subperm_of_subset (List.nodup_dedup _) fun name hname ↦ hkeys ?_
  obtain ⟨leaf, hleaf, rfl⟩ := List.mem_map.1 (List.mem_dedup.1 hname)
  obtain ⟨hmem, hplain⟩ := List.mem_filter.1 hleaf
  obtain ⟨htext, hnamed⟩ := Bool.and_eq_true_iff.1 hplain
  exact Catalog.dotted_mem_keys hmem htext hnamed

end CatalogFile

namespace Extraction

variable {project : Project} {host : Host} {session final : Session} {report : ExtractionReport}

/-- A conversion that succeeds keeps the texts of the source catalog. -/
theorem keepsTexts_of_run (h : (run project false).start host session = (.ok report, final)) :
    CatalogFile.KeepsTexts (project.catalogPath project.sourceLocale) session.disk final.disk := by
  obtain ⟨initial, files, began, visits, next, ended, hstored, -, -, -, hrow, -, -, hwrite⟩ :=
    run_ok h
  have hgrown : next.catalog.entries.entries =
      initial.entries ++ visits.flatMap SourceVisit.minted := hrow.grown
  refine CatalogFile.keepsTexts_of_keys hstored (CatalogFile.readText_write hwrite) ?_
  unfold Catalog.keys
  rw [hgrown, List.map_append]
  exact List.subset_append_left _ _

end Extraction

/-! ## Filling a locale -/

namespace Sync

variable {options : SyncOptions} {source target filled : Catalog} {provider : Provider}
variable {host : Host} {session final : Session} {turn : Turn}
variable {answers : List (List (String × String) × Except ProviderFault Catalog)}
variable {texts : List (String × String)} {targets : List String} {reports : List LocaleReport}

theorem Filled.keys_subset (h : Filled options source target answers texts filled turn) :
    target.keys ⊆ filled.keys := by
  unfold Catalog.keys
  rw [h.entries, List.map_append, List.map_map]
  exact List.subset_append_left _ _

/-- A turn that writes the catalog of its locale keeps the texts in it. -/
theorem Filled.keepsTexts (h : Filled options source target answers texts filled turn)
    (htarget : CatalogFile.stored turn.before.disk (turn.path options) = .ok target)
    (htexts : texts ≠ []) :
    CatalogFile.KeepsTexts (turn.path options) turn.before.disk turn.after.disk := by
  obtain ⟨place, created, -, -, hwritten⟩ := h.written htexts
  exact CatalogFile.keepsTexts_of_keys htarget hwritten h.keys_subset

/-- Where other turns leave the catalog alone, the texts that were in it at first are in it at
last. -/
theorem Filled.keepsTexts_of_undisturbed
    (h : Filled options source target answers texts filled turn)
    (hundisturbed : Undisturbed options session final target turn) (htexts : texts ≠ []) :
    CatalogFile.KeepsTexts (turn.path options) session.disk final.disk := by
  obtain ⟨place, created, hlocate, -, hwritten⟩ := h.written htexts
  obtain ⟨contents, hcontents, hutf8⟩ := Disk.readText_eq_ok_iff.1 hwritten
  rw [← hundisturbed.after hlocate] at hcontents
  have hlast := Disk.readText_eq_ok_iff.2 ⟨contents, hcontents, hutf8⟩
  intro members hmembers
  obtain ⟨text, hread, -⟩ := Disk.membersAt?_eq_some_iff.1 hmembers
  obtain ⟨first, hfirst⟩ := Disk.exists_locate_of_readText hread
  exact CatalogFile.keepsTexts_of_keys (hundisturbed.before hfirst) hlast h.keys_subset members
    hmembers

/-- A synchronization that succeeds is a row of turns, one for each target other than the source. -/
theorem exists_turns_of_catalogs
    (h : (catalogs options targets (some provider)).start host session = (.ok reports, final)) :
    ∃ source turns, reports = turns.map Turn.report ∧ Consecutive session turns final ∧
      (∀ turn ∈ turns, turn.Taken options source provider host) ∧
      turns.map (·.report.locale) = pending options [] targets := by
  cases hfile : session.disk.isFile
      (CatalogFile.pathOf options.catalogDir options.sourceLocale) with
  | false =>
    unfold catalogs at h
    simp only [Run.start_bind, Run.start_disk, hfile, Bool.not_false, if_true] at h
    cases h
  | true =>
    cases hsource : CatalogFile.stored session.disk
        (CatalogFile.pathOf options.catalogDir options.sourceLocale) with
    | error cause =>
      obtain ⟨warnings, hread⟩ := CatalogFile.start_read host session
        (CatalogFile.pathOf options.catalogDir options.sourceLocale)
      unfold catalogs at h
      simp only [Run.start_bind, Run.start_disk, hfile, Bool.not_true, Bool.false_eq_true, if_false,
        Run.start_adapt, hread, hsource, Except.mapError] at h
      cases h
    | ok source =>
      obtain ⟨warned, hwarned, hcatalogs⟩ :=
        start_catalogs targets (some provider) host hfile hsource
      obtain ⟨turns, last, hstart, hconsecutive, htaken, hlocales⟩ :=
        start_syncAll options source provider host targets [] warned
      have hsame := (hcatalogs.trans hstart).symm.trans h
      cases hsame
      exact ⟨source, turns, rfl, hconsecutive.warned hwarned, htaken, hlocales⟩

/-- A synchronization keeps the texts of every catalog that it writes. -/
theorem keepsTexts_of_catalogs
    (h : (catalogs options targets (some provider)).start host session = (.ok reports, final)) :
    ∃ turns, reports = turns.map Turn.report ∧ Consecutive session turns final ∧
      ∀ turn ∈ turns, ¬ turn.Failed → turn.after.disk = turn.before.disk ∨
        CatalogFile.KeepsTexts (turn.path options) turn.before.disk turn.after.disk ∧
          ((∀ locale ∈ targets, '/' ∉ locale.toList) →
            CatalogFile.KeepsTexts (turn.path options) session.disk final.disk) := by
  obtain ⟨source, turns, hreports, hconsecutive, htaken, hlocales⟩ := exists_turns_of_catalogs h
  refine ⟨turns, hreports, hconsecutive, fun turn hturn hsettled ↦ ?_⟩
  obtain ⟨target, htarget, hfilled⟩ := (htaken turn hturn).filled hsettled
  by_cases htexts : fillings (turn.answers options source provider target) = []
  · exact .inl (hfilled.unwritten htexts).1
  refine .inr ⟨hfilled.keepsTexts htarget htexts, fun hplain ↦ ?_⟩
  have hnames := plain_of_locales hlocales hplain
  have hnodup : (turns.map (·.report.locale)).Nodup := hlocales ▸ nodup_pending _ _
  obtain ⟨earlier, later, rfl⟩ := List.append_of_mem hturn
  exact hfilled.keepsTexts_of_undisturbed (undisturbed_of_consecutive hconsecutive
    (fun other hother ↦ (htaken other hother).separate (hnames other hother)) hnodup
    (hnames turn hturn) htarget) htexts

end Sync

namespace CatalogFile

/-- Whether it converts the sources or fills locales, a run keeps the texts of every catalog that
it writes. A name with a slash could lead to the catalog of another locale, so that for the whole
of a synchronization the names of the locales have none. -/
theorem texts_kept :
    (∀ (project : Project) (host : Host) (session final : Session) (report : ExtractionReport),
      (Extraction.run project false).start host session = (.ok report, final) →
        KeepsTexts (project.catalogPath project.sourceLocale) session.disk final.disk) ∧
    ∀ (options : SyncOptions) (targets : List String) (provider : Provider) (host : Host)
      (session final : Session) (reports : List LocaleReport),
      (Sync.catalogs options targets (some provider)).start host session = (.ok reports, final) →
        ∃ turns, reports = turns.map Sync.Turn.report ∧ Sync.Consecutive session turns final ∧
          ∀ turn ∈ turns, ¬ turn.Failed → turn.after.disk = turn.before.disk ∨
            KeepsTexts (turn.path options) turn.before.disk turn.after.disk ∧
              ((∀ locale ∈ targets, '/' ∉ locale.toList) →
                KeepsTexts (turn.path options) session.disk final.disk) :=
  ⟨fun _ _ _ _ _ ↦ Extraction.keepsTexts_of_run,
    fun _ _ _ _ _ _ _ ↦ Sync.keepsTexts_of_catalogs⟩

/-- The disk of a project without sources whose source catalog has a text. -/
def catalogDisk (text : String) : Disk where
  nodes :=
    [(["p"], .directory), (["p", "src"], .directory), (["p", "translations"], .directory),
      (["p", "translations", "en.json"], .file text.toUTF8)]
  workingDirectory := ["p"]

def nested : String :=
  "\x7b\"page\": \x7b\"title\": \"Home\", \"hint\": null\x7d\x7d"

/-- The disk with a source catalog and a nested catalog that lacks one of its texts. -/
def pageDisk : Disk where
  nodes :=
    [(["t"], .directory),
      (["t", "en.json"], .file "\x7b\"page.title\": \"Home\", \"bye\": \"Goodbye\"\x7d".toUTF8),
      (["t", "fr.json"], .file nested.toUTF8)]
  workingDirectory := []

theorem texts_kept_nested :
    (∃ report final,
      (Extraction.run Extraction.plainProject false).start Extraction.quietHost
          (.start (catalogDisk nested)) = (.ok report, final) ∧
        KeepsTexts (Extraction.plainProject.catalogPath Extraction.plainProject.sourceLocale)
          (catalogDisk nested) final.disk) ∧
    ∃ (turn : Sync.Turn) (final : Session),
      (Sync.catalogs ⟨⟨"/t"⟩, "en", 1⟩ ["fr"] (some .marking)).start Extraction.quietHost
          (.start pageDisk) = (.ok [⟨"fr", .translated 1 0⟩], final) ∧
        turn.report = ⟨"fr", .translated 1 0⟩ ∧
        KeepsTexts (pathOf ⟨"/t"⟩ "fr") turn.before.disk turn.after.disk ∧
        KeepsTexts (pathOf ⟨"/t"⟩ "fr") pageDisk final.disk := by
  have hrun : ((Extraction.run Extraction.plainProject false).start Extraction.quietHost
      (.start (catalogDisk nested))).1.toOption.isSome := by decide +kernel
  have hcatalogs : ((Sync.catalogs ⟨⟨"/t"⟩, "en", 1⟩ ["fr"] (some .marking)).start
      Extraction.quietHost (.start pageDisk)).1.toOption = some [⟨"fr", .translated 1 0⟩] := by
    decide +kernel
  have hchanged : ((Sync.catalogs ⟨⟨"/t"⟩, "en", 1⟩ ["fr"] (some .marking)).start
      Extraction.quietHost (.start pageDisk)).2.disk ≠ pageDisk := by decide +kernel
  constructor
  · cases hstart : (Extraction.run Extraction.plainProject false).start Extraction.quietHost
        (.start (catalogDisk nested)) with
    | mk answer final =>
      rw [hstart] at hrun
      cases answer with
      | error fault => cases hrun
      | ok report =>
        have hkept := texts_kept.1 _ _ _ _ _ hstart
        exact ⟨report, final, rfl, hkept⟩
  · cases hstart : (Sync.catalogs ⟨⟨"/t"⟩, "en", 1⟩ ["fr"] (some .marking)).start
        Extraction.quietHost (.start pageDisk) with
    | mk answer final =>
      rw [hstart] at hcatalogs hchanged
      cases answer with
      | error fault => cases hcatalogs
      | ok reports =>
        obtain rfl := Option.some.inj hcatalogs
        obtain ⟨turns, hreports, hconsecutive, hturns⟩ := texts_kept.2 _ _ _ _ _ _ _ hstart
        obtain ⟨turn, rfl, hreport⟩ := List.map_eq_singleton_iff.1 hreports.symm
        have hsettled : ¬ turn.Failed := by
          rw [Sync.Turn.Failed, hreport]
          rintro ⟨reason, hfailed⟩
          cases hfailed
        have hkept := hturns turn List.mem_cons_self hsettled
        obtain ⟨hfirst, hlast⟩ := hconsecutive
        have hwritten : turn.after.disk ≠ turn.before.disk := by
          rwa [hfirst.disk, ← Session.OnlyWarned.disk hlast]
        obtain ⟨hturn, hwhole⟩ := hkept.resolve_left hwritten
        rw [Sync.Turn.path, hreport] at hturn hwhole
        exact ⟨turn, final, rfl, hreport, hturn, hwhole (by decide)⟩

/-- Converting the sources of a project succeeds and loses a leaf of a text in its source
catalog. -/
def Loses (text : String) : Prop :=
  let ended := (Extraction.run Extraction.plainProject false).start Extraction.quietHost
    (.start (catalogDisk text))
  ended.1.toOption.isSome ∧
    ¬ KeepsLeaves ⟨"/p/translations/en.json"⟩ (catalogDisk text) ended.2.disk

instance (text : String) : Decidable (Loses text) :=
  inferInstanceAs (Decidable (_ ∧ ¬ KeepsLeaves _ _ _))

/-- A number is lost, and so are a text that shares its joined names with another one and a text
below an empty name. A catalog is lost that is written by a path through a directory which was
missing when the catalog was read. -/
theorem leaves_lost :
    Loses "\x7b\"n\": 3\x7d" ∧
      Loses "\x7b\"a\": \x7b\"b\": \"x\"\x7d, \"a.b\": \"y\"\x7d" ∧
      Loses "\x7b\"\": \x7b\"a\": \"x\"\x7d\x7d" ∧
      let ended := (Sync.catalogs ⟨⟨"/t"⟩, "en", 1⟩ ["new/../fr"] (some .marking)).start
        Extraction.quietHost (.start pageDisk)
      ended.1.toOption = some [⟨"new/../fr", .translated 2 0⟩] ∧
        ¬ KeepsLeaves ⟨"/t/fr.json"⟩ pageDisk ended.2.disk := by
  decide +kernel

end CatalogFile

end Phrasebook
