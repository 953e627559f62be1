import Phrasebook.Proofs.Catalog.File
import Phrasebook.Proofs.Session.Settled

/-!
# Catalogs in one directory

The catalogs of all locales are in one directory, which is created before the first of them is
written. Where the directory is there, or its path has no step upward, the files in it are apart
from each other: whichever of them were written before, writing one of the others ends as it would
have ended at first and leaves the same in its file.
-/

namespace Phrasebook.CatalogFile

variable {host : Host} {directory path : Path} {start ready before after middle disk : Disk}
variable {locale other : String} {done : List String} {catalog : Catalog} {place : Disk.Place}
variable {answer : Except Fault Unit}

/-- Two disks show the same at a path: the same is found there, or nothing is. -/
def ShowSame (path : Path) (first second : Disk) : Prop :=
  second.find path = first.find path ∨
    (∃ fault, first.find path = .error fault) ∧ ∃ fault, second.find path = .error fault

namespace ShowSame

theorem refl (path : Path) (disk : Disk) : ShowSame path disk disk := .inl rfl

theorem trans (first : ShowSame path before middle) (second : ShowSame path middle after) :
    ShowSame path before after := by
  rcases first with hfirst | ⟨hbefore, fault, hmiddle⟩
  · rcases second with hsecond | ⟨hmiddle, hafter⟩
    · exact .inl (hsecond.trans hfirst)
    · exact .inr ⟨hfirst ▸ hmiddle, hafter⟩
  · rcases second with hsecond | ⟨-, hafter⟩
    · exact .inr ⟨hbefore, fault, hsecond.trans hmiddle⟩
    · exact .inr ⟨hbefore, hafter⟩

theorem of_writtenWithin {region : Disk.Place → Prop}
    (written : Disk.WrittenWithin region before after)
    (hplace : ∀ place, before.locate path = .ok place → ¬ region place) :
    ShowSame path before after := by
  rcases written.find hplace with hsame | ⟨first, second, hfirst, hsecond⟩
  · exact .inl hsame
  · refine .inr ⟨⟨first, ?_⟩, second, ?_⟩
    · rw [Disk.find, hfirst, Except.bind]
    · rw [Disk.find, hsecond, Except.bind]

theorem contents? (h : ShowSame path before after) :
    after.contents? path = before.contents? path := by
  unfold Disk.contents?
  rcases h with hsame | ⟨⟨first, hfirst⟩, second, hsecond⟩
  · rw [hsame]
  · rw [hfirst, hsecond]

theorem stored (h : ShowSame path before after) :
    CatalogFile.stored after path = CatalogFile.stored before path := by
  rcases h with hsame | ⟨⟨first, hfirst⟩, second, hsecond⟩
  · exact stored_of_find_eq hsame
  · simp [CatalogFile.stored, Disk.contains, hfirst, hsecond]

end ShowSame

/-- What making room for a catalog comes to, for every locale alike: it is settled with the first
attempt, and makes nothing appear in the file of a catalog. -/
structure Prepared (host : Host) (directory : Path) (start : Disk) (answer : Except Fault Unit)
    (ready : Disk) : Prop where
  first {locale : String} : '/' ∉ locale.toList →
    Run.Does host (makeRoom (pathOf directory locale)) start answer ready
  again {locale : String} : '/' ∉ locale.toList →
    Run.Does host (makeRoom (pathOf directory locale)) ready answer ready
  shown {locale : String} : '/' ∉ locale.toList → ShowSame (pathOf directory locale) start ready

theorem does_makeRoom {folder : Disk.Place} (hfolder : disk.IsFolder directory folder)
    (hplain : '/' ∉ locale.toList) :
    Run.Does host (makeRoom (pathOf directory locale)) disk (.ok ()) disk := by
  rintro session rfl
  rw [start_makeRoom hfolder hplain]
  exact ⟨rfl, rfl⟩

/-- In a directory that is there, there is room. -/
theorem prepared_of_isFolder {folder : Disk.Place} (hfolder : start.IsFolder directory folder) :
    Prepared host directory start (.ok ()) start :=
  ⟨does_makeRoom hfolder, does_makeRoom hfolder, fun _ ↦ .refl _ start⟩

/-- Where a directory was missing, creating it makes nothing appear in the files of catalogs. -/
theorem showSame_of_grownTo (htree : start.IsTree)
    (hup : Path.Descends (Path.trimPieces directory.pieces))
    (hmissing : ∀ folder, ¬ start.IsFolder directory folder)
    (hgrown : start.GrownTo directory ready) (hplain : '/' ∉ locale.toList) :
    ShowSame (pathOf directory locale) start ready := by
  have hname := isName_of_plain hplain
  right
  constructor
  · cases hlocate : start.locate (pathOf directory locale) with
    | error fault => exact ⟨fault, by rw [Disk.find, hlocate, Except.bind]⟩
    | ok place =>
      obtain ⟨folder, hfolder⟩ := Disk.exists_isFolder_of_locate hname.not_isAbsolute hlocate
      exact absurd hfolder (hmissing folder)
  · cases hlocate : ready.locate (pathOf directory locale) with
    | error fault => exact ⟨fault, by rw [Disk.find, hlocate, Except.bind]⟩
    | ok place =>
      refine ⟨.missing, ?_⟩
      rw [Disk.find_of_locate hlocate]
      obtain ⟨folder, hfolder⟩ := Disk.exists_isFolder_of_locate hname.not_isAbsolute hlocate
      have hplace := hfolder.eq_of_locate_join hname hlocate
      have hstart : ready.startOf directory = start.startOf directory := by
        rw [Disk.startOf, hgrown.workingDirectory, ← Disk.startOf]
      cases hready : ready.nodeAt? place with
      | none => rfl
      | some node =>
        cases hbefore : start.nodeAt? place with
        | some found =>
          -- It was there before, and so was the directory that it is in.
          have hparent := htree.parent hbefore
          rw [hplace, List.dropLast_concat] at hparent
          have hfollow := Disk.follow_of_grown htree hgrown.toGrown hup hfolder.follow hparent
          rw [hstart] at hfollow
          exact absurd ⟨hfolder.plain, hfollow, hparent⟩ (hmissing folder)
        | none =>
          -- It was added, but it is deeper than anything that was.
          have hdepth : place.length = Run.depth start directory + 1 := by
            rw [hplace, Disk.follow_eq_of_descends hup hfolder.follow, hstart, Run.depth,
              List.length_append, List.length_append]
            rfl
          have hadded : ready.nodeAt? place ≠ start.nodeAt? place := by
            rw [hready, hbefore]
            rintro ⟨⟩
          have hlow := hgrown.low hadded
          omega

/-- The directory of the catalogs is there, or its path has no step upward. -/
def HasRoom (disk : Disk) (directory : Path) : Prop :=
  (∃ folder, disk.IsFolder directory folder) ∨
    disk.IsTree ∧ Path.Descends (Path.trimPieces directory.pieces)

/-- Where a catalog below the directory is there, the directory is. -/
theorem HasRoom.of_isFile (hfile : disk.isFile (pathOf directory locale) = true)
    (htree : disk.IsTree) (hroom : (⟨locale⟩ : Path).isAbsolute = true →
      disk.isDirectory directory = true ∨ .up ∉ directory.components) :
    HasRoom disk directory := by
  cases habsolute : (⟨locale⟩ : Path).isAbsolute with
  | true =>
    rcases hroom habsolute with hdirectory | hup
    · exact .inl (Disk.exists_isFolder_of_isDirectory hdirectory)
    · refine .inr ⟨htree, fun piece hpiece hcomponent ↦ hup ?_⟩
      have hmem := (Path.trimPieces_begins directory.pieces).subset hpiece
      exact List.mem_filterMap.2 ⟨piece, hmem, hcomponent⟩
  | false =>
    have hrelative : Path.isAbsolute ⟨locale ++ "." ++ extension⟩ = false := by
      unfold Path.isAbsolute at habsolute ⊢
      rw [String.toList_append, String.toList_append]
      cases hlocale : locale.toList with
      | nil => rfl
      | cons c rest =>
        rw [hlocale] at habsolute
        exact habsolute
    obtain ⟨contents, hfind⟩ := Disk.find_of_isFile hfile
    obtain ⟨place, hlocate, -⟩ := Disk.find_eq_ok_iff.1 hfind
    exact .inl (Disk.exists_isFolder_of_locate hrelative hlocate)

/-- On a host that always answers alike, making room comes to the same for every locale. -/
theorem exists_prepared (hhost : host.IsSteady) (hroom : HasRoom start directory) :
    ∃ answer ready, Prepared host directory start answer ready := by
  by_cases hfolder : ∃ folder, start.IsFolder directory folder
  · obtain ⟨folder, hfolder⟩ := hfolder
    exact ⟨_, _, prepared_of_isFolder hfolder⟩
  obtain ⟨htree, hup⟩ := hroom.resolve_left hfolder
  have hmake {locale : String} (hplain : '/' ∉ locale.toList) :
      makeRoom (pathOf directory locale) =
        (Run.ensureDirectories directory.trimmed).adapt (.noDirectory directory.trimmed) := by
    unfold makeRoom
    rw [pathOf, Path.parent?_join directory (isName_of_plain hplain)]
  by_cases hdirectory : directory.text.toList = []
  · obtain ⟨text⟩ := directory
    obtain rfl : text = "" := String.toList_eq_nil_iff.1 hdirectory
    have hempty : Run.Does host (Run.ensureDirectories ⟨""⟩) start (.ok ()) start := by
      rintro session rfl
      rw [Run.start_ensureDirectories_empty]
      exact ⟨rfl, rfl⟩
    have hdoes {locale : String} (hplain : '/' ∉ locale.toList) :
        Run.Does host (makeRoom (pathOf ⟨""⟩ locale)) start (.ok ()) start := by
      rw [hmake hplain]
      exact hempty.adapt _
    exact ⟨_, _, hdoes, hdoes, fun _ ↦ .refl _ start⟩
  · have hup' : Path.Descends (Path.trimPieces directory.trimmed.pieces) := by
      rwa [Path.trimPieces_trimmed hdirectory]
    obtain ⟨answer, ready, hsettles⟩ :=
      Run.exists_settles hhost htree directory.trimmed.pieces.length hup'
    have hgrown := (hsettles.grownTo hup').of_depth_le (Run.depth_trimmed hdirectory start).le
    refine ⟨answer.mapError (.noDirectory directory.trimmed), ready, fun hplain ↦ ?_,
      fun hplain ↦ ?_, showSame_of_grownTo htree hup (not_exists.1 hfolder) hgrown⟩
    · rw [hmake hplain]
      exact hsettles.first.adapt _
    · rw [hmake hplain]
      exact hsettles.again.adapt _

def FilesOf (locales : List String) (place : Disk.Place) : Prop :=
  ∃ locale ∈ locales, place.getLast? = some (locale ++ "." ++ extension)

theorem not_filesOf (hplain : '/' ∉ locale.toList) (hnot : locale ∉ done)
    (h : disk.locate (pathOf directory locale) = .ok place) : ¬ FilesOf done place := by
  rintro ⟨other, hother, hlast⟩
  exact hnot (eq_of_getLast? hplain h hlast ▸ hother)

/-- Room was made for catalogs, and then those of some locales were written, if at all. -/
def Ready (directory : Path) (ready : Disk) (done : List String) (disk : Disk) : Prop :=
  disk = ready ∨
    (∃ folder, ready.IsFolder directory folder) ∧ Disk.WrittenWithin (FilesOf done) ready disk

namespace Ready

theorem showSame (h : Ready directory ready done disk) (hplain : '/' ∉ locale.toList)
    (hnot : locale ∉ done) : ShowSame (pathOf directory locale) ready disk := by
  rcases h with rfl | ⟨-, hwritten⟩
  · exact .refl _ disk
  · exact .of_writtenWithin hwritten fun _ ↦ not_filesOf hplain hnot

/-- Whether the file of a locale can be written does not depend on those of others. -/
theorem writable (h : Ready directory ready done disk) (hplain : '/' ∉ locale.toList)
    (hnot : locale ∉ done) :
    disk.writable (pathOf directory locale) = ready.writable (pathOf directory locale) := by
  rcases h with rfl | ⟨⟨folder, hfolder⟩, hwritten⟩
  · rfl
  have hname := isName_of_plain hplain
  have hlocate := hfolder.locate_join_congr hwritten.keeps hname
  unfold Disk.writable
  rw [pathOf, hlocate]
  cases hready : ready.locate (directory.join ⟨locale ++ "." ++ extension⟩) with
  | error fault => rfl
  | ok place =>
    have hplace := hfolder.eq_of_locate_join hname hready
    have habove : place.dropLast = folder := by rw [hplace, List.dropLast_concat]
    rw [Except.bind, Except.bind, hwritten.nodeAt? (not_filesOf hplain hnot hready), habove,
      hfolder.isDirectory, hwritten.keeps.directory hfolder.isDirectory]

theorem mono (h : Ready directory ready done disk) (locale : String) :
    Ready directory ready (locale :: done) disk := by
  refine h.imp_right fun ⟨hfolder, hwritten⟩ ↦ ⟨hfolder, hwritten.mono ?_⟩
  rintro place ⟨other, hother, hlast⟩
  exact ⟨other, List.mem_cons_of_mem locale hother, hlast⟩

/-- The file of one more locale is written. -/
theorem put (h : Ready directory ready done disk) (hplain : '/' ∉ locale.toList)
    (hwritable : disk.writable (pathOf directory locale) = .ok place)
    (written? : Option ByteArray) :
    Ready directory ready (locale :: done) (disk.putContents place written?) := by
  obtain ⟨hlocate, -, hnode⟩ := Disk.writable_eq_ok hwritable
  have hput :
      Disk.WrittenWithin (FilesOf (locale :: done)) disk (disk.putContents place written?) := by
    refine (Disk.writtenWithin_putContents hnode written?).mono ?_
    rintro other rfl
    exact ⟨locale, List.mem_cons_self, Disk.locate_getLast (fileName?_pathOf _ hplain) hlocate⟩
  right
  rcases h.mono locale with rfl | ⟨hfolder, hwritten⟩
  · exact ⟨Disk.exists_isFolder_of_locate (isName_of_plain hplain).not_isAbsolute hlocate, hput⟩
  · exact ⟨hfolder, hwritten.trans hput⟩

end Ready

theorem showSame_putContents (hplain : '/' ∉ locale.toList) (hother : '/' ∉ other.toList)
    (hne : other ≠ locale) (hwritable : disk.writable (pathOf directory locale) = .ok place)
    (written? : Option ByteArray) :
    ShowSame (pathOf directory other) disk (disk.putContents place written?) := by
  obtain ⟨hlocate, -, hnode⟩ := Disk.writable_eq_ok hwritable
  refine .of_writtenWithin (Disk.writtenWithin_putContents hnode written?) ?_
  rintro _ hsame rfl
  have hlast := Disk.locate_getLast (fileName?_pathOf directory hplain) hlocate
  exact hne (eq_of_getLast? hother hsame hlast).symm

theorem contents?_putContents (hwritable : disk.writable path = .ok place)
    (written? : Option ByteArray) :
    (disk.putContents place written?).contents? path = written?.or (disk.contents? path) := by
  obtain ⟨hlocate, hroot, hnode⟩ := Disk.writable_eq_ok hwritable
  have hkeeps := (Disk.writtenWithin_putContents hnode written?).keeps
  rw [Disk.contents?_of_locate (hkeeps.locate hlocate), Disk.fileAt?_putContents hroot,
    Disk.contents?_of_locate hlocate]

/-- Making room for a catalog ends as it would have ended at first. -/
theorem Prepared.enter (h : Prepared host directory start answer ready)
    (hreached : disk = start ∨ Ready directory ready done disk) (hplain : '/' ∉ locale.toList) :
    ∃ entered, Run.Does host (makeRoom (pathOf directory locale)) disk answer entered ∧
      Ready directory ready done entered ∧
      ∀ other, '/' ∉ other.toList → ShowSame (pathOf directory other) disk entered := by
  rcases hreached with rfl | hready
  · exact ⟨ready, h.first hplain, .inl rfl, fun _ ↦ h.shown⟩
  · refine ⟨disk, ?_, hready, fun _ _ ↦ .refl _ disk⟩
    rcases hready with rfl | ⟨⟨folder, hfolder⟩, hwritten⟩
    · exact h.again hplain
    · obtain ⟨rfl, -⟩ := (h.again hplain).unique (does_makeRoom hfolder hplain)
      exact does_makeRoom (hfolder.keeps hwritten.keeps) hplain

/-- Writing the catalog of one locale, on a disk where those of others may have been written, ends
as it would have ended at first, leaves the same in its file, and leaves the other files alone. -/
theorem Prepared.write (h : Prepared host directory start answer ready) (hhost : host.IsSteady)
    (hreached : disk = start ∨ Ready directory ready done disk) (hplain : '/' ∉ locale.toList)
    (hnot : locale ∉ done) (catalog : Catalog) :
    ∃ result after alone,
      Run.Does host (write (pathOf directory locale) catalog) disk result after ∧
      Run.Does host (write (pathOf directory locale) catalog) start result alone ∧
      Ready directory ready (locale :: done) after ∧
      after.contents? (pathOf directory locale) = alone.contents? (pathOf directory locale) ∧
      ∀ other, '/' ∉ other.toList → other ≠ locale →
        after.contents? (pathOf directory other) = disk.contents? (pathOf directory other) := by
  obtain ⟨entered, henter, hentered, hshown⟩ := h.enter hreached hplain
  have hown := (hentered.showSame hplain hnot).contents?
  have hwritable := hentered.writable hplain hnot
  rw [write_eq]
  cases answer with
  | error fault =>
    exact ⟨_, entered, ready, henter.bind_error _, (h.first hplain).bind_error _,
      hentered.mono locale, hown, fun other hother _ ↦ (hshown other hother).contents?⟩
  | ok _ =>
    cases hplace : ready.writable (pathOf directory locale) with
    | error fault =>
      rw [hplace] at hwritable
      exact ⟨_, entered, ready, henter.bind ((Run.does_writeText_unwritable hwritable).adapt _),
        (h.first hplain).bind ((Run.does_writeText_unwritable hplace).adapt _),
        hentered.mono locale, hown, fun other hother _ ↦ (hshown other hother).contents?⟩
    | ok place =>
      rw [hplace] at hwritable
      obtain ⟨result, written?, hwrite⟩ := Run.exists_does_writeText hhost catalog.write place
      refine ⟨_, _, _, henter.bind ((hwrite hwritable).adapt _),
        (h.first hplain).bind ((hwrite hplace).adapt _), hentered.put hplain hwritable written?, ?_,
        fun other hother hne ↦ ?_⟩
      · rw [contents?_putContents hwritable, contents?_putContents hplace, hown]
      · rw [(showSame_putContents hplain hother hne hwritable written?).contents?,
          (hshown other hother).contents?]

end Phrasebook.CatalogFile
