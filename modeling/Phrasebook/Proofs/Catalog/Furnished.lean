import Phrasebook.Proofs.Catalog.Room

/-!
# Writing catalogs one after the other

Whatever a host refuses, writing the catalogs of several locales makes room in their directory
first, in as many attempts as it takes, and from then on changes their files and nothing else. So a
catalog of another locale is found as it was found before, and so is any other file.
-/

namespace Phrasebook.CatalogFile

variable {host : Host} {session : Session} {directory path : Path} {start ready disk : Disk}
variable {locale : String} {catalog : Catalog} {place : Disk.Place} {node : Disk.Node}
variable {region wider : Disk.Place → Prop}

/-- Room was made in a directory, as far as it went: nothing was added where it was there. -/
def Entered (directory : Path) (start disk : Disk) : Prop :=
  disk = start ∨ (∀ folder, ¬ start.IsFolder directory folder) ∧ start.GrownTo directory disk

namespace Entered

theorem keeps (h : Entered directory start disk) : Disk.KeepsDirectories start disk := by
  rcases h with rfl | ⟨-, hgrown⟩
  · exact .refl disk
  · exact hgrown.keepsDirectories

theorem kept (h : Entered directory start disk) (hnode : start.nodeAt? place = some node) :
    disk.nodeAt? place = some node := by
  rcases h with rfl | ⟨-, hgrown⟩
  · exact hnode
  · exact hgrown.kept hnode

theorem showSame (h : Entered directory start disk) (hroom : HasRoom start directory)
    (hplain : '/' ∉ locale.toList) : ShowSame (pathOf directory locale) start disk := by
  rcases h with rfl | ⟨hmissing, hgrown⟩
  · exact .refl _ disk
  · obtain ⟨htree, hup⟩ := hroom.resolve_left (not_exists.2 hmissing)
    exact showSame_of_grownTo htree hup hmissing hgrown hplain

end Entered

/-- After room was made, if it was, no more was written than files in a region. -/
inductive Furnished (directory : Path) (region : Disk.Place → Prop) (start disk : Disk) : Prop
  | entered (hentered : Entered directory start disk)
  | written {ready : Disk} {folder : Disk.Place} (hentered : Entered directory start ready)
    (hfolder : ready.IsFolder directory folder) (hwritten : Disk.WrittenWithin region ready disk)

namespace Furnished

theorem refl (directory : Path) (region : Disk.Place → Prop) (disk : Disk) :
    Furnished directory region disk disk :=
  .entered (.inl rfl)

theorem mono (h : Furnished directory region start disk)
    (hwider : ∀ place, region place → wider place) : Furnished directory wider start disk := by
  cases h with
  | entered hentered => exact .entered hentered
  | written hentered hfolder hwritten => exact .written hentered hfolder (hwritten.mono hwider)

theorem keeps (h : Furnished directory region start disk) :
    Disk.KeepsDirectories start disk := by
  cases h with
  | entered hentered => exact hentered.keeps
  | written hentered _ hwritten => exact hentered.keeps.trans hwritten.keeps

/-- Where there was room for catalogs there is room after some of them were written. -/
theorem hasRoom (h : Furnished directory region start disk) (hroom : HasRoom start directory) :
    HasRoom disk directory := by
  rcases hroom with ⟨folder, hfolder⟩ | ⟨htree, hup⟩
  · exact .inl ⟨folder, hfolder.keeps h.keeps⟩
  · cases h with
    | entered hentered =>
      rcases hentered with rfl | ⟨-, hgrown⟩
      · exact .inr ⟨htree, hup⟩
      · exact .inr ⟨hgrown.tree htree, hup⟩
    | written _ hfolder hwritten => exact .inl ⟨_, hfolder.keeps hwritten.keeps⟩

/-- A catalog that is not in the region is found as before, or still missing. -/
theorem showSame (h : Furnished directory region start disk) (hroom : HasRoom start directory)
    (hplain : '/' ∉ locale.toList)
    (hplace : ∀ place, disk.locate (pathOf directory locale) = .ok place → ¬ region place) :
    ShowSame (pathOf directory locale) start disk := by
  cases h with
  | entered hentered => exact hentered.showSame hroom hplain
  | written hentered _ hwritten =>
    exact (hentered.showSame hroom hplain).trans (.of_writtenWithin hwritten fun place hlocate ↦
      hplace place (hwritten.keeps.locate hlocate))

/-- Anything else that is not in the region is found as before, wherever it is. -/
theorem find (h : Furnished directory region start disk) (hlocate : start.locate path = .ok place)
    (hnode : start.nodeAt? place = some node) (hplace : ¬ region place) :
    disk.find path = start.find path := by
  have hafter : disk.nodeAt? place = some node := by
    cases h with
    | entered hentered => exact hentered.kept hnode
    | written hentered _ hwritten =>
      rw [hwritten.nodeAt? hplace]
      exact hentered.kept hnode
  rw [Disk.find_of_locate hlocate, Disk.find_of_locate (h.keeps.locate hlocate), hnode, hafter]

/-- What a catalog leads to was there before only if the catalog led to it before. -/
theorem locate_of_nodeAt? (h : Furnished directory region start disk)
    (hroom : HasRoom start directory) (hplain : '/' ∉ locale.toList)
    (hlocate : disk.locate (pathOf directory locale) = .ok place)
    (hnode : start.nodeAt? place = some node) :
    start.locate (pathOf directory locale) = .ok place := by
  have hentered : ∃ ready, Entered directory start ready ∧
      ready.locate (pathOf directory locale) = .ok place := by
    cases h with
    | entered hentered => exact ⟨disk, hentered, hlocate⟩
    | written hentered _ hwritten => exact ⟨_, hentered, hwritten.kept.locate hlocate⟩
  obtain ⟨ready, hentered, hready⟩ := hentered
  have hfound : ready.find (pathOf directory locale) = .ok node :=
    Disk.find_eq_ok_iff.2 ⟨place, hready, hentered.kept hnode⟩
  rcases hentered.showSame hroom hplain with hsame | ⟨-, fault, hmissing⟩
  · obtain ⟨other, hother, -⟩ := Disk.find_eq_ok_iff.1 (hsame ▸ hfound)
    cases (hentered.keeps.locate hother).symm.trans hready
    exact hother
  · cases hmissing.symm.trans hfound

theorem grownTo_makeRoom (hup : Path.Descends (Path.trimPieces directory.pieces))
    (hplain : '/' ∉ locale.toList) :
    Run.Leads (Session.GrownTo directory) (makeRoom (pathOf directory locale)) := by
  unfold makeRoom
  rw [pathOf, Path.parent?_join directory (isName_of_plain hplain)]
  refine Run.Leads.adapt (fun host session ↦ ?_) _
  by_cases hdirectory : directory.text.toList = []
  · obtain ⟨text⟩ := directory
    obtain rfl : text = "" := String.toList_eq_nil_iff.1 hdirectory
    exact .refl _ session.disk
  · have hup' : Path.Descends (Path.trimPieces directory.trimmed.pieces) := by
      rwa [Path.trimPieces_trimmed hdirectory]
    exact (Run.grownTo_ensureDirectories hup' host session).of_depth_le
      (Run.depth_trimmed hdirectory session.disk).le

variable (host) in
/-- Making room for another catalog of the directory adds nothing that `Furnished` does not allow.
-/
theorem makeRoom (h : Furnished directory region start session.disk)
    (hroom : HasRoom start directory) (hplain : '/' ∉ locale.toList) :
    Furnished directory region start
      ((CatalogFile.makeRoom (pathOf directory locale)).start host session).2.disk := by
  by_cases hfolder : ∃ folder, session.disk.IsFolder directory folder
  · obtain ⟨folder, hfolder⟩ := hfolder
    rw [start_makeRoom hfolder hplain]
    exact h
  · have hmissing : ∀ folder, ¬ start.IsFolder directory folder := fun folder hstart ↦
      hfolder ⟨folder, hstart.keeps h.keeps⟩
    obtain ⟨-, hup⟩ := hroom.resolve_left (not_exists.2 hmissing)
    have hgrown := grownTo_makeRoom hup hplain host session
    cases h with
    | written _ hready hwritten => exact absurd ⟨_, hready.keeps hwritten.keeps⟩ hfolder
    | entered hentered =>
      rcases hentered with hsame | ⟨-, hbefore⟩
      · rw [Session.GrownTo, hsame] at hgrown
        exact .entered (.inr ⟨hmissing, hgrown⟩)
      · exact .entered (.inr ⟨hmissing, hbefore.trans hgrown⟩)

variable (host) in
theorem writeText (h : Furnished directory region start session.disk)
    (hplain : '/' ∉ locale.toList) (text : String) :
    let after := ((Run.writeText (pathOf directory locale) text).start host session).2.disk
    Furnished directory
      (fun place ↦ region place ∨ after.locate (pathOf directory locale) = .ok place) start
      after := by
  intro after
  have hwritten := Run.writtenWithin_writeText_place host session (pathOf directory locale) text
  rcases Run.writeText_cases host session (pathOf directory locale) text with
    ⟨fault, -, hstart⟩ | ⟨place, answer, written?, hwritable, -⟩
  · have hsame : after = session.disk := congrArg (·.2.disk) hstart
    rw [hsame]
    exact h.mono fun _ ↦ .inl
  · obtain ⟨hlocate, -, -⟩ := Disk.writable_eq_ok hwritable
    obtain ⟨folder, hfolder⟩ := Disk.exists_isFolder_of_locate
      (isName_of_plain hplain).not_isAbsolute hlocate
    have hlast := hwritten.mono fun other hother ↦
      Or.inr (a := region other) (hwritten.keeps.locate hother)
    cases h with
    | entered hentered => exact .written hentered hfolder hlast
    | written hentered hready hbefore =>
      exact .written hentered hready ((hbefore.mono fun _ ↦ .inl).trans hlast)

variable (host) in
/-- Writing the catalog of a locale makes room if it has to, and changes the file of the locale. -/
theorem write (h : Furnished directory region start session.disk) (hroom : HasRoom start directory)
    (hplain : '/' ∉ locale.toList) (catalog : Catalog) :
    let after := ((CatalogFile.write (pathOf directory locale) catalog).start host session).2.disk
    Furnished directory
      (fun place ↦ region place ∨ after.locate (pathOf directory locale) = .ok place) start
      after := by
  have hmade := h.makeRoom host hroom hplain
  rw [write_eq]
  cases hanswer : (CatalogFile.makeRoom (pathOf directory locale)).start host session with
  | mk answer built =>
    rw [hanswer] at hmade
    cases answer with
    | error fault =>
      rw [Run.start_bind_error hanswer]
      exact hmade.mono fun _ ↦ .inl
    | ok _ =>
      rw [Run.start_bind_ok hanswer, Run.start_adapt]
      exact hmade.writeText host hplain catalog.write

end Furnished

end Phrasebook.CatalogFile
