import Phrasebook.Proofs.Catalog.File
import Phrasebook.Proofs.Source.InPlace

/-!
# Keys over many runs

A catalog is loaded, sources are converted with it, it is stored and loaded again, and so on, while
the disk changes in between. Through all of that it only grows at its end, and the key of a text
stays the key of this text. Two facts carry this: each turn leaves the catalog with the index of its
entries, and a catalog that was stored is loaded as it was.
-/

namespace Phrasebook.KeyedCatalog

variable {host : Host} {session written : Session} {before after catalog : KeyedCatalog}
variable {added : List (String × String)} {key text : String} {path : Path}

def reload (path : Path) (catalog : KeyedCatalog) : Run CatalogFile.Fault KeyedCatalog := do
  CatalogFile.write path catalog.entries
  let loaded ← CatalogFile.read path
  return ofCatalog loaded

/-- A catalog that could be written is loaded as it was, with its index. -/
theorem start_reload (hindexed : catalog.Indexed)
    (h : (CatalogFile.write path catalog.entries).start host session = (.ok (), written)) :
    ∃ after, (reload path catalog).start host session = (.ok catalog, after) := by
  obtain ⟨warnings, hread⟩ := CatalogFile.start_read host written path
  rw [CatalogFile.stored_of_readText (CatalogFile.readText_write h)] at hread
  unfold reload
  rw [Run.start_bind_ok h, Run.start_bind_ok hread, hindexed.ofCatalog_entries]
  exact ⟨_, rfl⟩

theorem start_reload_cases (host : Host) (session : Session) (path : Path)
    (hindexed : catalog.Indexed) :
    (∃ fault after, (reload path catalog).start host session = (.error fault, after)) ∨
      ∃ after, (reload path catalog).start host session = (.ok catalog, after) := by
  cases hwrite : (CatalogFile.write path catalog.entries).start host session with
  | mk answer written =>
    cases answer with
    | error fault => exact .inl ⟨fault, written, Run.start_bind_error hwrite _⟩
    | ok _ => exact .inr (start_reload hindexed hwrite)

/-- One thing that happens to a catalog, or around it. -/
inductive Turn where
  | convert (options : ConversionOptions) (path : Path) (scope code : String)
  | reload (path : Path)
  /-- Something else is done, which may change the disk. -/
  | elsewhere (change : Session → Session)

/-- The session and the catalog after a turn. A catalog that could not be written is still held. -/
def Turn.play (host : Host) (turn : Turn) (session : Session) (catalog : KeyedCatalog) :
    Session × KeyedCatalog :=
  match turn with
  | .convert options path scope code =>
    (session, (Conversion.inPlace options path scope code catalog).2)
  | .reload path =>
    match (KeyedCatalog.reload path catalog).start host session with
    | (.ok loaded, after) => (after, loaded)
    | (.error _, after) => (after, catalog)
  | .elsewhere change => (change session, catalog)

def playAll (host : Host) : List Turn → Session → KeyedCatalog → Session × KeyedCatalog
  | [], session, catalog => (session, catalog)
  | turn :: rest, session, catalog =>
    let next := turn.play host session catalog
    playAll host rest next.1 next.2

/-- One turn lets the catalog grow at its end at most, and leaves it with its index. -/
theorem exists_grownBy_play (host : Host) (turn : Turn) (session : Session)
    (hindexed : catalog.Indexed) :
    ∃ added, catalog.GrownBy (turn.play host session catalog).2 added ∧
      (turn.play host session catalog).2.Indexed := by
  cases turn with
  | convert options path scope code => exact Conversion.exists_grownBy_inPlace hindexed
  | reload path =>
    -- Written and loaded again or not, the catalog is the one that was held.
    refine ⟨[], ?_⟩
    have hkept : ((Turn.reload path).play host session catalog).2 = catalog := by
      unfold Turn.play
      rcases start_reload_cases host session path hindexed with ⟨fault, after, h⟩ | ⟨after, h⟩ <;>
        simp only [h]
    rw [hkept]
    exact ⟨.refl catalog, hindexed⟩
  | elsewhere change => exact ⟨[], .refl catalog, hindexed⟩

/-- Any number of turns let the catalog grow at its end at most, and leave it with its index. -/
theorem exists_grownBy_playAll (host : Host) (turns : List Turn) (session : Session)
    (hindexed : catalog.Indexed) :
    ∃ added, catalog.GrownBy (playAll host turns session catalog).2 added ∧
      (playAll host turns session catalog).2.Indexed := by
  induction turns generalizing session catalog with
  | nil => exact ⟨[], .refl catalog, hindexed⟩
  | cons turn rest ih =>
    obtain ⟨added, hgrown, hnext⟩ := exists_grownBy_play host turn session hindexed
    obtain ⟨more, hmore, hlast⟩ := ih (turn.play host session catalog).1 hnext
    exact ⟨added ++ more, hgrown.trans hmore, hlast⟩

/-- From the moment at which a catalog is loaded it only grows at its end: no template changes, and
a text that has a key keeps this key. Writing it and loading it again gives it back as it is. -/
theorem playAll_stable (host : Host) (loaded : Catalog) (session : Session)
    (turns later : List Turn) :
    let middle := playAll host turns session (ofCatalog loaded)
    let last := playAll host later middle.1 middle.2
    (∃ added, last.2.entries.entries = middle.2.entries.entries ++ added) ∧
      (∀ key template, middle.2.get? key = some template → last.2.get? key = some template) ∧
      (∀ text key, middle.2.keyOf? text = some key → last.2.keyOf? text = some key) ∧
      ∀ path written,
        (CatalogFile.write path last.2.entries).start host last.1 = (.ok (), written) →
          ∃ after, (reload path last.2).start host last.1 = (.ok last.2, after) := by
  intro middle last
  obtain ⟨-, -, hmiddle⟩ :=
    exists_grownBy_playAll host turns session (indexed_ofCatalog loaded)
  obtain ⟨added, hgrown, hlast⟩ := exists_grownBy_playAll host later middle.1 hmiddle
  refine ⟨⟨added, hgrown⟩, fun key template ↦ hgrown.get?, fun text key ↦ ?_, ?_⟩
  · exact hgrown.keyOf? hmiddle hlast
  · intro path written hwrite
    exact start_reload hlast hwrite

end Phrasebook.KeyedCatalog
