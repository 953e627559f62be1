import Phrasebook.Proofs.Source.Conversion

/-!
# Converting a source with a catalog in place

A conversion can be run on a catalog that it holds and extends site by site, as a program does that
works on one catalog for all its sources. It gives the same outcome as the function that takes a
catalog and returns another one. What becomes of the catalog when it fails is seen only here: a
source that is no module is refused before the catalog is touched.
-/

namespace Phrasebook.Conversion

/-- Gives keys to sites, in order, and stores each new one at once. The number counts the new
keys. -/
def giveKeys (minter : Minter) : List Site → StateM KeyedCatalog (List KeyedSite × Nat)
  | [] => return ([], 0)
  | site :: rest => do
    let catalog ← get
    match catalog.keyOf? site.found.template with
    | some key =>
      let (sites, count) ← giveKeys minter rest
      return (⟨site, key⟩ :: sites, count)
    | none =>
      let (key, minter) := minter.mint site.found.kind catalog
      set (catalog.insert key site.found.template)
      let (sites, count) ← giveKeys minter rest
      return (⟨site, key⟩ :: sites, count + 1)

/-- Converts a source and extends the catalog that is held. -/
def convert (options : ConversionOptions) (path : Path) (scope code : String) :
    StateM KeyedCatalog (Except Fault Conversion) := do
  match Syntax.Module.parse? path.hasMarkup code with
  | none => return .error .unreadable
  | some module =>
    let collection := Collection.ofModule options.excluded module
    if collection.cutsCharacter then return .error .cutsCharacter
    let known ← get
    let unknown := collection.references.filter fun reference ↦ !known.contains reference.key
    let (sites, newKeys) ← giveKeys (.start scope) collection.sites
    let access := if sites.isEmpty then [] else accessEdits options module collection
    match Edit.applyAll? code (sites.map siteEdit ++ access) with
    | none => return .error .cutsCharacter
    | some output =>
      return .ok
        { output := output
          modified := output != code
          replacements := sites.length
          newKeys := newKeys
          unknownKeys := unknown
          lacksHookSite :=
            !sites.isEmpty && options.style == .hook && collection.hookSite?.isNone }

/-- The answer of a conversion that holds a catalog, and the catalog that it leaves behind. -/
def inPlace (options : ConversionOptions) (path : Path) (scope code : String)
    (before : KeyedCatalog) : Except Fault Conversion × KeyedCatalog :=
  ((convert options path scope code).run before).run

variable {options : ConversionOptions} {path : Path} {scope code : String}
variable {before after : KeyedCatalog} {conversion : Conversion}

/-- Giving keys in place, with the catalog as a state, gives the keys that `assignKeys` gives. -/
theorem run_giveKeys (minter : Minter) (catalog : KeyedCatalog) (sites : List Site) :
    (giveKeys minter sites).run catalog =
      pure (((assignKeys minter catalog sites).1, (assignKeys minter catalog sites).2.2),
        (assignKeys minter catalog sites).2.1) := by
  induction sites generalizing minter catalog with
  | nil => rfl
  | cons site rest ih =>
    cases hkey : catalog.keyOf? site.found.template with
    | some key =>
      rw [assignKeys_known hkey, giveKeys, StateT.run_bind, StateT.run_get, pure_bind, hkey,
        StateT.run_bind, ih, pure_bind, StateT.run_pure]
    | none =>
      rw [assignKeys_new hkey, giveKeys, StateT.run_bind, StateT.run_get, pure_bind, hkey,
        StateT.run_bind, StateT.run_set, pure_bind, StateT.run_bind, ih, pure_bind, StateT.run_pure]

theorem inPlace_unreadable (h : Syntax.Module.parse? path.hasMarkup code = none) :
    inPlace options path scope code before = (.error .unreadable, before) := by
  unfold inPlace convert
  rw [h]
  rfl

/-- The answer for a module, and the catalog with the keys of all its sites unless a text that is
looked at is cut: keys are given after that. -/
theorem inPlace_module {module : Syntax.Module}
    (h : Syntax.Module.parse? path.hasMarkup code = some module) :
    inPlace options path scope code before =
      (match ofModule? options scope code module before with
        | some (conversion, _) => .ok conversion
        | none => .error .cutsCharacter,
      if (Collection.ofModule options.excluded module).cutsCharacter then before
      else
        (assignKeys (.start scope) before
          (Collection.ofModule options.excluded module).sites).2.1) := by
  unfold inPlace convert ofModule? ofCollection?
  cases hcut : (Collection.ofModule options.excluded module).cutsCharacter with
  | true =>
    simp only [h, hcut, if_true]
    rfl
  | false =>
    simp only [h, hcut, Bool.false_eq_true, if_false, StateT.run_bind, StateT.run_get, pure_bind,
      run_giveKeys]
    cases Edit.applyAll? code _ <;> rfl

/-- A conversion in place has the outcome of the function. -/
theorem inPlace_ok_iff :
    inPlace options path scope code before = (.ok conversion, after) ↔
      ofSource options path scope code before = .ok (conversion, after) := by
  unfold ofSource
  cases hmodule : Syntax.Module.parse? path.hasMarkup code with
  | none =>
    rw [inPlace_unreadable hmodule]
    simp
  | some module =>
    rw [inPlace_module hmodule]
    cases hconvert : ofModule? options scope code module before with
    | none => simp [hconvert]
    | some outcome =>
      obtain ⟨huncut, hcollected⟩ := ofModule?_eq_some_iff.1 hconvert
      obtain ⟨output, -, rfl⟩ := Option.map_eq_some_iff.1 hcollected
      simp [hconvert, huncut]

/-- A conversion in place that fails is a conversion that fails, with the same fault. -/
theorem ofSource_of_inPlace_error {fault : Fault}
    (h : inPlace options path scope code before = (.error fault, after)) :
    ofSource options path scope code before = .error fault := by
  unfold ofSource
  cases hmodule : Syntax.Module.parse? path.hasMarkup code with
  | none =>
    rw [inPlace_unreadable hmodule] at h
    cases h
    rfl
  | some module =>
    rw [inPlace_module hmodule] at h
    cases hconvert : ofModule? options scope code module before with
    | none =>
      rw [hconvert] at h
      cases h
      simp [hconvert]
    | some outcome =>
      rw [hconvert] at h
      cases h

/-- A source that is no module leaves the catalog as it was. -/
theorem eq_of_inPlace_unreadable
    (h : inPlace options path scope code before = (.error .unreadable, after)) :
    after = before := by
  cases hmodule : Syntax.Module.parse? path.hasMarkup code with
  | none =>
    rw [inPlace_unreadable hmodule] at h
    cases h
    rfl
  | some module =>
    rw [inPlace_module hmodule] at h
    cases hconvert : ofModule? options scope code module before <;> rw [hconvert] at h <;> cases h

/-- Whatever a conversion answers, the catalog that it leaves has grown at its end at most. -/
theorem exists_grownBy_inPlace (hindexed : before.Indexed) :
    ∃ added, before.GrownBy (inPlace options path scope code before).2 added ∧
      (inPlace options path scope code before).2.Indexed := by
  cases hmodule : Syntax.Module.parse? path.hasMarkup code with
  | none =>
    rw [inPlace_unreadable hmodule]
    exact ⟨[], .refl before, hindexed⟩
  | some module =>
    rw [inPlace_module hmodule]
    dsimp only
    split
    · exact ⟨[], .refl before, hindexed⟩
    · obtain ⟨added, hassigned, -⟩ := assigned_assignKeys hindexed (.start scope)
        (Collection.ofModule options.excluded module).sites
      exact ⟨added, hassigned.grown, hassigned.indexed⟩

end Phrasebook.Conversion
