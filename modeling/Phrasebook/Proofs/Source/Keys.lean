import Phrasebook.Proofs.Catalog.Index
import Phrasebook.Proofs.Catalog.Mint
import Phrasebook.Source.Conversion

/-!
# The keys of the sites of a source

Giving keys to sites lets a catalog grow at its end and changes nothing that was there. Each site
gets a key that has its text in the catalog that results, up to the blanks at the edges, whether
the key was found or is new; and every entry that was added is there for a site.
-/

namespace Phrasebook

/-- A catalog has the entries of another one, in order, and behind them those that were added. -/
def KeyedCatalog.GrownBy (before after : KeyedCatalog) (added : List (String × String)) : Prop :=
  after.entries.entries = before.entries.entries ++ added

namespace KeyedCatalog.GrownBy

variable {before middle after : KeyedCatalog} {added more : List (String × String)}

theorem refl (catalog : KeyedCatalog) : GrownBy catalog catalog [] :=
  (List.append_nil _).symm

theorem trans (first : GrownBy before middle added) (second : GrownBy middle after more) :
    GrownBy before after (added ++ more) :=
  calc
    after.entries.entries = middle.entries.entries ++ more := second
    _ = before.entries.entries ++ added ++ more := congrArg (· ++ more) first
    _ = before.entries.entries ++ (added ++ more) := List.append_assoc ..

theorem entries_eq (grown : GrownBy before after []) : after.entries = before.entries := by
  have hsame : after.entries.entries = before.entries.entries :=
    Eq.trans grown (List.append_nil _)
  obtain ⟨⟨entries, hnodup⟩, index⟩ := after
  cases hsame
  rfl

theorem get? {key template : String} (grown : GrownBy before after added)
    (h : before.get? key = some template) : after.get? key = some template := by
  have hmem := Catalog.get?_eq_some_iff.1 h
  refine Catalog.get?_eq_some_iff.2 ?_
  rw [grown]
  exact List.mem_append_left _ hmem

theorem keys (grown : GrownBy before after added) :
    after.entries.keys = before.entries.keys ++ added.map Prod.fst := by
  unfold Catalog.keys
  rw [grown, List.map_append]

theorem contains {key : String} (grown : GrownBy before after added)
    (h : before.contains key = true) : after.contains key = true := by
  refine Catalog.contains_iff.2 ?_
  rw [grown.keys]
  exact List.mem_append_left _ (Catalog.contains_iff.1 h)

theorem size (grown : GrownBy before after added) : after.size = before.size + added.length := by
  unfold KeyedCatalog.size Catalog.size
  rw [grown, List.length_append]

theorem keyOf? {text key : String} (grown : GrownBy before after added)
    (hbefore : before.Indexed) (hafter : after.Indexed) (h : before.keyOf? text = some key) :
    after.keyOf? text = some key := by
  refine hafter.keyOf?_eq_some_iff.2 ?_
  rw [grown]
  exact (hbefore.keyOf?_eq_some_iff.1 h).append added

end KeyedCatalog.GrownBy

theorem KeyedCatalog.grownBy_insert {catalog : KeyedCatalog} {key : String}
    (h : catalog.contains key = false) (template : String) :
    GrownBy catalog (catalog.insert key template) [(key, template)] :=
  entries_insert h

namespace Conversion

variable {minter : Minter} {catalog : KeyedCatalog} {site : Site} {rest sites : List Site}

theorem assignKeys_known {key : String} (h : catalog.keyOf? site.found.template = some key) :
    assignKeys minter catalog (site :: rest) =
      (⟨site, key⟩ :: (assignKeys minter catalog rest).1, (assignKeys minter catalog rest).2.1,
        (assignKeys minter catalog rest).2.2) := by
  rw [assignKeys, h]

theorem assignKeys_new (h : catalog.keyOf? site.found.template = none) :
    assignKeys minter catalog (site :: rest) =
      let fresh := minter.mint site.found.kind catalog
      let others := assignKeys fresh.2 (catalog.insert fresh.1 site.found.template) rest
      (⟨site, fresh.1⟩ :: others.1, others.2.1, others.2.2 + 1) := by
  rw [assignKeys, h]

/-- Every site gets a key, and the sites stay in order. -/
theorem sites_assignKeys (minter : Minter) (catalog : KeyedCatalog) (sites : List Site) :
    (assignKeys minter catalog sites).1.map KeyedSite.site = sites := by
  induction sites generalizing minter catalog with
  | nil => rfl
  | cons site rest ih =>
    cases hkey : catalog.keyOf? site.found.template with
    | some key => rw [assignKeys_known hkey, List.map_cons, ih]
    | none => rw [assignKeys_new hkey, List.map_cons, ih]

theorem site_mem_of_mem_assignKeys {call : KeyedSite}
    (h : call ∈ (assignKeys minter catalog sites).1) : call.site ∈ sites := by
  have hsite : call.site ∈ (assignKeys minter catalog sites).1.map KeyedSite.site :=
    List.mem_map_of_mem h
  rwa [sites_assignKeys] at hsite

/-- What giving keys to sites amounts to. -/
structure Assigned (before : KeyedCatalog) (keyed : List KeyedSite) (after : KeyedCatalog)
    (added : List (String × String)) : Prop where
  indexed : after.Indexed
  grown : before.GrownBy after added
  /-- Every entry that was added is there for a site, with its text as the template. -/
  origin : added.Sublist (keyed.map fun keyed ↦ (keyed.key, keyed.site.found.template))
  texts : ∀ entry ∈ keyed, ∃ template, after.get? entry.key = some template ∧
    Text.trim template = Text.trim entry.site.found.template

/-- The keys that sites are given are assigned one after the other, and those that were added are
counted. -/
theorem assigned_assignKeys (hindexed : catalog.Indexed) (minter : Minter) (sites : List Site) :
    ∃ added, Assigned catalog (assignKeys minter catalog sites).1
        (assignKeys minter catalog sites).2.1 added ∧
      added.length = (assignKeys minter catalog sites).2.2 := by
  induction sites generalizing minter catalog with
  | nil => exact ⟨[], ⟨hindexed, .refl catalog, List.Sublist.refl _, by simp [assignKeys]⟩, rfl⟩
  | cons site rest ih =>
    cases hkey : catalog.keyOf? site.found.template with
    | some key =>
      rw [assignKeys_known hkey]
      obtain ⟨added, hassigned, hcount⟩ := ih hindexed minter
      obtain ⟨template, hget, htrim⟩ := hindexed.get?_of_keyOf? hkey
      refine ⟨added, ⟨hassigned.indexed, hassigned.grown, hassigned.origin.cons _, ?_⟩, hcount⟩
      intro entry hentry
      rcases List.mem_cons.1 hentry with rfl | hmem
      · exact ⟨template, hassigned.grown.get? hget, htrim⟩
      · exact hassigned.texts entry hmem
    | none =>
      rw [assignKeys_new hkey]
      have hfresh := Minter.mint_fresh minter site.found.kind catalog
      obtain ⟨added, hassigned, hcount⟩ :=
        ih (hindexed.insert (minter.mint site.found.kind catalog).1 site.found.template)
          (minter.mint site.found.kind catalog).2
      have hinsert := KeyedCatalog.grownBy_insert hfresh site.found.template
      refine ⟨((minter.mint site.found.kind catalog).1, site.found.template) :: added,
        ⟨hassigned.indexed, hinsert.trans hassigned.grown, hassigned.origin.cons_cons _, ?_⟩, ?_⟩
      · intro entry hentry
        rcases List.mem_cons.1 hentry with rfl | hmem
        · refine ⟨site.found.template, ?_, rfl⟩
          refine Catalog.get?_eq_some_iff.2 ?_
          rw [hinsert.trans hassigned.grown]
          exact List.mem_append_right _ List.mem_cons_self
        · exact hassigned.texts entry hmem
      · rw [List.length_cons, hcount]

end Conversion

end Phrasebook
