import Mathlib.Data.List.Nodup
import Phrasebook.Source.Inject

/-!
# The locales that are registered

Bindings are registered one after the other into a sorted list that has every locale once, and a
locale that is there keeps its binding. So the order in which different locales are registered does
not matter, and registering locales that are there changes nothing: the bindings of a source that
imports the catalog of every locale are the bindings of its imports.
-/

namespace Phrasebook.Registration

variable {binding : Binding} {known added all : List Binding} {plan : Plan} {layout : Layout}
variable {locale other : String}

/-- Bindings in the order of their locales, every locale once. -/
def Sorted (bindings : List Binding) : Prop :=
  bindings.Pairwise fun first second ↦ first.locale < second.locale

def locales (bindings : List Binding) : List String :=
  bindings.map Binding.locale

theorem lt_of_ne_of_not_lt {first second : String} (hne : first ≠ second) (h : ¬ first < second) :
    second < first := by
  by_contra hnot
  exact hne (String.le_antisymm (String.not_lt.1 hnot) (String.not_lt.1 h))

/-- After a binding was registered its locale is among those of the bindings, and no other was
added. -/
theorem mem_locales_register :
    other ∈ locales (register binding known) ↔ other = binding.locale ∨ other ∈ locales known := by
  unfold locales
  induction known with
  | nil => simp [register]
  | cons first rest ih =>
    unfold register
    split
    · next hsame =>
      simp only [List.map_cons, List.mem_cons]
      constructor
      · exact .inr
      · rintro (rfl | hmem)
        · exact .inl hsame
        · exact hmem
    · split
      · simp
      · simp only [List.map_cons, List.mem_cons, ih]
        tauto

/-- Registering a binding keeps the bindings in order. -/
theorem Sorted.register (hsorted : Sorted known) (binding : Binding) :
    Sorted (Registration.register binding known) := by
  induction known with
  | nil => exact List.pairwise_singleton ..
  | cons first rest ih =>
    obtain ⟨hfirst, hrest⟩ := List.pairwise_cons.1 hsorted
    unfold Registration.register
    split
    · exact hsorted
    · next hne =>
      split
      · next hlt =>
        refine List.pairwise_cons.2 ⟨fun later hlater ↦ ?_, hsorted⟩
        rcases List.mem_cons.1 hlater with rfl | hmem
        · exact hlt
        · exact String.lt_trans hlt (hfirst later hmem)
      · next hnot =>
        refine List.pairwise_cons.2 ⟨fun later hlater ↦ ?_, ih hrest⟩
        rcases mem_locales_register.1 (List.mem_map_of_mem hlater) with heq | hmem
        · rw [heq]
          exact lt_of_ne_of_not_lt hne hnot
        · obtain ⟨same, hsame, heq⟩ := List.mem_map.1 hmem
          rw [← heq]
          exact hfirst same hsame

/-- A locale that is there keeps its binding. -/
theorem Sorted.register_of_mem (hsorted : Sorted known) (h : binding.locale ∈ locales known) :
    Registration.register binding known = known := by
  induction known with
  | nil => cases h
  | cons first rest ih =>
    obtain ⟨hfirst, hrest⟩ := List.pairwise_cons.1 hsorted
    unfold Registration.register
    split
    · rfl
    · next hne =>
      have hmem : binding.locale ∈ locales rest := by
        rcases List.mem_cons.1 h with heq | hmem
        · exact absurd heq hne
        · exact hmem
      split
      · next hlt =>
        obtain ⟨later, hlater, heq⟩ := List.mem_map.1 hmem
        have hgreater := hfirst later hlater
        rw [heq] at hgreater
        exact absurd hgreater (String.lt_asymm hlt)
      · rw [ih hrest hmem]

/-- The binding of a locale that has none is added to the others. -/
theorem register_perm (h : binding.locale ∉ locales known) :
    (register binding known).Perm (binding :: known) := by
  induction known with
  | nil => exact .refl _
  | cons first rest ih =>
    obtain ⟨hfirst, hrest⟩ := not_or.1 (List.mem_cons.not.1 h)
    unfold register
    rw [if_neg hfirst]
    split
    · exact .refl _
    · exact ((ih hrest).cons first).trans (.swap ..)

def registerAll (known added : List Binding) : List Binding :=
  added.foldl (fun known binding ↦ register binding known) known

theorem mem_locales_registerAll :
    other ∈ locales (registerAll known added) ↔ other ∈ locales added ∨ other ∈ locales known := by
  induction added generalizing known with
  | nil => simp [registerAll, locales]
  | cons binding rest ih =>
    have hrest : other ∈ locales (registerAll (register binding known) rest) ↔
        other ∈ locales rest ∨ other ∈ locales (register binding known) := ih
    rw [mem_locales_register] at hrest
    refine hrest.trans ?_
    simp only [locales, List.map_cons, List.mem_cons]
    tauto

theorem Sorted.registerAll (hsorted : Sorted known) (added : List Binding) :
    Sorted (Registration.registerAll known added) := by
  induction added generalizing known with
  | nil => exact hsorted
  | cons binding rest ih => exact ih (hsorted.register binding)

theorem Sorted.registerAll_of_mem (hsorted : Sorted known)
    (h : ∀ binding ∈ added, binding.locale ∈ locales known) :
    Registration.registerAll known added = known := by
  induction added with
  | nil => rfl
  | cons binding rest ih =>
    have hkept := hsorted.register_of_mem (h binding List.mem_cons_self)
    have hrest := ih fun later hlater ↦ h later (List.mem_cons_of_mem _ hlater)
    exact (congrArg (Registration.registerAll · rest) hkept).trans hrest

theorem registerAll_perm (h : (locales added ++ locales known).Nodup) :
    (registerAll known added).Perm (added ++ known) := by
  induction added generalizing known with
  | nil => exact .refl _
  | cons binding rest ih =>
    obtain ⟨hbinding, hrest⟩ := List.nodup_cons.1 h
    have hnew : binding.locale ∉ locales known := fun hmem ↦
      hbinding (List.mem_append_right _ hmem)
    have hregister := register_perm hnew
    have hnodup : (locales rest ++ locales (register binding known)).Nodup := by
      have hmiddle : (locales rest ++ binding.locale :: locales known).Perm
          (binding.locale :: (locales rest ++ locales known)) := List.perm_middle
      exact (((hregister.map Binding.locale).append_left _).trans hmiddle).nodup_iff.2 h
    exact (ih hnodup).trans ((hregister.append_left rest).trans List.perm_middle)

theorem Sorted.nodup (hsorted : Sorted known) : (locales known).Nodup := by
  refine List.pairwise_map.2 (hsorted.imp ?_)
  intro first second hlt heq
  rw [heq] at hlt
  exact String.lt_irrefl _ hlt

theorem Sorted.eq_of_perm (hknown : Sorted known) (hadded : Sorted added)
    (hperm : known.Perm added) : known = added := by
  refine List.Perm.eq_of_pairwise (fun first second _ _ hlt hgt ↦ ?_) hknown hadded hperm
  exact absurd hgt (String.lt_asymm hlt)

theorem bindings_eq_registerAll (plan : Plan) (layout : Layout) :
    bindings plan layout = registerAll []
      (layout.imports.filterMap (bindingOf? plan) ++
        (plan.locales ++ [plan.standardLocale]).map fun locale ↦ ⟨locale, nameFor locale⟩) := rfl

theorem sorted_bindings (plan : Plan) (layout : Layout) : Sorted (bindings plan layout) := by
  rw [bindings_eq_registerAll]
  exact Sorted.registerAll List.Pairwise.nil _

/-- The locales that are registered are those that the module imports and those that the plan names.
-/
theorem mem_locales_bindings :
    locale ∈ locales (bindings plan layout) ↔
      locale ∈ locales (layout.imports.filterMap (bindingOf? plan)) ∨
        locale ∈ plan.locales ++ [plan.standardLocale] := by
  have hplanned : locales ((plan.locales ++ [plan.standardLocale]).map fun locale ↦
      ⟨locale, nameFor locale⟩) = plan.locales ++ [plan.standardLocale] := by
    unfold locales
    rw [List.map_map]
    exact List.map_id _
  rw [bindings_eq_registerAll, mem_locales_registerAll]
  unfold locales at hplanned ⊢
  rw [List.map_append, hplanned, List.mem_append]
  simp

/-- Where every catalog is imported, the bindings are those of the imports. -/
theorem bindings_eq_of_perm (hsorted : Sorted all)
    (hplanned : ∀ locale ∈ plan.locales ++ [plan.standardLocale], locale ∈ locales all)
    (hperm : (layout.imports.filterMap (bindingOf? plan)).Perm all) :
    bindings plan layout = all := by
  have hnodup : (locales (layout.imports.filterMap (bindingOf? plan)) ++ locales []).Nodup := by
    rw [locales, locales, List.map_nil, List.append_nil]
    exact (hperm.map Binding.locale).nodup_iff.2 hsorted.nodup
  -- The imports alone give all bindings, and then no locale of the plan is new.
  have hpresent : registerAll [] (layout.imports.filterMap (bindingOf? plan)) = all := by
    apply Sorted.eq_of_perm (Sorted.registerAll List.Pairwise.nil _) hsorted
    have hregistered := registerAll_perm hnodup
    rw [List.append_nil] at hregistered
    exact hregistered.trans hperm
  rw [bindings_eq_registerAll, registerAll, List.foldl_append]
  unfold registerAll at hpresent
  rw [hpresent]
  refine hsorted.registerAll_of_mem fun binding hbinding ↦ ?_
  obtain ⟨locale, hlocale, rfl⟩ := List.mem_map.1 hbinding
  exact hplanned locale hlocale

theorem toList_specifierOf (plan : Plan) (locale : String) :
    (specifierOf plan locale).toList =
      (plan.directory ++ "/").toList ++ (locale.toList ++ ".json".toList) := by
  unfold specifierOf
  rw [String.toList_append, String.toList_append, List.append_assoc]

theorem specifierOf_injective (plan : Plan) : Function.Injective (specifierOf plan) := by
  intro first second hsame
  have hchars := congrArg String.toList hsame
  rw [toList_specifierOf, toList_specifierOf] at hchars
  exact String.toList_inj.1 (List.append_cancel_right (List.append_cancel_left hchars))

/-- The specifier that is written for a locale is read as that of the locale. -/
theorem localeOf?_specifierOf (plan : Plan) (h : '/' ∉ locale.toList) :
    localeOf? plan (specifierOf plan locale) = some locale := by
  have hspecifier := toList_specifierOf plan locale
  have hprefix : (plan.directory ++ "/").toList.isPrefixOf (specifierOf plan locale).toList =
      true := by
    rw [hspecifier, List.isPrefixOf_iff_prefix]
    exact List.prefix_append ..
  have hsuffix : ".json".toList.isSuffixOf (locale.toList ++ ".json".toList) = true := by
    rw [List.isSuffixOf_iff_suffix]
    exact List.suffix_append ..
  have hlength : (locale.toList ++ ".json".toList).length - ".json".toList.length =
      locale.toList.length := by
    rw [List.length_append, Nat.add_sub_cancel]
  have hslash : locale.toList.contains '/' = false := by
    rw [← Bool.not_eq_true, List.contains_iff_mem]
    exact h
  unfold localeOf?
  dsimp only
  rw [if_pos hprefix, hspecifier, List.drop_left, if_pos hsuffix, hlength, List.take_left, hslash,
    if_neg Bool.false_ne_true, String.ofList_toList]

theorem plain_of_localeOf? {source : String} (h : localeOf? plan source = some locale) :
    '/' ∉ locale.toList := by
  unfold localeOf? at h
  dsimp only at h
  split at h
  · split at h
    · split at h
      · cases h
      · next hslash =>
        cases h
        rw [String.toList_ofList]
        exact fun hmem ↦ hslash (List.contains_iff_mem.2 hmem)
    · cases h
  · cases h

/-- The locales of a source have no slash if those of the plan have none. -/
theorem plain_of_mem_bindings
    (hplain : ∀ locale ∈ plan.locales ++ [plan.standardLocale], '/' ∉ locale.toList)
    (h : locale ∈ locales (bindings plan layout)) : '/' ∉ locale.toList := by
  rcases mem_locales_bindings.1 h with hpresent | hplanned
  · obtain ⟨binding, hbinding, rfl⟩ := List.mem_map.1 hpresent
    obtain ⟨statement, -, hbound⟩ := List.mem_filterMap.1 hbinding
    obtain ⟨locale, hlocale, hname⟩ := Option.bind_eq_some_iff.1 hbound
    obtain ⟨name, -, rfl⟩ := Option.map_eq_some_iff.1 hname
    exact plain_of_localeOf? hlocale
  · exact hplain locale hplanned

end Phrasebook.Registration
