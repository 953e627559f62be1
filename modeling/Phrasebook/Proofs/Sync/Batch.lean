import Phrasebook.Proofs.Catalog.Entries
import Phrasebook.Proofs.Session.Step
import Phrasebook.Sync

/-!
# Filling a catalog batch by batch

The keys that a target lacks are cut into batches, and each batch is one request. What the provider
answers may depend on every request before it; a key is filled only from the answer to its own
batch. The texts that come back can therefore be listed before any of them is set, and setting them
one after the other gives the catalog that `Catalog.entries_setAll` describes.
-/

namespace Phrasebook.Sync

/-- A list cut into consecutive pieces, which are as long as a size allows except for the last
one. -/
structure Chunks {α : Type} (size : Nat) (items : List α) (pieces : List (List α)) : Prop where
  flatten : pieces.flatten = items
  short : ∀ piece ∈ pieces, piece ≠ [] ∧ piece.length ≤ size
  full : ∀ piece ∈ pieces.dropLast, piece.length = size

theorem batches_nil {α : Type} (size : Nat) : batches size ([] : List α) = [] := by
  unfold batches
  rfl

theorem batches_of_ne {α : Type} (size : Nat) {items : List α} (h : items ≠ []) :
    batches size items =
      items.take (size - 1 + 1) :: batches size (items.drop (size - 1 + 1)) := by
  rw [batches, dif_neg h]

theorem batches_eq_nil_iff {α : Type} {size : Nat} {items : List α} :
    batches size items = [] ↔ items = [] := by
  constructor
  · intro h
    by_contra hne
    rw [batches_of_ne size hne] at h
    cases h
  · rintro rfl
    exact batches_nil size

theorem chunks_batches {α : Type} (size : Nat) (items : List α) :
    Chunks (max size 1) items (batches size items) := by
  have hsize : size - 1 + 1 = max size 1 := by omega
  induction items using batches.induct size with
  | case1 =>
    rw [batches_nil]
    exact ⟨rfl, by simp, by simp⟩
  | case2 items hne _ ih =>
    have hpos : 0 < items.length := List.length_pos_iff.2 hne
    rw [batches_of_ne size hne]
    refine ⟨?_, ?_, ?_⟩
    · rw [List.flatten_cons, ih.flatten, List.take_append_drop]
    · intro piece hpiece
      rcases List.mem_cons.1 hpiece with rfl | hrest
      · constructor
        · rw [← List.length_pos_iff, List.length_take]
          omega
        · rw [List.length_take, hsize]
          omega
      · exact ih.short piece hrest
    · intro piece hpiece
      by_cases hlast : items.drop (size - 1 + 1) = []
      · rw [hlast, batches_nil] at hpiece
        simp at hpiece
      · rw [List.dropLast_cons_of_ne_nil (mt batches_eq_nil_iff.1 hlast)] at hpiece
        rcases List.mem_cons.1 hpiece with rfl | hrest
        · have hlong := mt List.drop_eq_nil_iff.2 hlast
          rw [List.length_take, ← hsize]
          omega
        · exact ih.full piece hrest

/-- The texts that an answer gives for the keys of a batch, in the order of the batch. -/
def textsFor (answer : Catalog) (batch : List (String × String)) : List (String × String) :=
  batch.filterMap fun entry ↦ (answerFor? answer entry.1).map fun text ↦ (entry.1, text)

/-- Merging an answer sets what it has for the keys of a batch, and counts that. -/
theorem merge_eq (answer target : Catalog) (batch : List (String × String)) :
    merge answer target batch =
      (target.setAll (textsFor answer batch), (textsFor answer batch).length) := by
  induction batch generalizing target with
  | nil => rfl
  | cons entry rest ih =>
    unfold textsFor at ih ⊢
    obtain ⟨key, template⟩ := entry
    cases h : answerFor? answer key with
    | none => simp [merge, h, ih]
    | some text => simp [merge, h, ih]

theorem keys_textsFor (answer : Catalog) (batch : List (String × String)) :
    ((textsFor answer batch).map Prod.fst).Sublist (batch.map Prod.fst) := by
  induction batch with
  | nil => exact List.Sublist.refl _
  | cons entry rest ih =>
    unfold textsFor at ih ⊢
    rw [List.filterMap_cons]
    cases answerFor? answer entry.1 with
    | none => exact ih.cons entry.1
    | some text => exact ih.cons_cons entry.1

def requestFor (options : SyncOptions) (locale : String) (batch : List (String × String)) :
    ProviderRequest :=
  ⟨options.sourceLocale, locale, .ofList batch⟩

/-- Batches with what a provider answers to each of them, given the requests before the first. -/
def answersTo (options : SyncOptions) (provider : Provider) (locale : String) :
    List ProviderRequest → List (List (String × String)) →
      List (List (String × String) × Except ProviderFault Catalog)
  | _, [] => []
  | earlier, batch :: rest =>
    (batch, provider earlier (requestFor options locale batch)) ::
      answersTo options provider locale (earlier ++ [requestFor options locale batch]) rest

/-- The texts that come back for one batch. A batch that fails gives none. -/
def textsOf (batch : List (String × String)) : Except ProviderFault Catalog → List (String × String)
  | .ok answer => textsFor answer batch
  | .error _ => []

/-- The texts that come back for batches, each from the answer to its own batch. -/
def fillings (answers : List (List (String × String) × Except ProviderFault Catalog)) :
    List (String × String) :=
  answers.flatMap fun (batch, answer) ↦ textsOf batch answer

theorem fillings_cons (batch : List (String × String)) (answer : Except ProviderFault Catalog)
    (rest : List (List (String × String) × Except ProviderFault Catalog)) :
    fillings ((batch, answer) :: rest) = textsOf batch answer ++ fillings rest :=
  List.flatMap_cons

variable {options : SyncOptions} {provider : Provider} {locale : String}

theorem batches_answersTo (earlier : List ProviderRequest)
    (pieces : List (List (String × String))) :
    (answersTo options provider locale earlier pieces).map Prod.fst = pieces := by
  induction pieces generalizing earlier with
  | nil => rfl
  | cons batch rest ih => rw [answersTo, List.map_cons, ih]

theorem keys_textsOf (batch : List (String × String)) (answer : Except ProviderFault Catalog) :
    ((textsOf batch answer).map Prod.fst).Sublist (batch.map Prod.fst) := by
  cases answer with
  | error fault => exact List.nil_sublist _
  | ok answer => exact keys_textsFor answer batch

theorem keys_fillings (answers : List (List (String × String) × Except ProviderFault Catalog)) :
    ((fillings answers).map Prod.fst).Sublist ((answers.map Prod.fst).flatten.map Prod.fst) := by
  induction answers with
  | nil => exact List.Sublist.refl _
  | cons first rest ih =>
    rw [fillings_cons, List.map_append, List.map_cons, List.flatten_cons, List.map_append]
    exact (keys_textsOf first.1 first.2).append ih

/-- The text that comes back for a key of a batch is the one that the answer has for it. -/
theorem lookup_textsFor (answer : Catalog) {batch : List (String × String)} {key : String}
    (hkey : key ∈ batch.map Prod.fst) :
    (textsFor answer batch).lookup key = answerFor? answer key := by
  induction batch with
  | nil => cases hkey
  | cons entry rest ih =>
    have hrest : key ≠ entry.1 → key ∈ rest.map Prod.fst := fun hne ↦
      (List.mem_cons.1 hkey).resolve_left hne
    unfold textsFor at ih ⊢
    by_cases he : key = entry.1
    · subst he
      cases hanswer : answerFor? answer entry.1 with
      | some text => simp [hanswer]
      | none =>
        rw [Catalog.lookup_eq_none_iff, List.mem_map]
        rintro ⟨found, hfound, hsame⟩
        obtain ⟨other, -, hother⟩ := List.mem_filterMap.1 hfound
        obtain ⟨text, htext, rfl⟩ := Option.map_eq_some_iff.1 hother
        rw [hsame, hanswer] at htext
        cases htext
    · rw [List.filterMap_cons]
      cases answerFor? answer entry.1 with
      | some text => simpa [Catalog.lookup_cons, he] using ih (hrest he)
      | none => exact ih (hrest he)

/-- A key gets what the answer to its own batch gives, and nothing when that fails. -/
theorem lookup_fillings {answers : List (List (String × String) × Except ProviderFault Catalog)}
    (hnodup : ((answers.map Prod.fst).flatten.map Prod.fst).Nodup)
    {batch : List (String × String)} {answer : Except ProviderFault Catalog}
    (hmem : (batch, answer) ∈ answers) {key : String} (hkey : key ∈ batch.map Prod.fst) :
    (fillings answers).lookup key = answer.toOption.bind (answerFor? · key) := by
  induction answers with
  | nil => cases hmem
  | cons first rest ih =>
    obtain ⟨other, given⟩ := first
    rw [List.map_cons, List.flatten_cons, List.map_append] at hnodup
    obtain ⟨-, hrest, hdisjoint⟩ := List.nodup_append.1 hnodup
    rw [fillings_cons, List.lookup_append]
    rcases List.mem_cons.1 hmem with heq | hmem
    · cases heq
      have habsent : (fillings rest).lookup key = none := by
        rw [Catalog.lookup_eq_none_iff]
        intro hin
        have hrest := (keys_fillings rest).subset hin
        exact hdisjoint key hkey key hrest rfl
      rw [habsent, Option.or_none]
      cases answer with
      | error fault => rfl
      | ok answer => exact lookup_textsFor answer hkey
    · have hin : key ∈ (rest.map Prod.fst).flatten.map Prod.fst := by
        obtain ⟨entry, hentry, rfl⟩ := List.mem_map.1 hkey
        exact List.mem_map_of_mem (List.mem_flatten_of_mem (List.mem_map_of_mem hmem) hentry)
      have habsent : (textsOf other given).lookup key = none := by
        rw [Catalog.lookup_eq_none_iff]
        intro hin'
        have hother := (keys_textsOf other given).subset hin'
        exact hdisjoint key hother key hin rfl
      rw [habsent, Option.none_or]
      exact ih hrest hmem

variable (options provider locale) in
/-- A batch sends one request, and sets the texts that come back in the catalog. -/
theorem start_fillBatch (host : Host) (session : Session) (target : Catalog)
    (batch : List (String × String)) :
    ∃ warnings, (fillBatch options provider locale target batch).start host session =
      (.ok (target.setAll (textsOf batch (provider session.requests (requestFor options locale batch))),
          (textsOf batch (provider session.requests (requestFor options locale batch))).length),
        { session with
          warnings := warnings
          requests := session.requests ++ [requestFor options locale batch] }) := by
  unfold fillBatch ask requestFor
  simp only [Run.start_bind, Run.start_get, Run.start_modify, Run.start_pure]
  cases provider session.requests ⟨options.sourceLocale, locale, .ofList batch⟩ with
  | error fault =>
    refine ⟨session.warnings ++ [.batchFailed locale batch.length fault.describe], ?_⟩
    simp [textsOf, Except.map]
  | ok answer =>
    simp only [merge_eq, textsOf]
    by_cases hcount : (textsFor answer batch).length < batch.length
    · refine ⟨session.warnings ++ [.answersMissing locale
        (batch.length - (textsFor answer batch).length)], ?_⟩
      simp [hcount, Except.map]
    · exact ⟨session.warnings, by simp [hcount]⟩

variable (options provider locale) in
/-- Filling a target asks for the batches in order and sets the texts that come back. -/
theorem start_fill (host : Host) (session : Session) (target : Catalog)
    (pieces : List (List (String × String))) :
    ∃ warnings, (fill options provider locale target pieces).start host session =
      (.ok (target.setAll (fillings (answersTo options provider locale session.requests pieces)),
          (fillings (answersTo options provider locale session.requests pieces)).length),
        { session with
          warnings := warnings
          requests := session.requests ++ pieces.map (requestFor options locale) }) := by
  induction pieces generalizing target session with
  | nil => exact ⟨session.warnings, by simp [fill, answersTo, fillings]⟩
  | cons batch rest ih =>
    obtain ⟨first, hfirst⟩ := start_fillBatch options provider locale host session target batch
    obtain ⟨warnings, hrest⟩ := ih
      { session with
        warnings := first
        requests := session.requests ++ [requestFor options locale batch] }
      (target.setAll (textsOf batch (provider session.requests (requestFor options locale batch))))
    refine ⟨warnings, ?_⟩
    rw [fill, Run.start_bind_ok hfirst, Run.start_bind_ok hrest, Run.start_pure]
    rw [answersTo, fillings_cons, Catalog.setAll_append, List.length_append, List.map_cons,
      List.append_assoc, List.singleton_append]

end Phrasebook.Sync
