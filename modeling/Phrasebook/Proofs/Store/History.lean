import Phrasebook.Store

/-!
# The history of a store

An application calls its store in any order, and keeps the translators that it was handed. What the
store does at a call is told here from the calls before it: whom it notifies from the subscriptions
that were issued and not given back, and what a translator answers from the moment at which it was
handed out. An invariant relates the state of the store to the calls so far; one call preserves it,
and with it a whole run does.

Subscriptions are numbered without a bound. A program that counts them in 64 bits does the same as
long as it makes fewer than 2 ^ 64 of them.
-/

namespace Phrasebook

/-- The snapshot of a store is that of its locale and its catalogs. -/
structure Store.Current (store : Store) : Prop where
  locale : store.snapshot.locale = store.locale
  catalog : store.snapshot.catalog = (Store.catalogOf? store.catalogs store.locale).getD .empty

/-- A running application: its store, and the translators that it was handed. -/
structure Application where
  store : Store
  translators : List Translator := []

namespace Application

/-- A call of the store, or of a translator that was handed out. -/
inductive Call where
  | setLocale (locale : String)
  | setCatalogs (catalogs : List (String × Catalog))
  | subscribe
  | unsubscribe (subscription : Subscription)
  | handOut
  | ask (index : Nat) (key : String) (arguments : List Argument)

/-- What a call comes back with. -/
inductive Answer where
  | done
  | flag (value : Bool)
  | issued (subscription : Subscription)
  | handedOut (index : Nat)
  | text (locale text : String)

/-- What a call does: its answer, the calls of listeners, and the application after it. -/
def perform (application : Application) : Call → Answer × List Store.Notification × Application
  | .setLocale locale =>
    match application.store.setLocale? locale with
    | some (store, notifications) => (.flag true, notifications, { application with store := store })
    | none => (.flag false, [], application)
  | .setCatalogs catalogs =>
    let (store, notifications) := application.store.setCatalogs catalogs
    (.done, notifications, { application with store := store })
  | .subscribe =>
    let (store, subscription) := application.store.subscribe
    (.issued subscription, [], { application with store := store })
  | .unsubscribe subscription =>
    (.flag (application.store.isSubscribed subscription), [],
      { application with store := application.store.unsubscribe subscription })
  | .handOut =>
    (.handedOut application.translators.length, [],
      { application with translators := application.translators ++ [application.store.translator] })
  | .ask index key arguments =>
    match application.translators[index]? with
    | some translator =>
      (.text translator.locale (translator.translate key arguments), [], application)
    | none => (.done, [], application)

/-- A call with what it did. -/
structure Turn where
  before : Application
  call : Call
  answer : Answer
  notifications : List Store.Notification
  after : Application

def turn (application : Application) (call : Call) : Turn :=
  let (answer, notifications, after) := application.perform call
  ⟨application, call, answer, notifications, after⟩

def run (application : Application) : List Call → List Turn
  | [] => []
  | call :: rest => application.turn call :: run (application.turn call).after rest

/-! ## What turns tell -/

def Turn.issued? (turn : Turn) : Option Subscription :=
  match turn.answer with
  | .issued subscription => some subscription
  | _ => none

def issued (turns : List Turn) : List Subscription :=
  turns.filterMap Turn.issued?

/-- A subscription was issued and not given back since. -/
def InForce (turns : List Turn) (subscription : Subscription) : Prop :=
  ∃ earlier turn later, turns = earlier ++ turn :: later ∧
    turn.issued? = some subscription ∧ ∀ other ∈ later, other.call ≠ .unsubscribe subscription

/-- A turn put a new snapshot in the place of the old one. -/
def Turn.Renews (turn : Turn) : Prop :=
  (∃ catalogs, turn.call = .setCatalogs catalogs) ∨
    ∃ locale, turn.call = .setLocale locale ∧ turn.answer = .flag true

/-- What a turn does, given the turns before it. -/
structure Turn.Sound (earlier : List Turn) (turn : Turn) : Prop where
  current : turn.after.store.Current
  replaced : ∀ catalogs, turn.call = .setCatalogs catalogs →
    turn.after.store.catalogs = catalogs ∧ turn.after.store.locale = turn.before.store.locale
  accepted : ∀ locale, turn.call = .setLocale locale →
    (Store.catalogOf? turn.before.store.catalogs locale).isSome →
      turn.answer = .flag true ∧ turn.after.store.locale = locale ∧
        turn.after.store.catalogs = turn.before.store.catalogs
  refused : ∀ locale, turn.call = .setLocale locale →
    Store.catalogOf? turn.before.store.catalogs locale = none →
      turn.answer = .flag false ∧ turn.after = turn.before ∧ turn.notifications = []
  /-- A new snapshot is another object, and everyone who listens is told of it once, in the order
  in which they subscribed. -/
  announced : turn.Renews →
    turn.before.store.snapshot.serial < turn.after.store.snapshot.serial ∧
      ∃ listeners : List Subscription,
        turn.notifications = listeners.map (fun listener ↦ ⟨listener, turn.after.store.snapshot⟩) ∧
        listeners.Nodup ∧ listeners.Sublist (issued earlier) ∧
        ∀ subscription, subscription ∈ listeners ↔ InForce earlier subscription
  /-- Any other call leaves the snapshot as it is and tells nobody. -/
  silent : ¬ turn.Renews →
    turn.notifications = [] ∧ turn.after.store.snapshot = turn.before.store.snapshot ∧
      turn.after.store.locale = turn.before.store.locale ∧
      turn.after.store.catalogs = turn.before.store.catalogs
  fresh : ∀ subscription, turn.issued? = some subscription → subscription ∉ issued earlier
  released : ∀ subscription, turn.call = .unsubscribe subscription →
    (turn.answer = .flag true ↔ InForce earlier subscription) ∧
      ∀ other, other ∈ turn.after.store.listeners ↔
        other ∈ turn.before.store.listeners ∧ other ≠ subscription
  /-- A translator answers from the snapshot at the moment at which it was handed out. -/
  told : ∀ index key arguments, turn.call = .ask index key arguments →
    ∀ handing ∈ earlier, handing.answer = .handedOut index →
      turn.answer = .text handing.before.store.snapshot.locale
        (Lookup.resolve handing.before.store.snapshot.catalog key arguments)

variable {earlier : List Turn} {turn : Turn} {subscription : Subscription}
variable {application : Application}

theorem issued_concat (earlier : List Turn) (turn : Turn) :
    issued (earlier ++ [turn]) = issued earlier ++ turn.issued?.toList := by
  unfold issued
  rw [List.filterMap_append, List.filterMap_cons, List.filterMap_nil]
  cases turn.issued? <;> rfl

/-- After a turn, the subscription that it issued is in force, and those that it did not give back
still are. -/
theorem inForce_concat_iff :
    InForce (earlier ++ [turn]) subscription ↔
      turn.issued? = some subscription ∨
        InForce earlier subscription ∧ turn.call ≠ .unsubscribe subscription := by
  constructor
  · rintro ⟨front, found, later, hsplit, hissued, hkept⟩
    rcases List.eq_nil_or_concat later with rfl | ⟨rest, last, rfl⟩
    · have hlast := List.append_inj_right' hsplit rfl
      rw [List.singleton_inj.1 hlast]
      exact .inl hissued
    · rw [List.concat_eq_append] at hsplit hkept
      rw [← List.cons_append, ← List.append_assoc] at hsplit
      obtain ⟨hearlier, hlast⟩ := List.append_inj' hsplit rfl
      rw [List.singleton_inj.1 hlast]
      refine .inr ⟨⟨front, found, rest, hearlier, hissued, fun other hother ↦ ?_⟩, ?_⟩
      · exact hkept other (List.mem_append_left _ hother)
      · exact hkept last (List.mem_append_right _ (List.mem_singleton.2 rfl))
  · rintro (hissued | ⟨⟨front, found, later, rfl, hissued, hkept⟩, hcall⟩)
    · exact ⟨earlier, turn, [], rfl, hissued, fun _ hother ↦ by cases hother⟩
    · refine ⟨front, found, later ++ [turn], by simp, hissued, fun other hother ↦ ?_⟩
      rcases List.mem_append.1 hother with hlater | hlast
      · exact hkept other hlater
      · rw [List.mem_singleton.1 hlast]
        exact hcall

/-! ## All that can happen -/

/-- What a turn of an application is. -/
inductive Happens (application : Application) : Turn → Prop where
  | refused (locale : String) (h : Store.catalogOf? application.store.catalogs locale = none) :
    Happens application ⟨application, .setLocale locale, .flag false, [], application⟩
  | accepted (locale : String)
    (h : (Store.catalogOf? application.store.catalogs locale).isSome = true) :
    Happens application
      { before := application
        call := .setLocale locale
        answer := .flag true
        notifications := (Store.refresh { application.store with locale := locale }).2
        after := { application with
          store := (Store.refresh { application.store with locale := locale }).1 } }
  | replaced (catalogs : List (String × Catalog)) :
    Happens application
      { before := application
        call := .setCatalogs catalogs
        answer := .done
        notifications := (application.store.setCatalogs catalogs).2
        after := { application with store := (application.store.setCatalogs catalogs).1 } }
  | subscribed :
    Happens application
      { before := application
        call := .subscribe
        answer := .issued ⟨application.store.subscribed⟩
        notifications := []
        after := { application with store := application.store.subscribe.1 } }
  | released (subscription : Subscription) :
    Happens application
      { before := application
        call := .unsubscribe subscription
        answer := .flag (application.store.isSubscribed subscription)
        notifications := []
        after := { application with store := application.store.unsubscribe subscription } }
  | handedOut :
    Happens application
      { before := application
        call := .handOut
        answer := .handedOut application.translators.length
        notifications := []
        after := { application with
          translators := application.translators ++ [application.store.translator] } }
  | told (index : Nat) (key : String) (arguments : List Argument) (translator : Translator)
    (h : application.translators[index]? = some translator) :
    Happens application
      { before := application
        call := .ask index key arguments
        answer := .text translator.locale (translator.translate key arguments)
        notifications := []
        after := application }
  | untold (index : Nat) (key : String) (arguments : List Argument)
    (h : application.translators[index]? = none) :
    Happens application ⟨application, .ask index key arguments, .done, [], application⟩

/-- Every turn of an application is one of those that can happen. -/
theorem happens_turn (application : Application) (call : Call) :
    Happens application (application.turn call) := by
  cases call with
  | setCatalogs catalogs => exact .replaced catalogs
  | subscribe => exact .subscribed
  | unsubscribe subscription => exact .released subscription
  | handOut => exact .handedOut
  | setLocale locale =>
    cases hcatalog : Store.catalogOf? application.store.catalogs locale with
    | none =>
      have hset : application.store.setLocale? locale = none := by
        unfold Store.setLocale?
        rw [hcatalog]
        rfl
      simp only [Application.turn, perform, hset]
      exact .refused locale hcatalog
    | some catalog =>
      have hsome : (Store.catalogOf? application.store.catalogs locale).isSome = true := by
        rw [hcatalog]
        rfl
      have hset : application.store.setLocale? locale =
          some (Store.refresh { application.store with locale := locale }) := if_pos hsome
      simp only [Application.turn, perform, hset]
      exact .accepted locale hsome
  | ask index key arguments =>
    cases htranslator : application.translators[index]? with
    | none =>
      simp only [Application.turn, perform, htranslator]
      exact .untold index key arguments htranslator
    | some translator =>
      simp only [Application.turn, perform, htranslator]
      exact .told index key arguments translator htranslator

/-- The listeners of a store are the subscriptions in force, in the order in which they were
issued, and these have the numbers from zero on. -/
structure Subscribed (earlier : List Turn) (store : Store) : Prop where
  issued : issued earlier = (List.range store.subscribed).map Subscription.mk
  sublist : store.listeners.Sublist (Application.issued earlier)
  inForce : ∀ subscription, subscription ∈ store.listeners ↔ InForce earlier subscription

variable {store : Store}

theorem Subscribed.nodup_issued (h : Subscribed earlier store) :
    (Application.issued earlier).Nodup := by
  rw [h.issued]
  apply List.Pairwise.map Subscription.mk ?_ List.nodup_range
  intro first second hne hsame
  exact hne (Subscription.mk.inj hsame)

theorem Subscribed.next_not_mem (h : Subscribed earlier store) :
    ⟨store.subscribed⟩ ∉ Application.issued earlier := by
  rw [h.issued]
  intro hmem
  obtain ⟨number, hnumber, hsame⟩ := List.mem_map.1 hmem
  have hlt := List.mem_range.1 hnumber
  rw [Subscription.mk.inj hsame] at hlt
  exact Nat.lt_irrefl _ hlt

/-- A call that is about no subscription leaves the subscriptions as they are. -/
theorem Subscribed.kept (h : Subscribed earlier turn.before.store) (hissued : turn.issued? = none)
    (hcall : ∀ subscription, turn.call ≠ .unsubscribe subscription)
    (hlisteners : turn.after.store.listeners = turn.before.store.listeners)
    (hsubscribed : turn.after.store.subscribed = turn.before.store.subscribed) :
    Subscribed (earlier ++ [turn]) turn.after.store where
  issued := by
    rw [issued_concat, hissued, hsubscribed, h.issued]
    exact List.append_nil _
  sublist := by
    rw [issued_concat, hissued, hlisteners]
    exact h.sublist.trans (List.sublist_append_left _ _)
  inForce := by
    intro subscription
    rw [inForce_concat_iff, hissued, hlisteners, h.inForce]
    simp [hcall subscription]

/-- A listener that was added is the last one, and its subscription has the next number. -/
theorem Subscribed.issue (h : Subscribed earlier application.store)
    (hissued : turn.issued? = some ⟨application.store.subscribed⟩) (hcall : turn.call = .subscribe) :
    Subscribed (earlier ++ [turn]) application.store.subscribe.1 where
  issued := by
    rw [issued_concat, hissued, h.issued]
    change _ = (List.range (application.store.subscribed + 1)).map Subscription.mk
    rw [List.range_succ, List.map_append]
    rfl
  sublist := by
    rw [issued_concat, hissued]
    exact h.sublist.append (.refl _)
  inForce := by
    intro subscription
    rw [inForce_concat_iff, hissued, ← h.inForce]
    change subscription ∈ application.store.listeners ++ [⟨application.store.subscribed⟩] ↔ _
    rw [List.mem_append, List.mem_singleton, Option.some.injEq, or_comm,
      eq_comm (a := subscription)]
    simp [hcall]

/-- A subscription that was given back leaves the others in their order. -/
theorem Subscribed.release (h : Subscribed earlier application.store)
    {released : Subscription} (hissued : turn.issued? = none)
    (hcall : turn.call = .unsubscribe released) :
    Subscribed (earlier ++ [turn]) (application.store.unsubscribe released) where
  issued := by
    rw [issued_concat, hissued, h.issued]
    exact List.append_nil _
  sublist := by
    rw [issued_concat]
    exact List.filter_sublist.trans (h.sublist.trans (List.sublist_append_left _ _))
  inForce := by
    intro subscription
    rw [inForce_concat_iff, hissued, ← h.inForce]
    change subscription ∈ application.store.listeners.filter (· != released) ↔ _
    rw [List.mem_filter, bne_iff_ne, hcall, ne_comm]
    simp

theorem Subscribed.next (h : Subscribed earlier application.store)
    (hturn : Happens application turn) :
    Subscribed (earlier ++ [turn]) turn.after.store := by
  cases hturn with
  | subscribed => exact h.issue rfl rfl
  | released subscription => exact h.release rfl rfl
  | _ => exact Subscribed.kept h rfl (fun _ hcall ↦ by cases hcall) rfl rfl

theorem current_refresh (store : Store) : store.refresh.1.Current :=
  ⟨rfl, rfl⟩

theorem Happens.current (hturn : Happens application turn) (h : application.store.Current) :
    turn.after.store.Current := by
  cases hturn with
  | accepted locale hcatalog => exact current_refresh _
  | replaced catalogs => exact current_refresh _
  | _ => exact ⟨h.locale, h.catalog⟩

/-- Every translator that was handed out is kept, with the snapshot of that moment. -/
def Keeps (earlier : List Turn) (translators : List Translator) : Prop :=
  ∀ turn ∈ earlier, ∀ index, turn.answer = .handedOut index →
    translators[index]? = some ⟨turn.before.store.snapshot⟩

theorem Keeps.kept {translators : List Translator} (h : Keeps earlier translators)
    (hanswer : ∀ index, turn.answer ≠ .handedOut index) :
    Keeps (earlier ++ [turn]) translators := by
  intro other hother index hindex
  rcases List.mem_append.1 hother with hearlier | hlast
  · exact h other hearlier index hindex
  · rw [List.mem_singleton.1 hlast] at hindex
    exact absurd hindex (hanswer index)

/-- A translator that is handed out keeps the snapshot of that moment. -/
theorem Keeps.handOut {translators : List Translator} (h : Keeps earlier translators)
    (hanswer : turn.answer = .handedOut translators.length) :
    Keeps (earlier ++ [turn]) (translators ++ [⟨turn.before.store.snapshot⟩]) := by
  intro other hother index hindex
  rcases List.mem_append.1 hother with hearlier | hlast
  · have hget := h other hearlier index hindex
    rw [List.getElem?_append_left (List.getElem?_eq_some_iff.1 hget).1, hget]
  · rw [List.mem_singleton.1 hlast] at hindex ⊢
    cases hanswer.symm.trans hindex
    exact List.getElem?_concat_length

theorem Keeps.next (h : Keeps earlier application.translators) (hturn : Happens application turn) :
    Keeps (earlier ++ [turn]) turn.after.translators := by
  cases hturn with
  | handedOut => exact Keeps.handOut h rfl
  | _ => exact Keeps.kept h fun _ hanswer ↦ by cases hanswer

/-! ## One call -/

/-- A store that takes a new snapshot tells all subscriptions in force of it. -/
theorem Subscribed.announced (h : Subscribed earlier store) :
    ∃ listeners : List Subscription,
      store.refresh.2 = listeners.map (fun listener ↦ ⟨listener, store.refresh.1.snapshot⟩) ∧
      listeners.Nodup ∧ listeners.Sublist (Application.issued earlier) ∧
      ∀ subscription, subscription ∈ listeners ↔ InForce earlier subscription :=
  ⟨store.listeners, rfl, h.sublist.nodup h.nodup_issued, h.sublist, h.inForce⟩

theorem Happens.silent (hturn : Happens application turn) (h : ¬ turn.Renews) :
    turn.notifications = [] ∧ turn.after.store.snapshot = turn.before.store.snapshot ∧
      turn.after.store.locale = turn.before.store.locale ∧
      turn.after.store.catalogs = turn.before.store.catalogs := by
  cases hturn with
  | accepted locale hcatalog => exact absurd (.inr ⟨locale, rfl, rfl⟩) h
  | replaced catalogs => exact absurd (.inl ⟨catalogs, rfl⟩) h
  | _ => exact ⟨rfl, rfl, rfl, rfl⟩

/-- The state of an application is what the turns before it tell. -/
structure Accounts (earlier : List Turn) (application : Application) : Prop where
  current : application.store.Current
  subscribed : Subscribed earlier application.store
  keeps : Keeps earlier application.translators

theorem Accounts.next (h : Accounts earlier application) (hturn : Happens application turn) :
    Accounts (earlier ++ [turn]) turn.after :=
  ⟨hturn.current h.current, h.subscribed.next hturn, h.keeps.next hturn⟩

/-- A call does what the turns before it ask for. -/
theorem Accounts.sound (h : Accounts earlier application) (hturn : Happens application turn) :
    turn.Sound earlier where
  current := hturn.current h.current
  replaced := by
    intro catalogs hcall
    cases hturn with
    | replaced given =>
      cases hcall
      exact ⟨rfl, rfl⟩
    | _ => cases hcall
  accepted := by
    intro locale hcall hcatalog
    cases hturn with
    | refused asked hnone =>
      cases hcall
      rw [hnone] at hcatalog
      cases hcatalog
    | accepted asked hsome =>
      cases hcall
      exact ⟨rfl, rfl, rfl⟩
    | _ => cases hcall
  refused := by
    intro locale hcall hcatalog
    cases hturn with
    | refused asked hnone =>
      cases hcall
      exact ⟨rfl, rfl, rfl⟩
    | accepted asked hsome =>
      cases hcall
      rw [hcatalog] at hsome
      cases hsome
    | _ => cases hcall
  announced := by
    intro hrenews
    cases hturn with
    | accepted locale hcatalog =>
      have hmoved : Subscribed earlier { application.store with locale := locale } :=
        ⟨h.subscribed.issued, h.subscribed.sublist, h.subscribed.inForce⟩
      exact ⟨Nat.lt_succ_self _, hmoved.announced⟩
    | replaced catalogs =>
      have hmoved : Subscribed earlier { application.store with catalogs := catalogs } :=
        ⟨h.subscribed.issued, h.subscribed.sublist, h.subscribed.inForce⟩
      exact ⟨Nat.lt_succ_self _, hmoved.announced⟩
    | _ =>
      rcases hrenews with ⟨_, hcall⟩ | ⟨_, hcall, hanswer⟩
      · cases hcall
      · cases hcall <;> cases hanswer
  silent := hturn.silent
  fresh := by
    intro subscription hissued
    cases hturn with
    | subscribed =>
      cases hissued
      exact h.subscribed.next_not_mem
    | _ => cases hissued
  released := by
    intro released hcall
    cases hturn with
    | released subscription =>
      cases hcall
      refine ⟨?_, fun other ↦ ?_⟩
      · rw [← h.subscribed.inForce]
        change Answer.flag (application.store.listeners.contains released) = _ ↔ _
        simp
      · change other ∈ application.store.listeners.filter (· != released) ↔ _
        rw [List.mem_filter, bne_iff_ne]
    | _ => cases hcall
  told := by
    intro index key arguments hcall handing hhanding hanswer
    have hget := h.keeps handing hhanding index hanswer
    cases hturn with
    | told asked _ _ translator hfound =>
      cases hcall
      cases hfound.symm.trans hget
      rfl
    | untold asked _ _ hnone =>
      cases hcall
      cases hnone.symm.trans hget
    | _ => cases hcall

theorem accounts_create (locale : String) (catalogs : List (String × Catalog)) :
    Accounts [] { store := .create locale catalogs } := by
  refine ⟨⟨rfl, rfl⟩, ⟨rfl, .slnil, fun subscription ↦ ?_⟩, fun _ hmem ↦ by cases hmem⟩
  constructor
  · intro hmem
    cases hmem
  · rintro ⟨front, found, later, hsplit, -⟩
    simp at hsplit

/-- Every call of a run does what the turns before it ask for, and the state at the end is what all
turns tell. -/
theorem Accounts.run (h : Accounts earlier application) (calls : List Call) :
    (∀ front turn rest, application.run calls = front ++ turn :: rest →
        turn.Sound (earlier ++ front)) ∧
      ∃ last, Accounts (earlier ++ application.run calls) last := by
  induction calls generalizing earlier application with
  | nil =>
    refine ⟨fun front turn rest hsplit ↦ ?_, application, ?_⟩
    · simp [Application.run] at hsplit
    · rw [Application.run, List.append_nil]
      exact h
  | cons call others ih =>
    have hturn := happens_turn application call
    obtain ⟨hsound, last, hlast⟩ := ih (h.next hturn)
    rw [Application.run]
    refine ⟨fun front turn rest hsplit ↦ ?_, last, ?_⟩
    · cases front with
      | nil =>
        rw [List.append_nil, ← (List.cons.inj hsplit).1]
        exact h.sound hturn
      | cons first front =>
        obtain ⟨hfirst, hrest⟩ := List.cons.inj hsplit
        rw [← hfirst, List.append_cons]
        exact hsound front turn rest hrest
    · rw [List.append_cons]
      exact hlast

/-- The turns of an application that begins with a store: the first snapshot is that of the active
locale, every call does what the calls before it ask for, and no subscription is issued twice. -/
structure SoundFrom (initial : Store) (calls : List Call) : Prop where
  current : initial.Current
  sound : ∀ earlier turn later,
    run { store := initial } calls = earlier ++ turn :: later → turn.Sound earlier
  nodup : (issued (run { store := initial } calls)).Nodup

theorem Accounts.soundFrom {initial : Store} (h : Accounts [] { store := initial })
    (calls : List Call) : SoundFrom initial calls := by
  obtain ⟨hsound, last, hlast⟩ := h.run calls
  exact ⟨h.current, hsound, hlast.subscribed.nodup_issued⟩

/-- Whatever is asked of a store, and whether it begins with a given locale or, where that has no
catalog, with the fallback. -/
theorem run_sound (locale : String) (catalogs : List (String × Catalog)) (calls : List Call) :
    SoundFrom (.create locale catalogs) calls ∧ SoundFrom (.start locale catalogs) calls :=
  ⟨(accounts_create locale catalogs).soundFrom calls, (accounts_create _ catalogs).soundFrom calls⟩

/-- Of two listeners the first leaves before a change, and a change to nowhere is no change. -/
example :
    (run { store := .start "fr" [("en", .empty)] }
        [.subscribe, .subscribe, .unsubscribe ⟨0⟩, .setLocale "de", .setLocale "en"]).map
      (fun turn ↦ turn.notifications.map fun call ↦ (call.listener.number, call.snapshot.locale)) =
      [[], [], [], [], [(1, "en")]] := by
  decide

end Application

end Phrasebook
