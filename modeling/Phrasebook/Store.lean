import Phrasebook.Lookup

/-!
# The store of a running application

A store holds the catalogs of all locales and the locale that is active. Readers are handed a
snapshot of the active catalog, which never changes; every change of the store takes a new one and
tells each listener about it, in the order in which they subscribed. Snapshots are numbered, so
that two of them are the same object exactly when their numbers are equal.
-/

namespace Phrasebook

/-- The active locale with its catalog, as it was at one moment. -/
structure Snapshot where
  serial : Nat
  locale : String
  catalog : Catalog
deriving DecidableEq

/-- The number that a subscription is known by. -/
structure Subscription where
  number : Nat
deriving DecidableEq, Repr

/-- The catalogs, the active locale, the current snapshot and the listeners. -/
structure Store where
  locale : String
  catalogs : List (String × Catalog)
  snapshot : Snapshot
  listeners : List Subscription
  /-- The number of subscriptions that were ever made. -/
  subscribed : Nat
deriving DecidableEq

namespace Store

/-- The locale of an application whose own locale has no catalog. -/
def fallbackLocale : String :=
  "en"

/-- The catalog of a locale; of several the last one counts. -/
def catalogOf? (catalogs : List (String × Catalog)) (locale : String) : Option Catalog :=
  catalogs.reverse.lookup locale

def takeSnapshot (serial : Nat) (locale : String) (catalogs : List (String × Catalog)) :
    Snapshot where
  serial := serial
  locale := locale
  catalog := (catalogOf? catalogs locale).getD .empty

/-- A store with a locale, whether or not the locale has a catalog. -/
def create (locale : String) (catalogs : List (String × Catalog)) : Store where
  locale := locale
  catalogs := catalogs
  snapshot := takeSnapshot 0 locale catalogs
  listeners := []
  subscribed := 0

/-- The store that an application starts with. A locale without a catalog gives way to the
fallback. -/
def start (locale : String) (catalogs : List (String × Catalog)) : Store :=
  create (if (catalogOf? catalogs locale).isSome then locale else fallbackLocale) catalogs

/-- A call of a listener with a snapshot. -/
structure Notification where
  listener : Subscription
  snapshot : Snapshot
deriving DecidableEq

/-- The store with a new snapshot, and the calls of its listeners. -/
def refresh (store : Store) : Store × List Notification :=
  let snapshot := takeSnapshot (store.snapshot.serial + 1) store.locale store.catalogs
  ({ store with snapshot := snapshot },
    store.listeners.map fun listener ↦ ⟨listener, snapshot⟩)

/-- The store with all its catalogs replaced. The active locale stays, even without a catalog. -/
def setCatalogs (store : Store) (catalogs : List (String × Catalog)) :
    Store × List Notification :=
  refresh { store with catalogs := catalogs }

/-- The store with another active locale; nothing when the locale has no catalog. -/
def setLocale? (store : Store) (locale : String) : Option (Store × List Notification) :=
  if (catalogOf? store.catalogs locale).isSome then
    some (refresh { store with locale := locale })
  else none

/-- The store with one more listener, and the number of its subscription. -/
def subscribe (store : Store) : Store × Subscription :=
  let subscription : Subscription := ⟨store.subscribed⟩
  ({ store with
      listeners := store.listeners ++ [subscription]
      subscribed := store.subscribed + 1 },
    subscription)

def unsubscribe (store : Store) (subscription : Subscription) : Store :=
  { store with listeners := store.listeners.filter (· != subscription) }

def isSubscribed (store : Store) (subscription : Subscription) : Bool :=
  store.listeners.contains subscription

/-- The locales that have a catalog, in order and each once. -/
def availableLocales (store : Store) : List String :=
  ((store.catalogs.map Prod.fst).eraseDups).mergeSort fun first second ↦ first ≤ second

end Store

/-- A lookup that goes on to answer from one snapshot, whatever becomes of the store. -/
structure Translator where
  snapshot : Snapshot
deriving DecidableEq

namespace Translator

def locale (translator : Translator) : String :=
  translator.snapshot.locale

def translate (translator : Translator) (key : String) (arguments : List Argument) : String :=
  Lookup.resolve translator.snapshot.catalog key arguments

end Translator

def Store.translator (store : Store) : Translator :=
  ⟨store.snapshot⟩

end Phrasebook
