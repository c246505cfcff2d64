import WaxxyLive.Firestore

/-!
# Core Data: the `Host` and `Listener` entities

The entities of `waxxy_live.xcdatamodel`, the shared view context the
controllers insert them into, and the profile documents they are filled from.
An object is named by its place in the context; none is ever deleted.
-/

namespace WaxxyLive.CoreData

open Firestore

structure Host where
  email : Option String := none
  hostType : Option String := none
  numSubscribers : Int := 0
  region : Option String := none
  streamInfo : Option (List ((_ : String) × Value)) := none
  topGenres : Option (List String) := none
  username : Option String := none

structure Listener where
  email : Option String := none
  subscriptions : Option (List String) := none
  topGenres : Option (List String) := none
  username : Option String := none

/-! ## Filling an object from a profile document -/

/-- The values the five conditional casts on a host's document bind. -/
structure HostInfo where
  username : String
  region : String
  topGenres : String
  hostType : String
  email : String

/-- The `if let` chain of the login and browse screens; `none` is its `else` branch. -/
def hostInfo? (data : Document) : Option HostInfo := do
  let username ← data.string? "username"
  let region ← data.string? "region"
  let topGenres ← data.string? "topGenres"
  let hostType ← data.string? "hostType"
  let email ← data.string? "email"
  return { username, region, topGenres, hostType, email }

def Host.fill (host : Host) (info : HostInfo) : Host :=
  { host with
    username := some info.username
    region := some info.region
    topGenres := some (Separated.components ',' info.topGenres)
    hostType := some info.hostType
    email := some info.email }

/-- The values the three conditional casts on a listener's document bind. -/
structure ListenerInfo where
  username : String
  topGenres : List String
  email : String

def listenerInfo? (data : Document) : Option ListenerInfo := do
  let username ← data.string? "username"
  let topGenres ← data.strings? "topGenres"
  let email ← data.string? "email"
  return { username, topGenres, email }

def Listener.fill (listener : Listener) (info : ListenerInfo) : Listener :=
  { listener with
    username := some info.username
    email := some info.email
    topGenres := some info.topGenres
    subscriptions := some [] }

theorem hostInfo?_eq_some_iff {data : Document} {info : HostInfo} :
    hostInfo? data = some info ↔
      data.string? "username" = some info.username ∧ data.string? "region" = some info.region ∧
      data.string? "topGenres" = some info.topGenres ∧
      data.string? "hostType" = some info.hostType ∧ data.string? "email" = some info.email := by
  obtain ⟨u, r, g, t, e⟩ := info
  simp only [hostInfo?, Option.bind_eq_bind, Option.bind_eq_some_iff, Option.pure_def,
    Option.some.injEq, HostInfo.mk.injEq]
  constructor
  · rintro ⟨u', hu, r', hr, g', hg, t', ht, e', he, rfl, rfl, rfl, rfl, rfl⟩
    exact ⟨hu, hr, hg, ht, he⟩
  · rintro ⟨hu, hr, hg, ht, he⟩
    exact ⟨u, hu, r, hr, g, hg, t, ht, e, he, rfl, rfl, rfl, rfl, rfl⟩

theorem listenerInfo?_eq_some_iff {data : Document} {info : ListenerInfo} :
    listenerInfo? data = some info ↔
      data.string? "username" = some info.username ∧
      data.strings? "topGenres" = some info.topGenres ∧
      data.string? "email" = some info.email := by
  obtain ⟨u, g, e⟩ := info
  simp only [listenerInfo?, Option.bind_eq_bind, Option.bind_eq_some_iff, Option.pure_def,
    Option.some.injEq, ListenerInfo.mk.injEq]
  constructor
  · rintro ⟨u', hu, g', hg, e', he, rfl, rfl, rfl⟩
    exact ⟨hu, hg, he⟩
  · rintro ⟨hu, hg, he⟩
    exact ⟨u, hu, g, hg, e, he, rfl, rfl, rfl⟩

/-! ## The view context -/

structure Context where
  hosts : List Host := []
  listeners : List Listener := []

/-- `NSPersistentContainer`: the view context and what the store has of it. -/
structure Container where
  viewContext : Context := {}
  store : Context := {}

namespace Container

/-- `Host(entity: Host.entity(), insertInto: context)` -/
def insertHost (c : Container) : Container × Nat :=
  ({ c with viewContext.hosts := c.viewContext.hosts ++ [{}] }, c.viewContext.hosts.length)

def insertListener (c : Container) : Container × Nat :=
  ({ c with viewContext.listeners := c.viewContext.listeners ++ [{}] },
    c.viewContext.listeners.length)

def modifyHost (c : Container) (ref : Nat) (f : Host → Host) : Container :=
  { c with viewContext.hosts := c.viewContext.hosts.modify ref f }

def modifyListener (c : Container) (ref : Nat) (f : Listener → Listener) : Container :=
  { c with viewContext.listeners := c.viewContext.listeners.modify ref f }

/-- `AppDelegate.saveContext`. Saving a context without changes leaves the store as it is, and
every attribute is optional, so no object of the context fails validation. -/
def saveContext (c : Container) : Container := { c with store := c.viewContext }

end Container

end WaxxyLive.CoreData
