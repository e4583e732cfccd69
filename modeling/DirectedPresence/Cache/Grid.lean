import DirectedPresence.Cache.Hub
import DirectedPresence.Cache.Local

/-!
Caches by reference. A grid holds hubs and local caches, each with a number, and a `CacheRef` names
one of the local caches or a view of one of the hubs. Whoever holds a reference uses the cache
without knowing which kind it is.
-/

namespace DirectedPresence

/-- The hubs and the local caches, by number. -/
structure Grid (L : Type) where
  hubs : List (Hub L) := []
  locals : List (LocalCache L) := []
deriving DecidableEq

/-- A local cache, or a view of a hub. -/
inductive CacheRef where
  | standalone (cache : Nat)
  | clustered (hub : Nat) (view : View)
deriving DecidableEq, Repr

def CacheRef.isClustered : CacheRef → Bool
  | .standalone _ => false
  | .clustered .. => true

/-- A handle on a lock of a cache, and whether the lock is held through it. -/
structure Holder where
  cache : CacheRef
  lock : KeyLock
  holds : Bool
deriving DecidableEq, Repr

namespace Grid

variable {L σ : Type}

def addHub (g : Grid L) (name : String) : Grid L × Nat :=
  ({ g with hubs := g.hubs ++ [{ name }] }, g.hubs.length)

def addLocal (g : Grid L) (name : String) (node : NodeId) : Grid L × CacheRef :=
  ({ g with locals := g.locals ++ [{ name, node }] }, .standalone g.locals.length)

def join (g : Grid L) (hub : Nat) (node : NodeId) : Option (Grid L × CacheRef) :=
  g.hubs[hub]?.map fun h =>
    let (h, view) := h.join node
    ({ g with hubs := g.hubs.set hub h }, .clustered hub view)

def onHub {α : Type} (g : Grid L) (hub : Nat) (change : Hub L → Change Hub L σ α) :
    Option (Change Grid L σ α) :=
  g.hubs[hub]?.map fun h =>
    let change := change h
    ⟨change.answer, { g with hubs := g.hubs.set hub change.cache }, change.world, change.hearings⟩

def onLocal {α : Type} (g : Grid L) (cache : Nat)
    (change : LocalCache L → Change LocalCache L σ α) : Option (Change Grid L σ α) :=
  g.locals[cache]?.map fun c =>
    let change := change c
    ⟨change.answer, { g with locals := g.locals.set cache change.cache }, change.world,
      change.hearings⟩

def name? (g : Grid L) : CacheRef → Option String
  | .standalone cache => g.locals[cache]?.map (·.name)
  | .clustered hub _ => g.hubs[hub]?.map (·.name)

/-- The node in whose name a cache is written. -/
def node? (g : Grid L) : CacheRef → Option NodeId
  | .standalone cache => g.locals[cache]?.map (·.node)
  | .clustered _ view => some view.node

def get? (g : Grid L) (ref : CacheRef) (key : Address) :
    Option (Except CacheError (Option Registry)) :=
  match ref with
  | .standalone cache => g.locals[cache]?.map fun c => .ok (c.get? key)
  | .clustered hub _ => g.hubs[hub]?.map (·.get key)

def entries? (g : Grid L) (ref : CacheRef) :
    Option (Except CacheError (List (Address × Registry))) :=
  match ref with
  | .standalone cache => g.locals[cache]?.map fun c => .ok c.entries
  | .clustered hub _ => g.hubs[hub]?.map (·.entries)

def put? (react : Reaction L σ) (g : Grid L) (ref : CacheRef) (key : Address) (value : Registry)
    (world : σ) : Option (Change Grid L σ (Except CacheError (Option Registry))) :=
  match ref with
  | .standalone cache => g.onLocal cache fun c =>
    let change := c.put react key value world
    ⟨.ok change.answer, change.cache, change.world, change.hearings⟩
  | .clustered hub view => g.onHub hub fun h => h.put react view.node key value world

def remove? (react : Reaction L σ) (g : Grid L) (ref : CacheRef) (key : Address) (world : σ) :
    Option (Change Grid L σ (Except CacheError (Option Registry))) :=
  match ref with
  | .standalone cache => g.onLocal cache fun c =>
    let change := c.remove react key world
    ⟨.ok change.answer, change.cache, change.world, change.hearings⟩
  | .clustered hub view => g.onHub hub fun h => h.remove react view.node key world

def addListener (g : Grid L) (ref : CacheRef) (listener : L) (includesValues : Bool) : Grid L :=
  match ref with
  | .standalone cache =>
    { g with locals := g.locals.modify cache (·.addListener listener includesValues) }
  | .clustered hub view =>
    { g with hubs := g.hubs.modify hub (·.addListener view listener includesValues) }

/-- The lock table of a cache. All views of a hub share one. -/
def locks? (g : Grid L) : CacheRef → Option Locks
  | .standalone cache => g.locals[cache]?.map (·.locks)
  | .clustered hub _ => g.hubs[hub]?.map (·.locks)

def setLocks (g : Grid L) (ref : CacheRef) (locks : Locks) : Grid L :=
  match ref with
  | .standalone cache => { g with locals := g.locals.modify cache fun c => { c with locks } }
  | .clustered hub _ => { g with hubs := g.hubs.modify hub fun h => { h with locks } }

/-- The lock table that a holder's handle belongs to. -/
def locksOf (g : Grid L) (holder : Holder) : Locks :=
  (g.locks? holder.cache).getD {}

/-- Makes a handle on the lock of a key. -/
def lockFor? (g : Grid L) (ref : CacheRef) (key : Address) : Option (Grid L × Holder) :=
  (g.locks? ref).map fun locks =>
    let (locks, lock) := locks.lockFor key
    (g.setLocks ref locks, ⟨ref, lock, false⟩)

/-- Takes the lock if it is free, and tells whether it was. -/
def take (g : Grid L) (holder : Holder) : Grid L × Holder × Bool :=
  let (locks, taken) := (g.locksOf holder).tryTake holder.lock
  (g.setLocks holder.cache locks, { holder with holds := holder.holds || taken }, taken)

def release (g : Grid L) (holder : Holder) : Grid L × Holder :=
  if holder.holds then
    (g.setLocks holder.cache ((g.locksOf holder).release holder.lock),
      { holder with holds := false })
  else (g, holder)

/-- Drops a handle; a lock that is held through it is given back first. -/
def drop (g : Grid L) (holder : Holder) : Grid L :=
  let (g, holder) := g.release holder
  g.setLocks holder.cache ((g.locksOf holder).drop holder.lock)

end Grid

end DirectedPresence
