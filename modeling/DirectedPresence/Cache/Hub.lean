import DirectedPresence.Cache.Listeners
import DirectedPresence.Cache.Locks
import DirectedPresence.Cache.Orders

/-!
The cache that the members of a cluster share. The hub holds every registry in its binary form,
together with the node that wrote it last: the owner. A node joins to get a view of the hub; through
a view it reads and writes all entries. A change is told to the listeners of every member but the
one that caused it. When a node leaves, its entries go without an event.

Joining again replaces the listeners of a node by none. A view from an earlier join still reads and
writes the hub, but a listener that is registered through it hears nothing, so views carry the
number of their join.

Listeners cannot touch the entries: the data after an operation is that of the write alone
(`data_put`, `data_remove`, `data_evict`, `data_evictNode`, `data_clear`).
-/

namespace DirectedPresence

/-- A member of the cluster: the number of its join and its listeners. -/
structure Member (L : Type) where
  ticket : Nat
  listeners : Listeners L := {}
deriving DecidableEq

/-- What a node holds after a join. -/
structure View where
  node : NodeId
  ticket : Nat
deriving DecidableEq, Repr

structure Hub (L : Type) where
  name : String
  data : AddressMap Holding := ∅
  members : NodeMap (Member L) := ∅
  joins : Nat := 0
  locks : Locks := {}
deriving DecidableEq

namespace Hub

variable {L σ : Type}

/-- Lets a node join with no listeners. -/
def join (hub : Hub L) (node : NodeId) : Hub L × View :=
  ({ hub with members := hub.members.insert node ⟨hub.joins, {}⟩, joins := hub.joins + 1 },
    ⟨node, hub.joins⟩)

/-- The data without the entries of one owner. -/
def withoutOwner (data : AddressMap Holding) (owner : NodeId) : AddressMap Holding :=
  data.filter fun _ holding => holding.owner ≠ owner

/-- Lets a node leave. Its entries are lost and nobody is told. -/
def leave (hub : Hub L) (node : NodeId) : Hub L :=
  { hub with members := hub.members.erase node, data := withoutOwner hub.data node }

def memberIds (hub : Hub L) : List NodeId :=
  hub.members.keys

def size (hub : Hub L) : Nat :=
  hub.data.size

/-- Tells an event to the listeners of the given members, one member after another. -/
def tell (react : Reaction L σ) (event : CacheEvent) :
    List NodeId → Hub L → σ → Hub L × σ × List (Hearing L)
  | [], hub, world => (hub, world, [])
  | node :: nodes, hub, world =>
    match hub.members[node]? with
    | none => tell react event nodes hub world
    | some member =>
      let (listeners, world, hearings) := member.listeners.dispatch react event world
      let hub := { hub with members := hub.members.insert node { member with listeners } }
      let (hub, world, more) := tell react event nodes hub world
      (hub, world, hearings ++ more)

/-- Tells an event to the listeners of every member but `origin`. -/
def broadcast [Enumerates] (react : Reaction L σ) (hub : Hub L) (origin : NodeId)
    (event : CacheEvent) (world : σ) : Hub L × σ × List (Hearing L) :=
  tell react event ((Orders.inForce.telling event hub.memberIds).filter (· ≠ origin)) hub world

def get (hub : Hub L) (key : Address) : Except CacheError (Option Registry) :=
  match hub.data[key]? with
  | none => .ok none
  | some holding => holding.registry.map some

/-- The registries of the given holdings, or the first failure among them. -/
def readAll : List (Address × Holding) → Except CacheError (List (Address × Registry))
  | [] => .ok []
  | (key, holding) :: rest =>
    match holding.registry with
    | .error e => .error e
    | .ok registry =>
      match readAll rest with
      | .error e => .error e
      | .ok entries => .ok ((key, registry) :: entries)

def entries [Enumerates] (hub : Hub L) : Except CacheError (List (Address × Registry)) :=
  readAll (Orders.inForce.entries hub.data.toList)

/-- Stores the registry of a sender in the name of `node`; the answer is the previous one. -/
def put [Enumerates] (react : Reaction L σ) (hub : Hub L) (node : NodeId) (key : Address)
    (value : Registry) (world : σ) : Change Hub L σ (Except CacheError (Option Registry)) :=
  let stored := { hub with data := hub.data.insert key ⟨Wire.encode value, node⟩ }
  match hub.get key with
  | .error e => ⟨.error e, stored, world, []⟩
  | .ok old =>
    let (hub, world, hearings) := stored.broadcast react node (.ofWrite key old value node) world
    ⟨.ok old, hub, world, hearings⟩

/-- Takes the entry of a sender out and tells `event` of the lost registry and its owner to every
member but `origin`. -/
def takeOut [Enumerates] (react : Reaction L σ) (hub : Hub L) (key : Address)
    (origin : Holding → NodeId) (event : Registry → NodeId → CacheEvent) (world : σ) :
    Change Hub L σ (Except CacheError (Option Registry)) :=
  match hub.data[key]? with
  | none => ⟨.ok none, hub, world, []⟩
  | some holding =>
    let taken := { hub with data := hub.data.erase key }
    match holding.registry with
    | .error e => ⟨.error e, taken, world, []⟩
    | .ok old =>
      let (hub, world, hearings) :=
        taken.broadcast react (origin holding) (event old (origin holding)) world
      ⟨.ok (some old), hub, world, hearings⟩

def remove [Enumerates] (react : Reaction L σ) (hub : Hub L) (node : NodeId) (key : Address)
    (world : σ) : Change Hub L σ (Except CacheError (Option Registry)) :=
  hub.takeOut react key (fun _ => node) (fun old node => .removed key (some old) node) world

/-- Evicts the registry of a sender in the name of its owner; the answer is the evicted one. -/
def evict [Enumerates] (react : Reaction L σ) (hub : Hub L) (key : Address) (world : σ) :
    Change Hub L σ (Except CacheError (Option Registry)) :=
  hub.takeOut react key Holding.owner (fun old owner => .evicted key (some old) owner) world

/-- Evicts all entries of an owner with one event. -/
def evictNode [Enumerates] (react : Reaction L σ) (hub : Hub L) (node : NodeId) (world : σ) :
    Change Hub L σ Unit :=
  let (hub, world, hearings) := { hub with data := withoutOwner hub.data node }.broadcast react node
    (.mapEvicted node) world
  ⟨(), hub, world, hearings⟩

/-- Removes all entries in the name of `node` with one event. -/
def clear [Enumerates] (react : Reaction L σ) (hub : Hub L) (node : NodeId) (world : σ) :
    Change Hub L σ Unit :=
  let (hub, world, hearings) := { hub with data := ∅ }.broadcast react node (.mapCleared node) world
  ⟨(), hub, world, hearings⟩

def addListener (hub : Hub L) (view : View) (listener : L) (includesValues : Bool) : Hub L :=
  match hub.members[view.node]? with
  | none => hub
  | some member =>
    if member.ticket = view.ticket then
      let listeners := member.listeners.add listener includesValues
      { hub with members := hub.members.insert view.node { member with listeners } }
    else hub

variable (react : Reaction L σ)

@[simp] theorem data_tell (event : CacheEvent) (nodes : List NodeId) (hub : Hub L) (world : σ) :
    (tell react event nodes hub world).1.data = hub.data := by
  induction nodes generalizing hub world with
  | nil => rfl
  | cons node nodes ih =>
    unfold tell
    split <;> simp [ih]

section

variable [Enumerates]

@[simp] theorem data_broadcast (hub : Hub L) (origin : NodeId) (event : CacheEvent) (world : σ) :
    (hub.broadcast react origin event world).1.data = hub.data :=
  data_tell react event _ hub world

@[simp] theorem data_put (hub : Hub L) (node : NodeId) (key : Address) (value : Registry)
    (world : σ) :
    (hub.put react node key value world).cache.data =
      hub.data.insert key ⟨Wire.encode value, node⟩ := by
  unfold put
  split <;> simp

@[simp] theorem data_takeOut (hub : Hub L) (key : Address) (origin : Holding → NodeId)
    (event : Registry → NodeId → CacheEvent) (world : σ) :
    (hub.takeOut react key origin event world).cache.data = hub.data.erase key := by
  unfold takeOut
  split
  · next h => exact (AddressMap.erase_eq_self h).symm
  · split <;> simp

@[simp] theorem data_remove (hub : Hub L) (node : NodeId) (key : Address) (world : σ) :
    (hub.remove react node key world).cache.data = hub.data.erase key :=
  data_takeOut react hub key _ _ world

@[simp] theorem data_evict (hub : Hub L) (key : Address) (world : σ) :
    (hub.evict react key world).cache.data = hub.data.erase key :=
  data_takeOut react hub key _ _ world

@[simp] theorem data_evictNode (hub : Hub L) (node : NodeId) (world : σ) :
    (hub.evictNode react node world).cache.data = withoutOwner hub.data node := by
  simp [evictNode]

@[simp] theorem data_clear (hub : Hub L) (node : NodeId) (world : σ) :
    (hub.clear react node world).cache.data = ∅ := by
  simp [clear]

end

theorem getElem?_withoutOwner (data : AddressMap Holding) (owner : NodeId) (key : Address) :
    (withoutOwner data owner)[key]? = data[key]?.filter (·.owner ≠ owner) := by
  simp [withoutOwner, Std.ExtTreeMap.getElem?_filter]

end Hub

end DirectedPresence
