import DirectedPresence.Cache.Listeners
import DirectedPresence.Cache.Locks

/-!
The cache of a node that is in no cluster. It holds registries as they are and tells its own
listeners of every change, in the name of its node.
-/

namespace DirectedPresence

/-- A cache that no other node sees. -/
structure LocalCache (L : Type) where
  name : String
  node : NodeId
  data : AddressMap Registry := ∅
  listeners : Listeners L := {}
  locks : Locks := {}
deriving DecidableEq

namespace LocalCache

variable {L σ : Type}

def get? (c : LocalCache L) (key : Address) : Option Registry :=
  c.data[key]?

def entries (c : LocalCache L) : List (Address × Registry) :=
  c.data.toList

def tell (react : Reaction L σ) (c : LocalCache L) (event : CacheEvent) (world : σ) :
    LocalCache L × σ × List (Hearing L) :=
  let (listeners, world, hearings) := c.listeners.dispatch react event world
  ({ c with listeners := listeners }, world, hearings)

/-- Stores the registry of a sender; the answer is the previous one. -/
def put (react : Reaction L σ) (c : LocalCache L) (key : Address) (value : Registry) (world : σ) :
    Change LocalCache L σ (Option Registry) :=
  let old := c.get? key
  let (c, world, hearings) := { c with data := c.data.insert key value }.tell react
    (.ofWrite key old value c.node) world
  ⟨old, c, world, hearings⟩

def remove (react : Reaction L σ) (c : LocalCache L) (key : Address) (world : σ) :
    Change LocalCache L σ (Option Registry) :=
  match c.get? key with
  | none => ⟨none, c, world, []⟩
  | some old =>
    let (c, world, hearings) := { c with data := c.data.erase key }.tell react
      (.removed key (some old) c.node) world
    ⟨some old, c, world, hearings⟩

def addListener (c : LocalCache L) (listener : L) (includesValues : Bool) : LocalCache L :=
  { c with listeners := c.listeners.add listener includesValues }

variable (react : Reaction L σ)

@[simp] theorem answer_put (c : LocalCache L) (key : Address) (value : Registry) (world : σ) :
    (c.put react key value world).answer = c.get? key := rfl

@[simp] theorem data_put (c : LocalCache L) (key : Address) (value : Registry) (world : σ) :
    (c.put react key value world).cache.data = c.data.insert key value := rfl

@[simp] theorem answer_remove (c : LocalCache L) (key : Address) (world : σ) :
    (c.remove react key world).answer = c.get? key := by
  unfold remove
  split <;> simp [*]

@[simp] theorem data_remove (c : LocalCache L) (key : Address) (world : σ) :
    (c.remove react key world).cache.data = c.data.erase key := by
  unfold remove
  split
  · next h => exact (AddressMap.erase_eq_self h).symm
  · rfl

end LocalCache

end DirectedPresence
