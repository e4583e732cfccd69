import DirectedPresence.Cache.Event
import DirectedPresence.Cache.Holding

/-!
Orders of enumeration. Some of what a cluster keeps is kept without an order: the members of a hub
and what it holds, the senders of a store, the nodes of a reverse index and the senders of each. A
routine that goes through such a collection does so in the orders in force. It infers them
(`Enumerates`), and so do those that call it. Unless other orders are given (`Orders.within`),
everything is gone through as it is listed.
-/

namespace DirectedPresence

/-- A way to enumerate what is kept without an order. -/
structure Shuffle (α : Type) where
  arrange : List α → List α
  perm : ∀ l, (arrange l).Perm l

namespace Shuffle

variable {α : Type}

instance : CoeFun (Shuffle α) fun _ => List α → List α := ⟨arrange⟩

@[reducible] def listing : Shuffle α := ⟨fun l => l, List.Perm.refl⟩

def backwards : Shuffle α := ⟨List.reverse, List.reverse_perm⟩

@[simp] theorem arrange_listing (l : List α) : listing.arrange l = l := rfl

end Shuffle

/-- The order in which the members of a hub are told an event, for every event. -/
abbrev Telling := CacheEvent → Shuffle NodeId

/-- The orders in which an operation enumerates what is kept without an order. -/
structure Orders where
  /-- The members that are told an event. What one operation tells are different events, so each may
  be told in an order of its own. -/
  telling : Telling := fun _ => .listing
  /-- What the hub holds. -/
  entries : Shuffle (Address × Holding) := .listing
  /-- The senders of a store. -/
  senders : Shuffle Address := .listing
  /-- The nodes of a reverse index. -/
  nodes : Shuffle NodeId := .listing
  /-- The senders that an index has of a node. -/
  indexed : NodeId → Shuffle (Address × AddressSet) := fun _ => .listing

/-- The orders in force. -/
class Enumerates where
  orders : Orders

instance (priority := low) asListed : Enumerates := ⟨{}⟩

namespace Orders

abbrev inForce [Enumerates] : Orders := Enumerates.orders

@[simp] theorem inForce_asListed : @inForce asListed = {} := rfl

/-- What a routine comes to in the given orders. -/
abbrev within {α : Type} (orders : Orders) (routine : [Enumerates] → α) : α := @routine ⟨orders⟩

end Orders

end DirectedPresence
