import DirectedPresence.Node.Dispatch
import DirectedPresence.Node.Membership
import DirectedPresence.Node.Sweep

/-!
Clusters: the nodes, and the fabric that they share. Whatever happens in a cluster happens at one of
its nodes, as one of the operations listed here; `Cluster.perform` gives the transition that it
makes.
-/

namespace DirectedPresence

/-- What can happen at a node. -/
inductive Operation where
  /-- A local entity sent a presence. -/
  | process (presence : Presence)
  /-- A handler relays a presence to the entity that it is addressed to. -/
  | processDirected (presence : Presence) (handler : Address)
  /-- A handler has delivered a presence. -/
  | directedSent (presence : Presence) (handler receiver : Address)
  | hasDirected (owner recipient : Address)
  | removeDirected (owner recipient : Address)
  | sweep
  | membership (event : MembershipEvent)
  /-- The server starts to shut down. -/
  | shutdown
  | storeInsert (sender : Address) (registry : Registry)
  | storeRemove (sender : Address)
  | cachePut (key : Address) (value : Registry)
  | cacheRemove (key : Address)
  | hubLeave (peer : NodeId)
  | hubEvict (key : Address)
  | hubEvictNode (peer : NodeId)
  | hubClear (peer : NodeId)
  /-- From now on these operations of the node's current cache fail. -/
  | failCache (faults : Faults)
deriving DecidableEq

inductive Answer where
  | done
  | flag (value : Bool)
  | count (value : Nat)
  | registry (value : Option Registry)
  | failed (cause : PresenceError)
  | cacheFailed (cause : CacheError)
deriving DecidableEq

namespace Answer

def ofPresence {α : Type} (ok : α → Answer) : Except PresenceError α → Answer
  | .ok a => ok a
  | .error cause => .failed cause

def ofCache : Except CacheError (Option Registry) → Answer
  | .ok value => .registry value
  | .error cause => .cacheFailed cause

end Answer

namespace Seat

def perform [Enumerates] (env : Environment) (seat : Seat) : Operation → Outcome Answer
  | .process p => (seat.process env p).map fun _ => .done
  | .processDirected p handler =>
    (seat.processDirected env p handler).map (.ofPresence fun _ => .done)
  | .directedSent p handler receiver =>
    (seat.directedSent env p handler receiver).map (.ofPresence fun _ => .done)
  | .hasDirected owner recipient => (seat.hasDirected owner recipient).map .flag
  | .removeDirected owner recipient =>
    (seat.removeDirected env owner recipient).map (.ofPresence .count)
  | .sweep => (seat.sweep env).map .count
  | .membership event => (seat.handle env event).map fun _ => .done
  | .shutdown =>
    { answer := .done
      seat := { seat with node :=
        { seat.node with server := { seat.node.server with shuttingDown := true } } } }
  | .storeInsert sender registry =>
    { answer := .registry (seat.node.store.get? sender)
      seat := seat.setStore (seat.node.store.insert sender registry) }
  | .storeRemove sender =>
    { answer := .registry (seat.node.store.get? sender)
      seat := seat.setStore (seat.node.store.remove sender) }
  | .cachePut key value => (seat.put env key value).map .ofCache
  | .cacheRemove key => (seat.remove env key).map .ofCache
  | .hubLeave peer =>
    { answer := .done
      seat := { seat with fabric := { seat.fabric with hub := seat.fabric.hub.leave peer } } }
  | .hubEvict key =>
    (seat.afterHub (seat.fabric.hub.evict (Feed.react env) key seat.fabric.indexes)).map .ofCache
  | .hubEvictNode peer =>
    (seat.afterHub (seat.fabric.hub.evictNode (Feed.react env) peer seat.fabric.indexes)).map
      fun _ => .done
  | .hubClear peer =>
    (seat.afterHub (seat.fabric.hub.clear (Feed.react env) peer seat.fabric.indexes)).map
      fun _ => .done
  | .failCache faults =>
    { answer := .done
      seat := seat.setCache
        { seat.node.cache with faults := seat.node.cache.faults.union faults } }

end Seat

structure Cluster where
  fabric : Fabric
  nodes : NodeMap Node := ∅
deriving DecidableEq

/-- What comes of an operation in a cluster: its answer, the cluster after it, the trace of the node
that acted, and what the feeds of the nodes heard. -/
structure Transition where
  answer : Answer
  cluster : Cluster
  trace : Trace := {}
  hearings : List (Hearing Feed) := []

namespace Cluster

/-- The cluster of these nodes, none of which has joined yet. -/
def ofNodes (hubName : String) (nodes : List Node) : Cluster where
  fabric := { hub := { name := hubName } }
  nodes := .ofList (nodes.map fun node => (node.id, node)) compare

def seat? (c : Cluster) (id : NodeId) : Option Seat :=
  c.nodes[id]?.map fun node => ⟨c.fabric, node⟩

def setSeat (c : Cluster) (id : NodeId) (seat : Seat) : Cluster :=
  ⟨seat.fabric, c.nodes.insert id seat.node⟩

/-- Performs an operation at a node. Where there is no such node nothing happens. -/
def perform [Enumerates] (env : Environment) (c : Cluster) (id : NodeId) (operation : Operation) :
    Transition :=
  match c.seat? id with
  | none => { answer := .done, cluster := c }
  | some seat =>
    let outcome := seat.perform env operation
    { answer := outcome.answer
      cluster := c.setSeat id outcome.seat
      trace := outcome.trace
      hearings := outcome.hearings }

end Cluster

end DirectedPresence
