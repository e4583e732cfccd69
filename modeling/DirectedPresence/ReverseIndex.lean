import DirectedPresence.Cache.Orders
import DirectedPresence.Services

/-!
The reverse index of a node: for every other node of the cluster, which senders hosted there have
sent directed presence to which receivers served here. When a node departs, its senders cannot
retract their presence themselves, so every node that serves one of the receivers does it for them
from its index.

The index is fed by the events of the clustered cache (`observe`). It holds no node without senders
and no sender without receivers. What a change does to the recorded receivers is said by the
equations `receivers?_upsert`, `receivers?_removeSender` and `receivers?_clearNode`.
-/

namespace DirectedPresence

abbrev SenderMap := AddressMap AddressSet

/-- The senders of every other node. -/
structure ReverseIndex where
  nodes : NodeMap SenderMap := ∅
deriving DecidableEq

namespace ReverseIndex

def senders (index : ReverseIndex) (node : NodeId) : SenderMap :=
  index.nodes[node]?.getD ∅

def receivers? (index : ReverseIndex) (node : NodeId) (sender : Address) : Option AddressSet :=
  (index.senders node)[sender]?

def isEmpty (index : ReverseIndex) : Bool :=
  index.nodes.isEmpty

def nodeIds (index : ReverseIndex) : List NodeId :=
  index.nodes.keys

/-- The index with these senders for a node; without senders the node is dropped. -/
def setSenders (index : ReverseIndex) (node : NodeId) (senders : SenderMap) : ReverseIndex :=
  ⟨if senders.isEmpty then index.nodes.erase node else index.nodes.insert node senders⟩

/-- Records the receivers of a sender in place of those recorded before. Without receivers nothing
changes. -/
def upsert (index : ReverseIndex) (node : NodeId) (sender : Address) (receivers : AddressSet) :
    ReverseIndex :=
  if receivers.isEmpty then index
  else index.setSenders node ((index.senders node).insert sender receivers)

def removeSender (index : ReverseIndex) (node : NodeId) (sender : Address) : ReverseIndex :=
  index.setSenders node ((index.senders node).erase sender)

def clearNode (index : ReverseIndex) (node : NodeId) : ReverseIndex :=
  ⟨index.nodes.erase node⟩

private theorem receivers?_setSenders (index : ReverseIndex) (node peer : NodeId)
    (senders : SenderMap) (sender : Address) :
    (index.setSenders node senders).receivers? peer sender =
      if node = peer then senders[sender]? else index.receivers? peer sender := by
  by_cases h : senders.isEmpty
  · have : senders = ∅ := by simpa using h
    subst this
    by_cases hn : node = peer
      <;> simp [setSenders, receivers?, ReverseIndex.senders, Std.ExtTreeMap.getElem?_erase, hn]
  · by_cases hn : node = peer
      <;> simp [setSenders, h, receivers?, ReverseIndex.senders, Std.ExtTreeMap.getElem?_insert, hn]

theorem receivers?_upsert (index : ReverseIndex) (node peer : NodeId) (sender key : Address)
    (receivers : AddressSet) :
    (index.upsert node sender receivers).receivers? peer key =
      if receivers.isEmpty = false ∧ node = peer ∧ sender = key then some receivers
      else index.receivers? peer key := by
  by_cases h : receivers.isEmpty
  · simp [upsert, h]
  · rw [upsert, if_neg h, receivers?_setSenders, Std.ExtTreeMap.getElem?_insert]
    by_cases hn : node = peer
    · by_cases hs : sender = key <;> simp [h, hn, hs, receivers?]
    · simp [hn]

theorem receivers?_removeSender (index : ReverseIndex) (node peer : NodeId)
    (sender key : Address) :
    (index.removeSender node sender).receivers? peer key =
      if node = peer ∧ sender = key then none else index.receivers? peer key := by
  rw [removeSender, receivers?_setSenders, Std.ExtTreeMap.getElem?_erase]
  by_cases hn : node = peer
  · by_cases hs : sender = key <;> simp [hn, hs, receivers?]
  · simp [hn]

theorem receivers?_clearNode (index : ReverseIndex) (node peer : NodeId) (sender : Address) :
    (index.clearNode node).receivers? peer sender =
      if node = peer then none else index.receivers? peer sender := by
  by_cases hn : node = peer
    <;> simp [clearNode, receivers?, senders, Std.ExtTreeMap.getElem?_erase, hn]

/-- What a listener of the clustered cache makes of an event. `isLocal` tells the handlers that are
served here; only their receivers are recorded. A written registry must come with its value. -/
def observe (isLocal : Address → Bool) (index : ReverseIndex) :
    CacheEvent → Except ListenerError ReverseIndex
  | .added key value node =>
    match value with
    | none => .error (.missingValue key node)
    | some registry => .ok (index.upsert node key (registry.receiversWhere isLocal))
  | .updated key _ new node =>
    match new with
    | none => .error (.missingValue key node)
    | some registry =>
      let receivers := registry.receiversWhere isLocal
      .ok (if receivers.isEmpty then index.removeSender node key
        else index.upsert node key receivers)
  | .removed key old node | .evicted key old node =>
    .ok (if old.isSome then index.removeSender node key else index)
  | .mapEvicted node | .mapCleared node => .ok (index.clearNode node)

/-- The retractions for a departed node: to each receiver of each sender an unavailable presence in
the sender's name. One that is not routed does not hold up the others. -/
def retractions [Enumerates] (router : Router) (node : NodeId) (senders : SenderMap) : Trace :=
  .concat <| (Orders.inForce.indexed node senders.toList).flatMap fun (sender, receivers) =>
    receivers.toList.map fun receiver =>
      router.attempt (.presence (.unavailable sender receiver))
        (.departureNotRouted node sender receiver)

/-- Retracts the presence of all senders of a departed node and forgets the node. -/
def nodeDown [Enumerates] (router : Router) (index : ReverseIndex) (node : NodeId) :
    ReverseIndex × Trace :=
  (index.clearNode node, retractions router node (index.senders node))

def nodesDown [Enumerates] (router : Router) : List NodeId → ReverseIndex → ReverseIndex × Trace
  | [], index => (index, .empty)
  | node :: nodes, index =>
    let (index, trace) := index.nodeDown router node
    let (index, more) := nodesDown router nodes index
    (index, trace ++ more)

end ReverseIndex

/-- The number of stanzas that were routed. -/
def Trace.routedCount (trace : Trace) : Nat :=
  trace.effects.countP fun
    | .route _ failure => failure.isNone
    | _ => false

end DirectedPresence
