import DirectedPresence.Node.Caching

/-!
Membership of a node in the cluster. A node that joins exchanges its cache for a view of the hub,
and one that leaves exchanges the view for an empty cache of its own; either way the cache is
refilled from the store. A joining node records in its reverse index what the other members have
cached before, and from then on listens to the hub. When a node departs, the others retract the
presence of its senders; a node that leaves does so for all others, as it will not hear of them
again.
-/

namespace DirectedPresence

inductive MembershipEvent where
  | localJoined
  | localLeft
  | remoteJoined (peer : NodeId)
  | remoteLeft (peer : NodeId)
deriving DecidableEq, Repr

/-- The index after recording the receivers of cached registries under the nodes that recorded
them. Registries of `self` are passed over. -/
def ReverseIndex.seed (isLocal : Address → Bool) (self : NodeId) :
    List (Address × Registry) → ReverseIndex → ReverseIndex
  | [], index => index
  | (sender, registry) :: rest, index =>
    seed isLocal self rest <|
      match registry.origin? with
      | none => index
      | some origin =>
        if origin = self then index
        else index.upsert origin sender (registry.receiversWhere isLocal)

namespace Seat

/-- Puts the given registries into the cache. A failure is noted and does not hold up the rest. The
registries are those of a store, and none of these is empty: `Store.insert` is the only way into a
store, for `Store.modify` too, and takes an empty registry for a removal. So there is no case in
which a registry is left out for being empty. -/
def restore [Enumerates] (env : Environment) : List (Address × Registry) → Seat → Outcome Unit
  | [], seat => { answer := (), seat }
  | (sender, registry) :: rest, seat =>
    (seat.put env sender registry).andThen fun answer seat =>
      let trace := match answer with
        | .ok _ => .empty
        | .error cause => .notice (.restoreFailed sender cause)
      (restore env rest seat).after trace

/-- Records what is in the cache in the reverse index of the node. -/
def seedIndex [Enumerates] (env : Environment) (seat : Seat) : Outcome Unit :=
  match seat.entries with
  | .error cause => { answer := (), seat, trace := .notice (.joinReadFailed cause) }
  | .ok entries =>
    let index := ReverseIndex.seed (seat.services env).routes.isLocal seat.node.id entries
      (seat.fabric.index seat.node.id)
    { answer := (), seat := { seat with fabric := seat.fabric.setIndex seat.node.id index } }

def listen (seat : Seat) (view : View) : Outcome Unit :=
  let settings := seat.node.settings
  let feed : Feed := ⟨settings.listenerName, seat.node.id⟩
  let hub := seat.fabric.hub.addListener view feed settings.includeValues
  { answer := ()
    seat := { seat with fabric := { seat.fabric with hub } }
    trace := if settings.includeValues then .empty
      else .notice (.listenerWithoutValues settings.listenerName) }

def join [Enumerates] (env : Environment) (seat : Seat) : Outcome Unit :=
  let (hub, view) := seat.fabric.hub.join seat.node.id
  let cache : NodeCache := ⟨.clustered view, (seat.services env).viewFaults⟩
  let joined := ({ seat with fabric := { seat.fabric with hub } }.setPhase .joining).setCache cache
  let refilled := (restore env seat.node.store.toList joined).andThen fun _ seat =>
    (seat.seedIndex env).andThen fun _ seat => seat.listen view
  { refilled with seat := refilled.seat.setPhase .clustered }

/-- The node leaves the cluster. During shutdown nothing is put in order any more. -/
def leave [Enumerates] (env : Environment) (seat : Seat) : Outcome Unit :=
  let hub := seat.fabric.hub.leave seat.node.id
  let detached := { seat with fabric := { seat.fabric with hub } }
  if seat.node.server.shuttingDown then { answer := (), seat := detached.setPhase .standalone }
  else
    let alone := (detached.setPhase .leaving).setCache
      (Node.freshCache seat.node.server seat.node.settings)
    (restore env seat.node.store.toList alone).andThen fun _ seat =>
      let index := seat.fabric.index seat.node.id
      let nodes := Orders.inForce.nodes index.nodeIds
      let (index, trace) := index.nodesDown (seat.services env).router nodes
      { answer := ()
        seat := { seat with fabric := seat.fabric.setIndex seat.node.id index }.setPhase .standalone
        trace }

def peerLeft [Enumerates] (env : Environment) (seat : Seat) (peer : NodeId) : Outcome Unit :=
  let (index, trace) :=
    (seat.fabric.index seat.node.id).nodeDown (seat.services env).router peer
  { answer := ()
    seat := { seat with fabric := seat.fabric.setIndex seat.node.id index }
    trace }

def handle [Enumerates] (env : Environment) (seat : Seat) : MembershipEvent → Outcome Unit
  | .localJoined => seat.join env
  | .localLeft => seat.leave env
  | .remoteJoined _ => { answer := (), seat }
  | .remoteLeft peer => seat.peerLeft env peer

end Seat

end DirectedPresence
