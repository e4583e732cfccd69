import DirectedPresence.Node.Caching

/-!
Tracking of directed presences. When a local sender's presence was delivered to an entity that does
not get it through the roster, the pair of handler and receiver is recorded in the store and in the
cache, so that the receiver can be told when the sender goes. An unavailable presence to the same
entity forgets the pair.
-/

namespace DirectedPresence

/-- Whether a directed presence from a local sender must be recorded. A sender with a node part is
tracked unless the roster says that the receiver gets the presence anyway, or cannot tell; a sender
without one is tracked if it is anonymous. -/
def Services.keepsTrack (s : Services) (sender receiver : Address) : Bool × Trace :=
  match sender.node with
  | some name =>
    if !s.roster.enabled then (true, .empty)
    else
      match s.roster.isSubscribed name receiver with
      | .ok subscribed => (!subscribed, .empty)
      | .error (.userNotFound user) => (false, .notice (.unknownUser user))
      | .error cause => (false, .notice (.rosterLookupFailed sender cause))
  | none =>
    (match s.session sender with
      | some session => session.isAnonymous
      | none => sender.resource.isSome, .empty)

namespace Seat

def publish [Enumerates] (env : Environment) (seat : Seat) (sender : Address)
    (registry : Registry) : Outcome (Except PresenceError Unit) :=
  ((seat.setStore (seat.node.store.insert sender registry)).put env sender registry).map
    fun answer => match answer with
      | .ok _ => .ok ()
      | .error cause => .error (.cache cause)

/-- Removes the registry of a sender from the cache and, if that succeeds, from the store. -/
def withdraw [Enumerates] (env : Environment) (seat : Seat) (sender : Address) :
    Outcome (Except PresenceError Unit) :=
  (seat.remove env sender).andThen fun answer seat =>
    match answer with
    | .ok _ => { answer := .ok (), seat := seat.setStore (seat.node.store.remove sender) }
    | .error cause => { answer := .error (.cache cause), seat }

/-- Records or forgets a pair for a tracked sender, according to the kind of the presence. -/
def recordPair [Enumerates] (env : Environment) (seat : Seat) (kind : PresenceKind)
    (sender handler receiver : Address) : Outcome (Except PresenceError Unit) :=
  match seat.get sender with
  | .error cause => { answer := .error (.cache cause), seat }
  | .ok existing =>
    if kind = .unavailable then
      match existing with
      | none => { answer := .ok (), seat }
      | some registry =>
        let (left, _) := registry.remove handler receiver
        if left.isEmpty then seat.withdraw env sender else seat.publish env sender left
    else
      let (grown, _) := (existing.getD .empty).add handler seat.node.id receiver
      seat.publish env sender grown

/-- Takes note that `update` was delivered to `receiver` through `handler`. -/
def directedSent [Enumerates] (env : Environment) (seat : Seat) (update : Presence)
    (handler receiver : Address) : Outcome (Except PresenceError Unit) :=
  match update.sender with
  | none => { answer := .ok (), seat }
  | some sender =>
    if !seat.node.server.isLocal sender then { answer := .ok (), seat }
    else
      let (keep, trace) := (seat.services env).keepsTrack sender receiver
      if keep then (seat.recordPair env update.kind sender handler receiver).after trace
      else { answer := .ok (), seat, trace }

/-- Routes a presence that is addressed to an entity behind `handler`, and then takes note of it.
Nothing is noted of a presence that was not routed. -/
def processDirected [Enumerates] (env : Environment) (seat : Seat) (presence : Presence)
    (handler : Address) : Outcome (Except PresenceError Unit) :=
  match presence.recipient with
  | none => { answer := .error (.route .missingRecipient), seat }
  | some receiver =>
    let failure := (seat.services env).router (.presence presence)
    let trace := Trace.effect (.route (.presence presence) failure)
    match failure with
    | some cause => { answer := .error (.route cause), seat, trace }
    | none => (seat.directedSent env presence handler receiver).after trace

def hasDirected (seat : Seat) (owner recipient : Address) : Outcome Bool :=
  match seat.get owner with
  | .ok registry? => { answer := registry?.any (·.hasAccount recipient), seat }
  | .error cause => { answer := false, seat, trace := .notice (.readFailed owner cause) }

/-- Forgets every directed presence from a sender to the account of `recipient`, and counts the
forgotten receivers. -/
def removeDirected [Enumerates] (env : Environment) (seat : Seat) (owner recipient : Address) :
    Outcome (Except PresenceError Nat) :=
  match seat.get owner with
  | .error cause => { answer := .error (.cache cause), seat }
  | .ok none => { answer := .ok 0, seat }
  | .ok (some registry) =>
    let (left, count) := registry.removeAccount recipient
    if count = 0 then { answer := .ok 0, seat }
    else
      (if left.isEmpty then seat.remove env owner else seat.put env owner left).andThen
        fun answer seat =>
          match answer with
          | .error cause => { answer := .error (.cache cause), seat }
          | .ok _ =>
            let (store, _) := seat.node.store.modify owner (·.removeAccount recipient)
            { answer := .ok count, seat := seat.setStore store }

/-- Forgets the directed presences of the given senders to a contact. A failure is noted and does
not hold up the other senders. -/
def dropDirected [Enumerates] (env : Environment) (contact : Address) :
    List Address → Seat → Outcome Unit
  | [], seat => { answer := (), seat }
  | sender :: senders, seat =>
    (seat.removeDirected env sender contact).andThen fun answer seat =>
      let trace := match answer with
        | .ok _ => .empty
        | .error cause => .notice (.dropFailed sender contact cause)
      (dropDirected env contact senders seat).after trace

end Seat

end DirectedPresence
