import DirectedPresence.Failure
import DirectedPresence.Stanza

/-!
Traces: what an operation does besides changing the state of the node. An effect is a call on a
service around the node, with the outcome where it can fail; the effects are listed in the order of
the calls. A notice is a line for the operator.
-/

namespace DirectedPresence

/-- A call on a service around the node. -/
inductive Effect where
  /-- A stanza was handed to the router. -/
  | route (stanza : Stanza) (failure : Option RouteError)
  /-- A presence was sent to the subscribers of a roster owner. -/
  | broadcast (owner : String) (presence : Presence)
  /-- A subscription stanza was handed to the roster. -/
  | subscription (presence : Presence)
  /-- The latest presence of a session was recorded. -/
  | setPresence (session : Address) (presence : Presence)
  /-- The session bound to the first address, whose own address is the second, was marked. -/
  | setInitialized (binding session : Address) (value : Bool)
  /-- A stanza was handed to a session. -/
  | deliver (session : Address) (stanza : Stanza) (failure : Option RouteError)
  /-- The stored messages of a user were taken out. -/
  | takeMessages (user : String)
  /-- The tracker was told that a user became available. -/
  | userAvailable (presence : Presence)
  /-- The tracker was told that a user became unavailable. -/
  | userUnavailable (presence : Presence)
  /-- The tracker was asked for the presence of a contact. -/
  | probe (prober probee : Address)
deriving DecidableEq, Repr

inductive Severity where
  | warning
  | error
deriving DecidableEq, Repr

/-- A line for the operator. -/
inductive Notice where
  | unknownUser (user : String)
  | remoteUpdate (domain : String) (sender : Address)
  | closedSession (session : Address)
  | rosterLookupFailed (sender : Address) (cause : RosterError)
  | rosterLoadFailed (user : String) (cause : RosterError)
  | requestNotDelivered (session contact : Address) (cause : RouteError)
  | messageNotDelivered (session : Address) (cause : RouteError)
  | listenerWithoutValues (listener : String)
  | processingFailed (cause : PresenceError)
  | replyNotDelivered (cause : RouteError) (condition : ErrorCondition)
  | broadcastFailed (sender : Address) (cause : RosterError)
  | removalFailed (sender : Address) (cause : CacheError)
  | retractionNotRouted (sender receiver : Address) (cause : RouteError)
  | dropFailed (sender contact : Address) (cause : PresenceError)
  | readFailed (owner : Address) (cause : CacheError)
  | restoreFailed (sender : Address) (cause : CacheError)
  | joinReadFailed (cause : CacheError)
  | sweepFailed (sender : Address) (cause : CacheError)
  | departureNotRouted (node : NodeId) (sender receiver : Address) (cause : RouteError)
  | listenerFailed (cache : String) (cause : ListenerError)
deriving DecidableEq, Repr

namespace Notice

def severity : Notice → Severity
  | unknownUser .. | remoteUpdate .. | closedSession .. | rosterLookupFailed ..
  | rosterLoadFailed .. | requestNotDelivered .. | messageNotDelivered ..
  | listenerWithoutValues .. => .warning
  | _ => .error

def message : Notice → String
  | unknownUser .. => "Presence being sent from unknown user"
  | remoteUpdate .. => "Presence update from unknown remote user"
  | closedSession .. => "Rejected available presence from closed session"
  | rosterLookupFailed .. => "Roster lookup failed; not tracking"
  | rosterLoadFailed .. => "Failed to load roster for new session"
  | requestNotDelivered .. => "Failed to deliver pending subscription request"
  | messageNotDelivered .. => "Failed to deliver offline message"
  | listenerWithoutValues .. =>
    "Registering directed presence listener without values; it will fail on first event"
  | processingFailed .. => "Failed to process presence"
  | replyNotDelivered .. => "Failed to deliver error response"
  | broadcastFailed .. => "Failed to broadcast presence"
  | removalFailed .. => "Failed to remove directed presences"
  | retractionNotRouted .. => "Failed to route unavailable presence"
  | dropFailed .. => "Failed to drop directed presence"
  | readFailed .. => "Failed to read directed presences"
  | restoreFailed .. => "Failed to restore directed presences"
  | joinReadFailed .. => "Failed to read cluster cache while joining"
  | sweepFailed .. => "Failed to remove expired directed presences from cache"
  | departureNotRouted .. => "Failed to route unavailable presence for departed node"
  | listenerFailed .. => "Cache listener failed; deregistering it"

def particulars : Notice → List (String × String)
  | unknownUser user => [("user", user)]
  | remoteUpdate domain sender => [("domain", domain), ("sender", sender.render)]
  | closedSession session => [("session", session.render)]
  | rosterLookupFailed sender cause => [("sender", sender.render), ("error", cause.message)]
  | rosterLoadFailed user cause => [("user", user), ("error", cause.message)]
  | requestNotDelivered session contact cause =>
    [("session", session.render), ("contact", contact.render), ("error", cause.message)]
  | messageNotDelivered session cause => [("session", session.render), ("error", cause.message)]
  | listenerWithoutValues listener => [("listener", listener)]
  | processingFailed cause => [("error", cause.message)]
  | replyNotDelivered cause condition =>
    [("error", cause.message), ("condition", condition.name)]
  | broadcastFailed sender cause => [("sender", sender.render), ("error", cause.message)]
  | removalFailed sender cause => [("sender", sender.render), ("error", cause.message)]
  | retractionNotRouted sender receiver cause =>
    [("sender", sender.render), ("receiver", receiver.render), ("error", cause.message)]
  | dropFailed sender contact cause =>
    [("sender", sender.render), ("contact", contact.render), ("error", cause.message)]
  | readFailed owner cause => [("owner", owner.render), ("error", cause.message)]
  | restoreFailed sender cause => [("sender", sender.render), ("error", cause.message)]
  | joinReadFailed cause => [("error", cause.message)]
  | sweepFailed sender cause => [("sender", sender.render), ("error", cause.message)]
  | departureNotRouted node sender receiver cause =>
    [("node", node.name), ("sender", sender.render), ("receiver", receiver.render),
      ("error", cause.message)]
  | listenerFailed cache cause => [("cache", cache), ("error", cause.message)]

end Notice

/-- The effects and the notices of an operation. -/
structure Trace where
  effects : List Effect := []
  notices : List Notice := []
deriving DecidableEq

namespace Trace

def empty : Trace := {}

def append (a b : Trace) : Trace :=
  ⟨a.effects ++ b.effects, a.notices ++ b.notices⟩

instance : Append Trace := ⟨append⟩

def effect (e : Effect) : Trace := ⟨[e], []⟩

def notice (n : Notice) : Trace := ⟨[], [n]⟩

/-- The traces of several operations, one after another. -/
def concat (traces : List Trace) : Trace :=
  ⟨traces.flatMap (·.effects), traces.flatMap (·.notices)⟩

@[simp] theorem effects_append (a b : Trace) : (a ++ b).effects = a.effects ++ b.effects := rfl

@[simp] theorem notices_append (a b : Trace) : (a ++ b).notices = a.notices ++ b.notices := rfl

@[simp] theorem effects_empty : empty.effects = [] := rfl

@[simp] theorem effects_effect (e : Effect) : (effect e).effects = [e] := rfl

@[simp] theorem effects_notice (n : Notice) : (notice n).effects = [] := rfl

theorem append_assoc (a b c : Trace) : a ++ b ++ c = a ++ (b ++ c) := by
  show append (append a b) c = append a (append b c)
  simp [append, List.append_assoc]

end Trace

end DirectedPresence
