import DirectedPresence.Address.Parser

/-!
Failures, by cause. The services around a node, the caches and the cache listeners fail in a few
ways each; an operation of the node fails with one of these wrapped. `message` gives the wording
and `cause?` the wording of the wrapped failure.
-/

namespace DirectedPresence

inductive RouteError where
  | noRoute (recipient : Address)
  | missingRecipient
  | deliveryFailed (reason : String)
deriving DecidableEq, Repr

inductive RosterError where
  | userNotFound (user : String)
  | unavailable (reason : String)
deriving DecidableEq, Repr

inductive CacheError where
  | encode (reason : String)
  | decode (reason : String)
deriving DecidableEq, Repr

/-- Why a cache listener refused an event. -/
inductive ListenerError where
  | missingValue (key : Address) (node : NodeId)
deriving DecidableEq, Repr

inductive PresenceError where
  | notAuthorized (session : Address)
  | unknownUser (user : String)
  | route (cause : RouteError)
  | roster (cause : RosterError)
  | cache (cause : CacheError)
deriving DecidableEq, Repr

def RouteError.message : RouteError → String
  | .noRoute recipient => "no route to " ++ recipient.render
  | .missingRecipient => "stanza has no recipient"
  | .deliveryFailed reason => "delivery failed: " ++ reason

def RosterError.message : RosterError → String
  | .userNotFound user => "user not found: " ++ user
  | .unavailable reason => "roster unavailable: " ++ reason

def CacheError.message : CacheError → String
  | .encode reason => "encoding error: " ++ reason
  | .decode reason => "decoding error: " ++ reason

def ListenerError.message : ListenerError → String
  | .missingValue key node =>
    "event for " ++ key.render ++ " from " ++ node.name ++ " carried no value; this listener " ++
      "requires values and cannot function when they are suppressed"

namespace PresenceError

/-- The wording of the failure that this one wraps. -/
def cause? : PresenceError → Option String
  | .notAuthorized _ | .unknownUser _ => none
  | .route cause => some cause.message
  | .roster cause => some cause.message
  | .cache cause => some cause.message

def message : PresenceError → String
  | .notAuthorized session => "session not authorized: " ++ session.render
  | .unknownUser user => "unknown user: " ++ user
  | .route cause => "route failed: " ++ cause.message
  | .roster cause => "roster failed: " ++ cause.message
  | .cache cause => "cache failed: " ++ cause.message

end PresenceError

end DirectedPresence
