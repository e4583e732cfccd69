import DirectedPresence.Address

/-!
Stanzas. A stanza is the unit of traffic: a presence, which announces or asks about availability,
or a message. Presences are also the vocabulary of subscriptions and of the error replies.
-/

namespace DirectedPresence

inductive PresenceKind where
  | available
  | unavailable
  | subscribe
  | subscribed
  | unsubscribe
  | unsubscribed
  | error
  | probe
deriving DecidableEq, Repr, Inhabited

inductive ErrorCondition where
  | badRequest
  | notAuthorized
deriving DecidableEq, Repr

/-- The name of a condition on the wire and in notices. -/
def ErrorCondition.name : ErrorCondition → String
  | .badRequest => "bad-request"
  | .notAuthorized => "not-authorized"

structure Presence where
  sender : Option Address := none
  recipient : Option Address := none
  kind : PresenceKind := .available
  status : Option String := none
  error : Option ErrorCondition := none
deriving DecidableEq, Repr, Inhabited

structure Message where
  sender : Option Address
  recipient : Option Address
  body : String
deriving DecidableEq, Repr

inductive Stanza where
  | presence (presence : Presence)
  | message (message : Message)
deriving DecidableEq, Repr

namespace Presence

def available (sender : Address) : Presence :=
  { sender := some sender }

/-- The announcement to `recipient` that `sender` is gone. -/
def unavailable (sender recipient : Address) : Presence :=
  { sender := some sender, recipient := some recipient, kind := .unavailable }

/-- A request by `sender` to start or to end its subscription to `recipient`. -/
def subscription (sender recipient : Address) (start : Bool) : Presence :=
  { sender := some sender, recipient := some recipient,
    kind := if start then .subscribe else .unsubscribe }

def readdressed (p : Presence) (recipient : Address) : Presence :=
  { p with recipient := some recipient }

def toError (p : Presence) (condition : ErrorCondition) : Presence :=
  { p with kind := .error, error := some condition }

end Presence

namespace Stanza

def recipient : Stanza → Option Address
  | .presence p => p.recipient
  | .message m => m.recipient

def isPresence : Stanza → Bool
  | .presence _ => true
  | .message _ => false

/-- Whether the stanza is a presence that an entity sent to itself: the reflection of its own
update. -/
def isReflection : Stanza → Bool
  | .presence p => p.recipient.isSome && p.recipient = p.sender
  | .message _ => false

end Stanza

end DirectedPresence
