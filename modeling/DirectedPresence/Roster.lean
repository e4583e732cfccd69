import DirectedPresence.Stanza

/-!
Rosters. The roster of a user lists the contacts with which the user shares presence. A contact
that already receives the user's presence through the roster needs no directed presence.
-/

namespace DirectedPresence

/-- Who of a roster owner and a contact receives the other's presence. -/
inductive SubscriptionState where
  | none
  | to
  | from
  | both
deriving DecidableEq, Repr

def SubscriptionState.contactReceives : SubscriptionState → Bool
  | .from | .both => true
  | .none | .to => false

def SubscriptionState.ownerReceives : SubscriptionState → Bool
  | .to | .both => true
  | .none | .from => false

/-- A subscription request that came in while the owner was offline. -/
inductive PendingRequest where
  /-- The contact asked to subscribe, with this stanza. -/
  | subscribe (request : Presence)
  /-- The contact ended its subscription. -/
  | unsubscribe
deriving DecidableEq, Repr

structure RosterItem where
  contact : Address
  subscription : SubscriptionState
  pending : Option PendingRequest
deriving DecidableEq, Repr

/-- What is shown to the owner for a pending request: the request itself, or the end of the
contact's subscription, addressed to the owner's account. -/
def PendingRequest.announcement (owner contact : Address) : PendingRequest → Presence
  | .subscribe request => request.readdressed owner
  | .unsubscribe => Presence.subscription contact owner false

end DirectedPresence
