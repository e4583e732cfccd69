import DirectedPresence.Roster
import DirectedPresence.Trace

/-!
The services around a node: route lookup, router, roster, sessions, offline store, and the fabric
that hands out views of the clustered cache. A node only sees their answers, so a record of answers
stands for them; what an operation asks them to do is in its trace. The answers may differ from one
operation to the next.
-/

namespace DirectedPresence

structure Routes where
  isLocal : Address → Bool
  isClustered : Address → Bool

def Routes.reaches (r : Routes) (a : Address) : Bool :=
  r.isLocal a || r.isClustered a

/-- The answers of the router: why a stanza is lost, or `none` when it is accepted. -/
abbrev Router := Stanza → Option RouteError

/-- Hands a stanza to the router; a failure is noted. -/
def Router.attempt (router : Router) (stanza : Stanza) (note : RouteError → Notice) : Trace :=
  let failure := router stanza
  ⟨[.route stanza failure], (failure.map note).toList⟩

structure RosterService where
  enabled : Bool
  subscription : String → Address → Except RosterError (Option SubscriptionState)
  broadcast : String → Presence → Except RosterError Unit
  isRegistered : String → Bool
  items : String → Except RosterError (List RosterItem)
  handle : Presence → Except RosterError Unit

/-- Whether a contact already receives the owner's presence through the roster. A contact that is
not on the roster does not. -/
def RosterService.isSubscribed (r : RosterService) (owner : String) (contact : Address) :
    Except RosterError Bool :=
  (r.subscription owner contact).map fun state? => state?.any (·.contactReceives)

structure Session where
  address : Address
  serverDomain : String
  closed : Bool
  authenticated : Bool
  initialized : Bool
  floodsOffline : Bool
  /-- The session's own statement on whether it is anonymous, if it makes one. -/
  declaredAnonymous : Option Bool
  /-- Why a stanza handed to the client is lost, or `none` when it arrives. -/
  deliver : Router

/-- Whether the session is an anonymous login. Without a statement of its own it is one exactly if
its address has a resource but no node part. -/
def Session.isAnonymous (s : Session) : Bool :=
  s.declaredAnonymous.getD (s.address.node.isNone && s.address.resource.isSome)

/-- The operations of a cache that are made to fail. -/
structure Faults where
  get : Bool := false
  put : Bool := false
  remove : Bool := false
  entries : Bool := false
deriving DecidableEq, Repr

namespace Faults

def none : Faults := {}

def union (a b : Faults) : Faults :=
  ⟨a.get || b.get, a.put || b.put, a.remove || b.remove, a.entries || b.entries⟩

end Faults

/-- The answers of all services around one node. -/
structure Services where
  routes : Routes
  router : Router
  roster : RosterService
  session : Address → Option Session
  /-- The messages stored for an offline user. -/
  stored : String → List Message
  /-- The faults of the views that a join hands out. -/
  viewFaults : Faults

def Session.attempt (s : Session) (stanza : Stanza) (note : RouteError → Notice) : Trace :=
  let failure := s.deliver stanza
  ⟨[.deliver s.address stanza failure], (failure.map note).toList⟩

/-- The services around every node. -/
abbrev Environment := NodeId → Services

end DirectedPresence
