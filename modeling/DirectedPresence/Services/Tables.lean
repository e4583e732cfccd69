import DirectedPresence.Services

/-!
Services that answer from tables. Routes are sets of addresses, the roster is a table of
subscriptions and items, sessions and stored messages are kept by address and by user. A fault, put
down for a recipient, a user or a session, makes the service fail in the way that the fault names.
The tables remember what the operations of a node ask of the services (`absorb`).
-/

namespace DirectedPresence

abbrev TextMap (α : Type) := Std.ExtTreeMap String α compare

structure SessionRecord where
  address : Address
  serverDomain : String
  closed : Bool := false
  authenticated : Bool := true
  initialized : Bool := false
  floodsOffline : Bool := true
  declaredAnonymous : Option Bool := none
  fault : Option String := none
deriving DecidableEq, Repr

/-- The tables of the services around one node. -/
structure ServiceTables where
  localRoutes : AddressSet := ∅
  clusterRoutes : AddressSet := ∅
  routeFaults : AddressMap String := ∅
  rosterEnabled : Bool := true
  users : Std.ExtTreeSet String compare := ∅
  subscriptions : TextMap (AddressMap SubscriptionState) := ∅
  items : TextMap (List RosterItem) := ∅
  subscriptionFaults : TextMap String := ∅
  broadcastFaults : TextMap String := ∅
  itemsFaults : TextMap String := ∅
  handleFaults : TextMap String := ∅
  sessions : AddressMap SessionRecord := ∅
  stored : TextMap (List Message) := ∅
  viewFaults : Faults := {}

/-- What becomes of a stanza under a fault. The faults `no_recipient` and `no_route` stand for
failures of their own, any other is the reason of a failed delivery. -/
def routeFailure (recipient : Option Address) (fault : Option String) : Option RouteError :=
  match fault, recipient with
  | none, none => some .missingRecipient
  | none, some _ => none
  | some text, _ =>
    if text = "no_recipient" then some .missingRecipient
    else
      match recipient with
      | some recipient =>
        if text = "no_route" then some (.noRoute recipient) else some (.deliveryFailed text)
      | none => some (.deliveryFailed text)

/-- What the roster answers under a fault: `not_found` means that the owner is unknown. -/
def rosterFailure (owner fault : String) : RosterError :=
  if fault = "not_found" then .userNotFound owner else .unavailable fault

def SessionRecord.session (s : SessionRecord) : Session where
  address := s.address
  serverDomain := s.serverDomain
  closed := s.closed
  authenticated := s.authenticated
  initialized := s.initialized
  floodsOffline := s.floodsOffline
  declaredAnonymous := s.declaredAnonymous
  deliver stanza := routeFailure stanza.recipient s.fault

namespace ServiceTables

def router (t : ServiceTables) : Router := fun stanza =>
  routeFailure stanza.recipient (stanza.recipient.bind (t.routeFaults[·]?))

/-- An answer of the roster, unless a fault is put down for the owner. -/
def guarded {α : Type} (faults : TextMap String) (owner : String) (answer : α) :
    Except RosterError α :=
  match faults[owner]? with
  | some fault => .error (rosterFailure owner fault)
  | none => .ok answer

def services (t : ServiceTables) : Services where
  routes := ⟨t.localRoutes.contains, t.clusterRoutes.contains⟩
  router := t.router
  roster :=
    { enabled := t.rosterEnabled
      subscription := fun owner contact => guarded t.subscriptionFaults owner
        (t.subscriptions[owner]?.bind (·[contact.bare]?))
      broadcast := fun owner _ => guarded t.broadcastFaults owner ()
      isRegistered := t.users.contains
      items := fun owner => guarded t.itemsFaults owner (t.items[owner]?.getD [])
      handle := fun p => guarded t.handleFaults ((p.sender.bind (·.node)).getD "") () }
  session a := t.sessions[a]?.map (·.session)
  stored user := t.stored[user]?.getD []
  viewFaults := t.viewFaults

/-- The tables after an effect: a session stays marked, and messages that were taken are gone. -/
def absorb (t : ServiceTables) : Effect → ServiceTables
  | .setInitialized binding _ value =>
    match t.sessions[binding]? with
    | some session =>
      { t with sessions := t.sessions.insert binding { session with initialized := value } }
    | none => t
  | .takeMessages user => { t with stored := t.stored.erase user }
  | _ => t

def setSubscription (t : ServiceTables) (owner : String) (contact : Address)
    (state : Option SubscriptionState) : ServiceTables :=
  let states := t.subscriptions[owner]?.getD ∅
  let states := match state with
    | some state => states.insert contact.bare state
    | none => states.erase contact.bare
  { t with subscriptions := t.subscriptions.insert owner states }

def store (t : ServiceTables) (user : String) (messages : List Message) : ServiceTables :=
  { t with stored := t.stored.insert user (t.stored[user]?.getD [] ++ messages) }

end ServiceTables

def TextMap.set {α : Type} (m : TextMap α) (key : String) (value : Option α) : TextMap α :=
  match value with
  | some value => m.insert key value
  | none => m.erase key

end DirectedPresence
