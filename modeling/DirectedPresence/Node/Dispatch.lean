import DirectedPresence.Node.Tracking

/-!
Dispatch of the presence stanzas that local entities send. An update of availability goes to the
roster's subscribers; going unavailable also retracts the sender's directed presences. Subscription
stanzas go to the roster. A stanza that a client may not send is answered with an error. Nothing is
reported to the caller: failures become notices and do not hold up what follows.

What does not touch the tracked presences is a trace that depends on the services alone.
-/

namespace DirectedPresence

namespace Services

/-- Answers a presence with an error, from the session's server to the session, or back to where
the presence came from if there is no session. -/
def replyError (s : Services) (p : Presence) (session : Option Session)
    (condition : ErrorCondition) : Trace :=
  let reply := match session with
    | some session =>
      { p with sender := some (.ofDomain session.serverDomain), recipient := some session.address }
    | none => { p with sender := p.recipient, recipient := p.sender }
  s.router.attempt (.presence (reply.toError condition)) (.replyNotDelivered · condition)

/-- Sends an update of availability to the subscribers of its sender. -/
def broadcastUpdate (s : Services) (server : Server) (update : Presence) : Trace :=
  match update.sender with
  | none => .empty
  | some sender =>
    if !server.isLocal sender then .notice (.remoteUpdate server.domain sender)
    else if !s.roster.enabled then .empty
    else
      match sender.node with
      | none => .empty
      | some name =>
        ⟨[.broadcast name update],
          match s.roster.broadcast name update with
          | .ok () => []
          | .error (.userNotFound user) => [.unknownUser user]
          | .error cause => [.broadcastFailed sender cause]⟩

/-- Shows a pending request of a contact to the session, and probes the contact if its presence is
owed to the owner. -/
def introduce (session : Session) (item : RosterItem) : Trace :=
  (match item.pending with
    | some pending =>
      session.attempt (.presence (pending.announcement session.address.bare item.contact))
        (.requestNotDelivered session.address item.contact)
    | none => .empty) ++
  (if item.subscription.ownerReceives then
      .effect (.probe session.address item.contact)
    else .empty)

/-- The first availability of a registered user: pending requests are shown, contacts are probed,
and stored messages are delivered. -/
def initSession (s : Services) (session : Session) : Trace :=
  match session.address.node with
  | none => .empty
  | some user =>
    if !s.roster.isRegistered user then .empty
    else
      (if s.roster.enabled then
        match s.roster.items user with
        | .ok items => .concat (items.map (introduce session))
        | .error cause => .notice (.rosterLoadFailed user cause)
      else .empty) ++
      (if session.floodsOffline then
        .effect (.takeMessages user) ++
          .concat ((s.stored user).map fun message =>
            session.attempt (.message message) (.messageNotDelivered session.address))
      else .empty)

def becomeAvailable (s : Services) (server : Server) (p : Presence) (session : Option Session) :
    Trace :=
  match session with
  | none => s.broadcastUpdate server p ++ .effect (.userAvailable p)
  | some session =>
    if session.closed then .notice (.closedSession session.address)
    else
      .effect (.setPresence session.address p) ++ s.broadcastUpdate server p ++
      (if session.initialized then .empty
        else s.initSession session ++
          .effect (.setInitialized (p.sender.getD session.address) session.address true)) ++
      .effect (.userAvailable p)

end Services

namespace Seat

/-- Retracts the directed presences of a local sender: they are forgotten, and every receiver gets
the update. The cache is believed if it knows the sender, and else the store. -/
def retract [Enumerates] (env : Environment) (seat : Seat) (update : Presence) : Outcome Unit :=
  match update.sender with
  | none => { answer := (), seat }
  | some sender =>
    if !seat.node.server.isLocal sender then { answer := (), seat }
    else
      (seat.remove env sender).andThen fun answer seat =>
        let stored := seat.node.store.get? sender
        let (known, trace) := match answer with
          | .ok cached => (cached <|> stored, Trace.empty)
          | .error cause => (stored, Trace.notice (.removalFailed sender cause))
        { answer := ()
          seat := seat.setStore (seat.node.store.remove sender)
          trace := trace ++ Trace.concat ((known.getD .empty).pairs.map fun (_, receiver) =>
            (seat.services env).router.attempt (.presence (update.readdressed receiver))
              (.retractionNotRouted sender receiver)) }

/-- Hands a subscription stanza to the roster. A contact that becomes a subscriber needs no directed
presence from any session of the account that accepted it. -/
def manageSubscription [Enumerates] (env : Environment) (seat : Seat) (p : Presence) :
    Outcome Unit :=
  let handed := Trace.effect (.subscription p)
  match (seat.services env).roster.handle p with
  | .error (.userNotFound user) =>
    { answer := (), seat, trace := handed ++ .notice (.unknownUser user) }
  | .error cause =>
    { answer := (), seat, trace := handed ++ .notice (.processingFailed (.roster cause)) }
  | .ok () =>
    match p.kind, p.sender, p.recipient with
    | .subscribed, some account, some contact =>
      let senders := Orders.inForce.senders seat.node.store.senders
      (dropDirected env contact (senders.filter (·.sameBare account)) seat).after handed
    | _, _, _ => { answer := (), seat, trace := handed }

def process [Enumerates] (env : Environment) (seat : Seat) (p : Presence) : Outcome Unit :=
  let services := seat.services env
  let session := p.sender.bind services.session
  if session.any (!·.authenticated) then
    { answer := (), seat, trace := services.replyError p session .notAuthorized }
  else
    match p.kind with
    | .available =>
      { answer := (), seat, trace := services.becomeAvailable seat.node.server p session }
    | .unavailable =>
      let announced := (match session with
        | some session => .effect (.setPresence session.address p)
        | none => .empty) ++ services.broadcastUpdate seat.node.server p
      let retracted := seat.retract env p
      { retracted with trace := announced ++ retracted.trace ++ .effect (.userUnavailable p) }
    | .subscribe | .subscribed | .unsubscribe | .unsubscribed => seat.manageSubscription env p
    | .error | .probe =>
      { answer := (), seat, trace := services.replyError p session .badRequest }

end Seat

end DirectedPresence
