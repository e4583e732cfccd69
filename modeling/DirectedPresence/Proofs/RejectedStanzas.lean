import DirectedPresence.Proofs.DirectedDeliveries

/-!
Stanzas that are rejected. A presence from a session that has not been authenticated, an error and a
probe are answered with an error and do nothing else; an available presence from a session that is
closed does nothing at all. What the services around a node have been asked to keep is recorded by
the calls that they got (`ServiceRecord`); handing a stanza to the router is not among it.
-/

namespace DirectedPresence

/-- What the services around a node keep: the latest presence of each session and whether it is
marked, the messages stored for each user, and the calls that the roster and the tracker got. -/
structure ServiceRecord where
  presence : Address → Option Presence
  initialized : Address → Bool
  stored : String → List Message
  roster : List Effect
  tracker : List Effect

namespace ServiceRecord

/-- What the services keep after a call. Stanzas that are routed or delivered leave no trace. -/
def note (r : ServiceRecord) (e : Effect) : ServiceRecord :=
  match e with
  | .route .. | .deliver .. => r
  | .setPresence session p => { r with presence := Function.update r.presence session (some p) }
  | .setInitialized _ session value =>
    { r with initialized := Function.update r.initialized session value }
  | .takeMessages user => { r with stored := Function.update r.stored user [] }
  | .broadcast .. | .subscription _ => { r with roster := r.roster ++ [e] }
  | .userAvailable _ | .userUnavailable _ | .probe .. => { r with tracker := r.tracker ++ [e] }

def after (r : ServiceRecord) (effects : List Effect) : ServiceRecord :=
  effects.foldl note r

end ServiceRecord

/-- The error that answers a presence: from the server of its session to the session, or back to
where it came from if there is no session. It is for want of authorization if there is a session,
and the session has none. -/
def Presence.rejection (p : Presence) (session : Option Session) : Presence where
  sender := session.elim p.recipient fun session => some (.ofDomain session.serverDomain)
  recipient := session.elim p.sender fun session => some session.address
  kind := .error
  status := p.status
  error := some (if session.any (!·.authenticated) then .notAuthorized else .badRequest)

namespace Services

def sessionOf (services : Services) (p : Presence) : Option Session :=
  p.sender.bind services.session

/-- The presence is one that a client may not send, or may not send yet. -/
def Rejects (services : Services) (p : Presence) : Prop :=
  (∃ session, services.sessionOf p = some session ∧ session.authenticated = false) ∨
    p.kind = .error ∨ p.kind = .probe

/-- The presence comes from a session that is closed already. -/
def Ignores (services : Services) (p : Presence) : Prop :=
  p.kind = .available ∧ ∃ session, services.sessionOf p = some session ∧
    session.authenticated = true ∧ session.closed = true

variable {services : Services} {p : Presence} {session : Session}

private theorem effects_replyError (services : Services) (p : Presence) (session : Option Session)
    {condition : ErrorCondition} (hcondition : (p.rejection session).error = some condition) :
    (services.replyError p session condition).effects =
      [.route (.presence (p.rejection session))
        (services.router (.presence (p.rejection session)))] := by
  have hreply : ∀ reply : Presence, reply.sender = (p.rejection session).sender →
      reply.recipient = (p.rejection session).recipient → reply.status = p.status →
      reply.toError condition = p.rejection session := by
    intro reply hsender hrecipient hstatus
    rw [Presence.toError, hsender, hrecipient, hstatus, ← hcondition]
    rfl
  cases session with
  | none => exact hreply { p with sender := p.recipient, recipient := p.sender } rfl rfl rfl ▸ rfl
  | some session =>
    exact hreply { p with
      sender := some (.ofDomain session.serverDomain), recipient := some session.address }
      rfl rfl rfl ▸ rfl

end Services

namespace Seat

variable {env : Environment} {seat : Seat} {p : Presence}

/-- A rejected presence is answered with an error, whatever becomes of the answer. -/
theorem process_of_rejected (h : (seat.services env).Rejects p) :
    let reply := p.rejection ((seat.services env).sessionOf p)
    (seat.process env p).seat = seat ∧ (seat.process env p).hearings = [] ∧
      (seat.process env p).trace.effects =
        [.route (.presence reply) ((seat.services env).router (.presence reply))] := by
  intro reply
  by_cases hadmitted : ((seat.services env).sessionOf p).any (!·.authenticated) = true
  · have hprocess : seat.process env p =
        { answer := (), seat
          trace :=
            (seat.services env).replyError p ((seat.services env).sessionOf p) .notAuthorized } :=
      if_pos hadmitted
    have hcondition : reply.error = some .notAuthorized := congrArg some (if_pos hadmitted)
    rw [hprocess]
    exact ⟨rfl, rfl, Services.effects_replyError _ p _ hcondition⟩
  · have hkind : p.kind = .error ∨ p.kind = .probe := by
      rcases h with ⟨session, hsession, hunauthenticated⟩ | hkind
      · simp [hsession, hunauthenticated] at hadmitted
      · exact hkind
    have hprocess : seat.process env p =
        { answer := (), seat
          trace :=
            (seat.services env).replyError p ((seat.services env).sessionOf p) .badRequest } := by
      refine (if_neg hadmitted).trans ?_
      rcases hkind with hkind | hkind <;> simp only [hkind] <;> rfl
    have hcondition : reply.error = some .badRequest := congrArg some (if_neg hadmitted)
    rw [hprocess]
    exact ⟨rfl, rfl, Services.effects_replyError _ p _ hcondition⟩

private theorem process_of_ignored (h : (seat.services env).Ignores p) :
    (seat.process env p).seat = seat ∧ (seat.process env p).hearings = [] ∧
      (seat.process env p).trace.effects = [] := by
  obtain ⟨hkind, session, hsession, hauthenticated, hclosed⟩ := h
  have hadmitted : ¬ ((seat.services env).sessionOf p).any (!·.authenticated) = true := by
    simp [hsession, hauthenticated]
  have hprocess : seat.process env p =
      { answer := (), seat, trace := .notice (.closedSession session.address) } := by
    refine (if_neg hadmitted).trans ?_
    unfold Services.sessionOf at hsession
    simp only [hkind, hsession, Services.becomeAvailable, hclosed, if_true]
  rw [hprocess]
  exact ⟨rfl, rfl, rfl⟩

end Seat

namespace Cluster

variable {c : Cluster} {node : NodeId} {seat : Seat} {steps : List Step}

/-- After any run whatsoever, a presence from a session that is not authenticated, an error and a
probe are answered with one error, whatever becomes of it, and an available presence from a closed
session is not answered. Nothing else comes of any of them: the cluster stays as it is, nobody hears
of anything, and the services keep what they have kept. -/
theorem rejects_without_effect (hubName : String) (members : List (Server × Settings))
    (hseat : ((start hubName members).run steps).seat? node = some seat) (env : Environment)
    (p : Presence) :
    let c := (start hubName members).run steps
    let services := env node
    let outcome := c.perform env node (.process p)
    let reply := p.rejection (services.sessionOf p)
    (services.Rejects p → outcome.trace.effects =
      [.route (.presence reply) (services.router (.presence reply))]) ∧
    (services.Ignores p → outcome.trace.effects = []) ∧
    (services.Rejects p ∨ services.Ignores p →
      outcome.cluster = c ∧ outcome.hearings = [] ∧
        ∀ record : ServiceRecord, record.after outcome.trace.effects = record) := by
  intro c services outcome reply
  have hid : seat.node.id = node := ((wired_start hubName members).run steps).named node seat hseat
  have hservices : seat.services env = services := congrArg env hid
  have houtcome : outcome =
      { answer := .done
        cluster := c.setSeat node (seat.process env p).seat
        trace := (seat.process env p).trace
        hearings := (seat.process env p).hearings } := by
    simp only [outcome, perform, c, hseat]
    rfl
  have hrejected : (seat.services env).Rejects p → _ := Seat.process_of_rejected
  have hignored : (seat.services env).Ignores p → _ := Seat.process_of_ignored
  rw [hservices] at hrejected hignored
  rw [houtcome]
  refine ⟨fun hrejects => (hrejected hrejects).2.2, fun hignores => (hignored hignores).2.2, ?_⟩
  rintro (hrejects | hignores)
  · obtain ⟨hkept, hunheard, heffects⟩ := hrejected hrejects
    simp only [hkept, hunheard, heffects]
    exact ⟨setSeat_eq_self hseat, trivial, fun _ => rfl⟩
  · obtain ⟨hkept, hunheard, heffects⟩ := hignored hignores
    simp only [hkept, hunheard, heffects]
    exact ⟨setSeat_eq_self hseat, trivial, fun _ => rfl⟩

end Cluster

namespace Sample

/-- A client that has gone before it was authenticated. -/
def guest : Session where
  address := sender
  serverDomain := "example.org"
  closed := true
  authenticated := false
  initialized := false
  floodsOffline := true
  declaredAnonymous := none
  deliver := fun _ => none

/-- Services that find one session for every address, and whose router has no route to anybody. -/
def visited (session : Session) : Services :=
  { cutOff with session := fun _ => some session }

/-- The guest is told that it is not authorized, which does not reach it, and once it has been
authenticated it is told nothing. -/
theorem guest_rejected :
    let c := (Cluster.start "hub" members).run steps
    let reply : Presence := ⟨some (.ofDomain "example.org"), some sender, .error, some "here",
      some .notAuthorized⟩
    let announced := Operation.process { Presence.available sender with status := some "here" }
    let rejected := c.perform (fun _ => visited guest) ⟨"one"⟩ announced
    let ignored := c.perform (fun _ => visited { guest with authenticated := true }) ⟨"one"⟩
      announced
    (rejected.trace.effects = [.route (.presence reply) (some (.noRoute receiver))] ∧
        rejected.cluster = c) ∧
      ignored.trace.effects = [] ∧ ignored.cluster = c := by
  intro c reply announced rejected ignored
  have hrun : (c.seat? ⟨"one"⟩).isSome = true := by
    decide +kernel
  obtain ⟨seat, hseat⟩ := Option.isSome_iff_exists.mp hrun
  have hrejects : (visited guest).Rejects
      { Presence.available sender with status := some "here" } :=
    Or.inl ⟨guest, rfl, rfl⟩
  have hignores : (visited { guest with authenticated := true }).Ignores
      { Presence.available sender with status := some "here" } :=
    ⟨rfl, _, rfl, rfl, rfl⟩
  obtain ⟨hanswered, -, hkept⟩ := Cluster.rejects_without_effect "hub" members hseat
    (fun _ => visited guest) { Presence.available sender with status := some "here" }
  obtain ⟨-, hsilent, hkept'⟩ := Cluster.rejects_without_effect "hub" members hseat
    (fun _ => visited { guest with authenticated := true })
    { Presence.available sender with status := some "here" }
  exact ⟨⟨hanswered hrejects, (hkept (Or.inl hrejects)).1⟩, hsilent hignores,
    (hkept' (Or.inr hignores)).1⟩

end Sample

end DirectedPresence
