import DirectedPresence.Proofs.Retractions
import DirectedPresence.Proofs.RosterCoverage

/-!
Who is told after a subscription was granted. When an account grants a contact the subscription,
what was delivered to the contact is forgotten, as the roster is to tell it from then on. The roster
is handed an update only while it is enabled and only for a sender with a node part, but the
deliveries are forgotten in any case. So a receiver of the contact is told that the sender goes
exactly under this condition (`Cluster.told_after_grant_iff`), and with the roster switched off
nobody tells it (`RosterSample.grant_silences`).
-/

namespace DirectedPresence

/-- Among the calls there is one by which the receiver is told: the update is routed to it, whatever
comes of that, or the roster broadcasts the update to the subscribers of the sender's account. -/
def Presence.Told (update : Presence) (receiver : Address) (effects : List Effect) : Prop :=
  (∃ failure, .route (.presence (update.readdressed receiver)) failure ∈ effects) ∨
    ∃ name, update.sender.bind (·.node) = some name ∧ .broadcast name update ∈ effects

section Farewell

variable {services : Services} {update : Presence} {sender receiver : Address}
  {receivers : List Address}

private theorem Presence.readdressed_inj {other : Address} :
    update.readdressed receiver = update.readdressed other ↔ receiver = other := by
  simp [Presence.readdressed]

private theorem Services.route_mem_farewell {failure : Option RouteError} :
    .route (.presence (update.readdressed receiver)) failure ∈
        services.farewell update sender receivers ↔
      receiver ∈ receivers ∧
        services.router (.presence (update.readdressed receiver)) = failure := by
  have hbroadcast : .route (.presence (update.readdressed receiver)) failure ∉
      if services.roster.enabled then sender.node.toList.map (Effect.broadcast · update)
      else [] := by
    split <;> simp
  simp only [farewell, List.mem_append, hbroadcast, or_false, List.mem_map, List.mem_singleton,
    reduceCtorEq, and_false, exists_false, false_or, Effect.route.injEq, Stanza.presence.injEq,
    Presence.readdressed_inj]
  constructor
  · rintro ⟨other, hmem, rfl, hfailure⟩
    exact ⟨hmem, hfailure⟩
  · rintro ⟨hmem, hfailure⟩
    exact ⟨receiver, hmem, rfl, hfailure⟩

private theorem Services.broadcast_mem_farewell {name : String} :
    .broadcast name update ∈ services.farewell update sender receivers ↔
      services.roster.enabled = true ∧ sender.node = some name := by
  unfold farewell
  cases services.roster.enabled <;> simp

/-- By its farewell a sender tells the receivers that are listed, and everybody who may hear of it
through the roster. -/
theorem Services.told_farewell (hsender : update.sender = some sender) :
    update.Told receiver (services.farewell update sender receivers) ↔
      receiver ∈ receivers ∨ services.roster.enabled = true ∧ sender.node.isSome = true := by
  simp only [Presence.Told, route_mem_farewell, broadcast_mem_farewell, hsender, Option.bind_some,
    Option.isSome_iff_exists, exists_and_left, exists_eq', and_true]
  refine or_congr_right ?_
  constructor
  · rintro ⟨name, hname, henabled, -⟩
    exact ⟨henabled, name, hname⟩
  · rintro ⟨henabled, name, hname⟩
    exact ⟨name, hname, henabled, hname⟩

end Farewell

namespace Seat

variable {host : Address → NodeId} {env : Environment} {seat : Seat} {ledger : Ledger}
  {approval : Presence} {account contact sender : Address}

/-- The node hands the account's stanza to the roster, which accepts that the contact becomes a
subscriber. -/
structure Grants (seat : Seat) (env : Environment) (approval : Presence)
    (account contact : Address) : Prop where
  kind : approval.kind = .subscribed
  sender : approval.sender = some account
  recipient : approval.recipient = some contact
  isLocal : seat.node.server.isLocal account = true
  admitted : ∀ session, (seat.services env).session account = some session →
    session.authenticated = true
  accepted : (seat.services env).roster.handle approval = .ok ()

/-- What a node has stored is of senders that are used there. -/
theorem Sound.hosted_of_mem_storedPairs (h : seat.Sound host) {pair : Address × Address}
    (hpair : pair ∈ seat.storedPairs sender) : host sender = seat.node.id := by
  cases hstored : seat.node.store.get? sender with
  | none => simp [storedPairs, hstored, Registry.pairs, Registry.empty] at hpair
  | some registry => exact (h.stored sender registry hstored).1

/-- The senders of a local account are local. -/
theorem Grants.isLocal_sender (h : seat.Grants env approval account contact)
    (haccount : sender.sameBare account = true) : seat.node.server.isLocal sender = true := by
  have hdomain : sender.domain = account.domain := by
    simp only [Address.sameBare, decide_eq_true_eq] at haccount
    exact haccount.2
  have hlocal := h.isLocal
  simp only [Server.isLocal, decide_eq_true_eq] at hlocal ⊢
  exact hdomain.trans hlocal

/-- A grant leaves of a ledger all but what senders of the account delivered to the contact. -/
theorem Grants.ledger_after (h : seat.Grants env approval account contact) (ledger : Ledger) :
    ledger.after (seat.services env) seat.node.server (.process approval) =
      ledger.dropAccount contact (·.sameBare account) := by
  have hadmitted : ((seat.services env).session account).any (!·.authenticated) = false := by
    cases hfound : (seat.services env).session account with
    | none => rfl
    | some session => simp [h.admitted session hfound]
  simp only [Ledger.after, Ledger.process, h.sender, Option.bind_some, hadmitted, h.kind,
    h.accepted, h.recipient, Bool.false_eq_true, if_false]

/-- After a grant the node is as sound as before, and tracks of the senders of the account what it
did, without the receivers of the contact. -/
theorem Grants.tracks (h : seat.Grants env approval account contact) (hsound : seat.Sound host)
    (ht : seat.Tracks host ledger) :
    (seat.perform env (.process approval)).seat.Sound host ∧
      SameNode seat (seat.perform env (.process approval)).seat ∧
      (seat.perform env (.process approval)).seat.Tracks host
        (ledger.dropAccount contact (·.sameBare account)) := by
  have huntracked : ∀ sender, (Operation.process approval).tracked? = some sender →
      host sender = seat.node.id := by
    intro sender htracked
    simp [Operation.tracked?, h.kind] at htracked
  have hedits : Edits env host seat (seat.perform env (.process approval)).seat :=
    hsound.steady.edits_perform rfl huntracked
  refine ⟨hsound.edits hedits, hedits.sameNode, ?_⟩
  rw [← h.ledger_after ledger]
  exact ht.perform hsound rfl huntracked

/-- Of a sender of the account nothing to the contact is left. -/
theorem Grants.not_mem_receivers (h : seat.Grants env approval account contact)
    (hsound : seat.Sound host) (ht : seat.Tracks host ledger)
    (hosted : host sender = seat.node.id) (haccount : sender.sameBare account = true)
    {receiver : Address} (hcontact : receiver.sameBare contact = true) :
    receiver ∉ ((seat.perform env (.process approval)).seat.storedPairs sender).map Prod.snd := by
  obtain ⟨-, hsame, htracks⟩ := h.tracks hsound ht
  obtain ⟨hcopy, hpairs⟩ := htracks sender (hosted.trans hsame.id.symm)
  intro hmem
  obtain ⟨pair, hpair, rfl⟩ := List.mem_map.mp hmem
  rw [mem_storedPairs, hcopy, hpairs, Ledger.dropAccount, if_pos haccount, Finset.mem_filter]
    at hpair
  simp [hcontact] at hpair

end Seat

namespace Cluster

variable {host : Address → NodeId} {env later : Environment} {members : List (Server × Settings)}
  {steps : List Step} {node : NodeId} {seat : Seat} {approval update : Presence}
  {account contact sender receiver : Address}

/-- After any run in which each sender is used on its host only, let an account grant a contact the
subscription, and let a sender of the account go next, with the roster switched on or off as before.
A receiver of the contact to whom the sender's presence was delivered is told if and only if the
roster is enabled and the sender has a node part. -/
theorem told_after_grant_iff (host : Address → NodeId) (hubName : String)
    (hawake : ∀ p ∈ members, p.1.shuttingDown = false)
    (hordinary : ∀ step ∈ steps, step.Ordinary host)
    (hseat : ((start hubName members).run steps).seat? node = some seat)
    (hgrants : seat.Grants env approval account contact)
    (haccount : sender.sameBare account = true) (hcontact : receiver.sameBare contact = true)
    (hdelivered : ∃ handler, (handler, receiver) ∈ seat.storedPairs sender)
    (hroster : (later node).roster.enabled = (env node).roster.enabled)
    (hkind : update.kind = .unavailable) (hsender : update.sender = some sender)
    (hsession : ∀ session, (later node).session sender = some session →
      session.authenticated = true) :
    let granted := (((start hubName members).run steps).perform env node
      (.process approval)).cluster
    update.Told receiver (granted.perform later node (.process update)).trace.effects ↔
      (env node).roster.enabled = true ∧ sender.node.isSome = true := by
  obtain ⟨hid, hsound, -, htracks⟩ := seat_of_run host hubName hawake hordinary hseat
  obtain ⟨hafter, hsame, htracked⟩ := hgrants.tracks hsound htracks
  obtain ⟨handler, hpair⟩ := hdelivered
  have hosted : host sender = seat.node.id := hsound.hosted_of_mem_storedPairs hpair
  have hlocal : seat.node.server.isLocal sender = true := hgrants.isLocal_sender haccount
  intro granted
  have hgranted : granted.seat? node =
      some (seat.perform env (.process approval)).seat := by
    simp only [granted, perform, hseat, seat?_setSeat_self]
  obtain ⟨hcopy, -⟩ := htracked sender (hosted.trans hsame.id.symm)
  have heffects : (granted.perform later node (.process update)).trace.effects =
      (later node).farewell update sender
        (((seat.perform env (.process approval)).seat.storedPairs sender).map Prod.snd) := by
    have hname : (seat.perform env (.process approval)).seat.node.id = node := hsame.id.trans hid
    simp only [perform, hgranted]
    exact (hafter.steady.effects_process hkind hsender (by rwa [Seat.services, hname])
      (by rwa [hsame.server]) (Or.inr hcopy.symm)).trans (by rw [Seat.services, hname])
  have hforgotten := hgrants.not_mem_receivers hsound htracks hosted haccount hcontact
  rw [heffects, Services.told_farewell hsender, hroster]
  exact or_iff_right hforgotten

end Cluster

namespace RosterSample

open Sample

def rosterServices (enabled : Bool) : Environment :=
  fun _ => { Services.agreeable with roster := { Services.agreeable.roster with enabled } }

/-- The first node joins and delivers a presence to a receiver. -/
def acquainted (enabled : Bool) : List Step :=
  [⟨rosterServices enabled, ⟨"one"⟩, .membership .localJoined⟩,
    ⟨rosterServices enabled, ⟨"one"⟩, .directedSent (.available sender) handler receiver⟩]

private theorem acquainted_ordinary (enabled : Bool) :
    ∀ step ∈ acquainted enabled, step.Ordinary host := by
  simp only [acquainted, List.forall_mem_cons, List.not_mem_nil, false_imp_iff, implies_true,
    and_true]
  exact ⟨.membership rfl rfl, Or.inl rfl, fun _ _ => rfl, rfl⟩

/-- The calls that are made when the sender goes after its account granted the receiver the
subscription. -/
def callsAfterGrant (enabled : Bool) : List Effect :=
  (((((Cluster.start "hub" members).run (acquainted enabled)).perform (rosterServices enabled)
    ⟨"one"⟩ (.process approval)).cluster.perform (rosterServices enabled) ⟨"one"⟩
    (.process goodbye)).trace.effects)

/-- While the roster is switched on the receiver of a delivery is told by the roster. -/
theorem grant_hands_over : ∃ seat,
    ((Cluster.start "hub" members).run (acquainted true)).seat? ⟨"one"⟩ = some seat ∧
      (handler, receiver) ∈ seat.storedPairs sender ∧
      seat.Grants (rosterServices true) approval sender receiver ∧
      goodbye.Told receiver (callsAfterGrant true) := by
  have hrun : (((Cluster.start "hub" members).run (acquainted true)).seat? ⟨"one"⟩).any
      (fun seat => (handler, receiver) ∈ seat.storedPairs sender ∧
        seat.node.server.isLocal sender = true) = true := by
    decide +kernel
  obtain ⟨seat, hseat, hfacts⟩ := (Option.any_eq_true _ _).mp hrun
  obtain ⟨hdelivered, hlocal⟩ := of_decide_eq_true hfacts
  have hgrants : seat.Grants (rosterServices true) approval sender receiver :=
    ⟨rfl, rfl, rfl, hlocal, nofun, rfl⟩
  refine ⟨seat, hseat, hdelivered, hgrants, ?_⟩
  exact (Cluster.told_after_grant_iff host "hub" members_awake (acquainted_ordinary true) hseat
    hgrants (by decide) (by decide) ⟨handler, hdelivered⟩ rfl rfl rfl nofun).mpr ⟨rfl, rfl⟩

/-- While the roster is switched off nobody tells the receiver, though it was tracked before its
account was granted the subscription. -/
theorem grant_silences :
    (∃ seat, ((Cluster.start "hub" members).run (acquainted false)).seat? ⟨"one"⟩ = some seat ∧
      (handler, receiver) ∈ seat.storedPairs sender ∧
      seat.Grants (rosterServices false) approval sender receiver) ∧
    callsAfterGrant false = [.userUnavailable goodbye] ∧
    ¬ goodbye.Told receiver (callsAfterGrant false) := by
  have hrun : (((Cluster.start "hub" members).run (acquainted false)).seat? ⟨"one"⟩).any
      (fun seat => (handler, receiver) ∈ seat.storedPairs sender ∧
        seat.node.server.isLocal sender = true) = true := by
    decide +kernel
  have hcalls : callsAfterGrant false = [.userUnavailable goodbye] := by decide +kernel
  obtain ⟨seat, hseat, hfacts⟩ := (Option.any_eq_true _ _).mp hrun
  obtain ⟨hdelivered, hlocal⟩ := of_decide_eq_true hfacts
  refine ⟨⟨seat, hseat, hdelivered, rfl, rfl, rfl, hlocal, nofun, rfl⟩, hcalls, ?_⟩
  rw [hcalls]
  simp [Presence.Told]

end RosterSample

end DirectedPresence
