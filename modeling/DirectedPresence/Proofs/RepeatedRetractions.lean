import DirectedPresence.Proofs.DepartureCompensation
import DirectedPresence.Proofs.Retractions

/-!
How often a receiver is told that a sender is gone. A sender that goes by itself has its update
routed for every pair of a handler and a receiver, so a receiver is told once for each handler that
reached it. When the node of the sender departs, the other nodes route for every receiver of a set,
in which the handlers are not told apart any more, so a receiver is told once. The two agree exactly
as long as no receiver was reached through several handlers (`Cluster.told_once_per_handler`).
-/

namespace DirectedPresence

/-- Whether a call hands this stanza to the router. -/
def Effect.routes (stanza : Stanza) : Effect → Bool
  | .route other _ => other = stanza
  | _ => false

/-- How often a stanza was handed to the router, whatever came of that. -/
def Stanza.timesRouted (stanza : Stanza) (effects : List Effect) : Nat :=
  effects.countP (·.routes stanza)

/-- The handlers through which a receiver was reached, one for each entry. -/
def Registry.handlersOf (r : Registry) (receiver : Address) : List Address :=
  (r.entries.filter (·.receivers.contains receiver)).map (·.handler)

/-- How often a presence is routed on to a receiver when it is processed at a node. -/
def Cluster.timesTold (c : Cluster) (env : Environment) (node : NodeId) (update : Presence)
    (receiver : Address) : Nat :=
  Stanza.timesRouted (.presence (update.readdressed receiver))
    (c.perform env node (.process update)).trace.effects

/-! ## Counting -/

namespace Registry

variable {r : Registry} {handler receiver : Address}

private theorem mem_handlersOf :
    handler ∈ r.handlersOf receiver ↔ (handler, receiver) ∈ r.pairs := by
  rw [mem_pairs, handlersOf, List.mem_map]
  constructor
  · rintro ⟨e, he, rfl⟩
    obtain ⟨hentry, hcontains⟩ := List.mem_filter.mp he
    exact ⟨e, hentry, rfl, hcontains⟩
  · rintro ⟨e, hentry, rfl, hmem⟩
    exact ⟨e, List.mem_filter.mpr ⟨hentry, hmem⟩, rfl⟩

private theorem Regular.nodup_handlersOf (h : r.Regular) (receiver : Address) :
    (r.handlersOf receiver).Nodup :=
  h.distinct.sublist (List.filter_sublist.map _)

/-- A receiver stands in as many pairs as there are handlers that reached it. -/
theorem count_pairs (r : Registry) (receiver : Address) :
    (r.pairs.map Prod.snd).count receiver = (r.handlersOf receiver).length := by
  obtain ⟨entries⟩ := r
  simp only [pairs, handlersOf, List.map_flatMap, List.map_map, List.length_map]
  induction entries with
  | nil => rfl
  | cons e entries ih =>
    -- one entry has the receiver once or not at all
    have hentry : (e.receivers.toList.map (Prod.snd ∘ fun receiver => (e.handler, receiver))).count
        receiver = if e.receivers.contains receiver then 1 else 0 := by
      rw [show (Prod.snd ∘ fun receiver => (e.handler, receiver)) = id from rfl, List.map_id,
        e.receivers.nodup_toList.count]
      simp only [Std.ExtTreeSet.mem_toList, Std.ExtTreeSet.contains_iff_mem]
    rw [List.flatMap_cons, List.count_append, hentry, ih, List.filter_cons]
    split
    · rw [List.length_cons, Nat.add_comm]
    · exact Nat.zero_add _

end Registry

/-- By a farewell a receiver is told as often as it is listed. -/
theorem Services.timesRouted_farewell (services : Services) (update : Presence)
    (sender receiver : Address) (receivers : List Address) :
    Stanza.timesRouted (.presence (update.readdressed receiver))
      (services.farewell update sender receivers) = receivers.count receiver := by
  have hsession : ((services.session sender).toList.map fun session =>
      Effect.setPresence session.address update).countP
        (·.routes (.presence (update.readdressed receiver))) = 0 := by
    cases services.session sender <;> rfl
  have hroster : (if services.roster.enabled then sender.node.toList.map (Effect.broadcast · update)
      else []).countP (·.routes (.presence (update.readdressed receiver))) = 0 := by
    cases services.roster.enabled <;> cases sender.node <;> rfl
  have hroutes : (receivers.map fun other => Effect.route (.presence (update.readdressed other))
      (services.router (.presence (update.readdressed other)))).countP
        (·.routes (.presence (update.readdressed receiver))) = receivers.count receiver := by
    rw [List.countP_map, List.count]
    apply List.countP_congr
    intro other _
    simp [Effect.routes, Presence.readdressed]
  rw [Stanza.timesRouted, farewell, List.countP_append, List.countP_append, List.countP_append,
    hsession, hroster, hroutes]
  simp [Effect.routes]

/-- For a departed node a receiver of a sender is told once, if the sender has it at all. -/
theorem ReverseIndex.timesRouted_retractions (router : Router) {sender receiver : Address}
    {pairs : List (Address × Address)} (hdistinct : pairs.Nodup) :
    Stanza.timesRouted (.presence (.unavailable sender receiver))
      (pairs.map (retraction router)) = if (sender, receiver) ∈ pairs then 1 else 0 := by
  rw [← hdistinct.count, Stanza.timesRouted, List.countP_map, List.count]
  apply List.countP_congr
  rintro ⟨key, other⟩ _
  simp [retraction, Effect.routes, Presence.unavailable]

/-! ## A sender goes -/

/-- A local sender goes, and is not turned away by its session. -/
structure Seat.Retires (seat : Seat) (env : Environment) (update : Presence) (sender : Address) :
    Prop where
  kind : update.kind = .unavailable
  isLocal : seat.node.server.isLocal sender = true
  admitted : ∀ session, (seat.services env).session sender = some session →
    session.authenticated = true
  sender : update.sender = some sender

namespace Cluster

variable {host : Address → NodeId} {serves : NodeId → Address → Bool} {env : Environment}
  {c : Cluster} {node : NodeId} {seat : Seat} {update : Presence} {sender : Address}
  {members : List (Server × Settings)} {steps : List Step}

private theorem timesTold_eq (hseat : c.seat? node = some seat) (h : seat.Retires env update sender)
    (receiver : Address) : c.timesTold env node update receiver =
      ((seat.believed env sender).handlersOf receiver).length := by
  rw [timesTold, ← Registry.count_pairs,
    ← Services.timesRouted_farewell (seat.services env) update sender]
  simp only [perform, hseat, Seat.perform, Outcome.trace_map]
  rw [Seat.effects_process h.kind h.sender h.admitted h.isLocal]

/-- After a run in which senders are used on their hosts only, the handlers that are believed are
those through which deliveries stand. -/
theorem handlers_of_run (host : Address → NodeId) (hubName : String)
    (hawake : ∀ p ∈ members, p.1.shuttingDown = false)
    (hordinary : ∀ step ∈ steps, step.Ordinary host)
    (hseat : ((start hubName members).run steps).seat? node = some seat)
    (hosted : host sender = node) (env : Environment) (receiver : Address) :
    ((seat.believed env sender).handlersOf receiver).Nodup ∧
      ∀ handler, handler ∈ (seat.believed env sender).handlersOf receiver ↔
        (handler, receiver) ∈
          Ledger.along seat.node.server node steps (fun _ => ∅) sender := by
  obtain ⟨hid, hsound, -, htracks⟩ := seat_of_run host hubName hawake hordinary hseat
  obtain ⟨hcopy, hpairs⟩ := htracks sender (hosted.trans hid.symm)
  rw [hsound.steady.believed_eq (Or.inr hcopy.symm)]
  constructor
  · cases hstored : seat.node.store.get? sender with
    | none => exact List.nodup_nil
    | some registry =>
      exact (hsound.stored sender registry hstored).2.regular.nodup_handlersOf receiver
  · intro handler
    rw [Registry.mem_handlersOf, ← hpairs, ← hcopy]
    exact Seat.mem_storedPairs

end Cluster

/-! ## A node departs -/

/-- When a node has departed, the others tell each receiver of one of its senders once, if some
handler that reached the receiver is served by them. -/
theorem Course.Watched.told_once {host : Address → NodeId} {serves : NodeId → Address → Bool}
    {course : Course} {departure notice : Step} {later : List Step} {seat : Seat} {sender : Address}
    (hw : course.Watched departure later notice) (h : course.Sound host serves)
    (ha : course.Agrees host)
    (hroutes : ∀ step ∈ departure :: later, ∀ node, (step.env node).routes.isLocal = serves node)
    (hlawful : course.Lawful host (departure :: later))
    (hkept : ∀ step ∈ departure :: later, ¬ step.Evicts)
    (hseat : course.cluster.seat? departure.node = some seat)
    (hosted : host sender = departure.node) (env : Environment) (receiver : Address) :
    Stanza.timesRouted (.presence (.unavailable sender receiver))
        ((course.run (departure :: later)).cluster.perform notice.env notice.node
          notice.operation).trace.effects =
      if ((seat.believed env sender).handlersOf receiver).any (serves notice.node) then 1
      else 0 := by
  obtain ⟨pairs, hdistinct, hpairs, heffects⟩ := hw.compensated h ha hroutes hlawful hkept hseat
  obtain ⟨ledgers, htracks⟩ := ha
  have halive := hw.leaver.1
  have hid : seat.node.id = departure.node := h.cluster.named departure.node seat hseat
  have hcopy := (htracks departure.node seat hseat halive sender (hosted.trans hid.symm)).1
  have hbelieved : seat.believed env sender = (seat.node.store.get? sender).getD .empty :=
    (h.cluster.live departure.node seat hseat halive).1.steady.believed_eq (Or.inr hcopy.symm)
  have hreached : (sender, receiver) ∈ pairs ↔
      ((seat.believed env sender).handlersOf receiver).any (serves notice.node) = true := by
    rw [hpairs, hbelieved, Store.Reaches]
    cases seat.node.store.get? sender with
    | none => simp [Registry.handlersOf, Registry.empty]
    | some registry =>
      simp [Registry.handlersOf, and_comm, and_left_comm, Std.ExtTreeSet.contains_iff_mem]
  rw [heffects, ReverseIndex.timesRouted_retractions _ hdistinct]
  simp only [hreached]

/-- In every state of a cluster, when a local sender goes, its update is routed to a receiver once
for each handler that reached the receiver; so everyone who was reached is told once exactly if
nobody was reached through several handlers. After a run in which senders are used on their hosts
only, these are the handlers through which deliveries stand. If the node of the sender departs
instead, the members that hear of it tell the receivers of the same pairs once, however many
handlers reached them. -/
theorem Cluster.told_once_per_handler {c : Cluster} {env : Environment} {node : NodeId}
    {seat : Seat} {update : Presence} {sender : Address} (hseat : c.seat? node = some seat)
    (hretires : seat.Retires env update sender) :
    let handlers := (seat.believed env sender).handlersOf
    (∀ receiver, c.timesTold env node update receiver = (handlers receiver).length) ∧
    ((∀ receiver, handlers receiver ≠ [] → c.timesTold env node update receiver = 1) ↔
      ∀ receiver, (handlers receiver).length ≤ 1) ∧
    (∀ (host : Address → NodeId) (hubName : String) (members : List (Server × Settings))
      (steps : List Step), (∀ p ∈ members, p.1.shuttingDown = false) →
      (∀ step ∈ steps, step.Ordinary host) → c = (start hubName members).run steps →
      host sender = node → ∀ receiver, (handlers receiver).Nodup ∧
        ∀ handler, handler ∈ handlers receiver ↔ (handler, receiver) ∈
          Ledger.along seat.node.server node steps (fun _ => ∅) sender) ∧
    ∀ (host : Address → NodeId) (serves : NodeId → Address → Bool) (hubName : String)
      (members : List (Server × Settings)) (before later : List Step) (departure notice : Step),
      (∀ p ∈ members, p.1.shuttingDown = false ∧ p.2.includeValues = true) →
      (∀ step ∈ before ++ departure :: later,
        ∀ node, (step.env node).routes.isLocal = serves node) →
      (∀ step ∈ before ++ departure :: later, ¬ step.Evicts) →
      (Course.start hubName members).Lawful host (before ++ departure :: later) →
      c = (start hubName members).run before → departure.node = node →
      ((Course.start hubName members).run before).Watched departure later notice →
      host sender = node → ∀ receiver,
        Stanza.timesRouted (.presence (.unavailable sender receiver))
            (((Course.start hubName members).run (before ++ departure :: later)).cluster.perform
              notice.env notice.node notice.operation).trace.effects =
          if (handlers receiver).any (serves notice.node) then 1 else 0 := by
  intro handlers
  have htimes : ∀ receiver, c.timesTold env node update receiver = (handlers receiver).length :=
    timesTold_eq hseat hretires
  refine ⟨htimes, ?_, ?_, ?_⟩
  · constructor
    · intro honce receiver
      cases hhandlers : handlers receiver with
      | nil => exact Nat.zero_le 1
      | cons handler others =>
        have hone := honce receiver (by rw [hhandlers]; exact List.cons_ne_nil _ _)
        rw [← hhandlers, ← htimes receiver, hone]
    · intro hsingle receiver hsome
      rw [htimes receiver]
      exact Nat.le_antisymm (hsingle receiver) (List.length_pos_iff.mpr hsome)
  · rintro host hubName members steps hawake hordinary rfl hosted receiver
    exact handlers_of_run host hubName hawake hordinary hseat hosted env receiver
  · rintro host serves hubName members before later departure notice hmembers hroutes hkept hlawful
      rfl rfl hwatched hosted receiver
    obtain ⟨hlawfulBefore, hlawfulDeparture⟩ := Course.lawful_append.mp hlawful
    obtain ⟨hsound, hagrees⟩ := Course.sound_of_lawful host serves hubName hmembers
      (fun step hmem => hroutes step (List.mem_append_left _ hmem)) hlawfulBefore
      fun step hmem => hkept step (List.mem_append_left _ hmem)
    have hleaver : ((Course.start hubName members).run before).cluster.seat? departure.node =
        some seat := by
      rw [Course.cluster_run]
      exact hseat
    rw [Course.run_append]
    exact hwatched.told_once hsound hagrees
      (fun step hmem => hroutes step (List.mem_append_right _ hmem)) hlawfulDeparture
      (fun step hmem => hkept step (List.mem_append_right _ hmem)) hleaver hosted env receiver

namespace Sample

def bot : Address := .ofDomain "bot.example.org"

/-- In the sample run everybody who was reached is told once, by the sender or, after its node has
departed, by the other node. -/
theorem receiver_told_once :
    let before := (Cluster.start "hub" members).run steps
    before.timesTold (fun _ => .agreeable) ⟨"one"⟩ goodbye receiver = 1 ∧
      Stanza.timesRouted (.presence (.unavailable sender receiver))
        (((Course.start "hub" members).run (steps ++ departure :: [])).cluster.perform notice.env
          notice.node notice.operation).trace.effects = 1 := by
  intro before
  have hrun : (before.seat? ⟨"one"⟩).any (fun seat => seat.node.server.isLocal sender = true ∧
      (seat.believed (fun _ => .agreeable) sender).handlersOf receiver = [handler]) = true := by
    decide +kernel
  obtain ⟨seat, hseat, hfacts⟩ := (Option.any_eq_true _ _).mp hrun
  obtain ⟨hlocal, hhandlers⟩ := of_decide_eq_true hfacts
  have hretires : seat.Retires (fun _ => .agreeable) goodbye sender := ⟨rfl, hlocal, nofun, rfl⟩
  obtain ⟨htimes, -, -, hdeparture⟩ := Cluster.told_once_per_handler hseat hretires
  have hserved : ∀ step ∈ steps ++ departure :: [],
      step ∈ steps ++ departure :: [] ++ notice :: [notice] :=
    fun step hmem => List.mem_append_left _ hmem
  have htold := hdeparture host (fun _ _ => true) "hub" members steps [] departure notice
    members_ready (fun step hmem => (departure_served step (hserved step hmem)).1)
    (fun step hmem => (departure_served step (hserved step hmem)).2)
    (Course.lawful_append.mp lawful_departure).1 rfl rfl watched_departure rfl receiver
  rw [hhandlers] at htold
  exact ⟨(htimes receiver).trans (by rw [hhandlers]; rfl), htold⟩

/-- The sample run goes on with a delivery to the same receiver through another handler. -/
def reachedTwice : List Step :=
  steps ++ [act "one" (.directedSent (.available sender) bot receiver)]

/-- A receiver that was reached through two handlers is told twice by the sender, though it would be
told once if the node departed. -/
theorem receiver_told_twice :
    let before := (Cluster.start "hub" members).run reachedTwice
    (∀ step ∈ reachedTwice, step.Ordinary host) ∧
      (∃ seat, before.seat? ⟨"one"⟩ = some seat ∧
        seat.Retires (fun _ => .agreeable) goodbye sender ∧
        (seat.believed (fun _ => .agreeable) sender).handlersOf receiver = [handler, bot]) ∧
      before.timesTold (fun _ => .agreeable) ⟨"one"⟩ goodbye receiver = 2 ∧
      Stanza.timesRouted (.presence (.unavailable sender receiver))
        (((Course.start "hub" members).run (reachedTwice ++ [departure])).cluster.perform notice.env
          notice.node notice.operation).trace.effects = 1 := by
  intro before
  refine ⟨?_, ?_, ?_, ?_⟩
  · intro step hmem
    rcases List.mem_append.mp hmem with hearlier | hlast
    · exact steps_ordinary step hearlier
    · rw [List.mem_singleton.mp hlast]
      exact ⟨Or.inl rfl, fun _ _ => rfl, rfl⟩
  · have hrun : (before.seat? ⟨"one"⟩).any (fun seat => seat.node.server.isLocal sender = true ∧
        (seat.believed (fun _ => .agreeable) sender).handlersOf receiver = [handler, bot]) =
          true := by
      decide +kernel
    obtain ⟨seat, hseat, hfacts⟩ := (Option.any_eq_true _ _).mp hrun
    obtain ⟨hlocal, hhandlers⟩ := of_decide_eq_true hfacts
    exact ⟨seat, hseat, ⟨rfl, hlocal, nofun, rfl⟩, hhandlers⟩
  · decide +kernel
  · decide +kernel

end Sample

end DirectedPresence
