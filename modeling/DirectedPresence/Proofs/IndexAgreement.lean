import DirectedPresence.Proofs.Courses
import DirectedPresence.Proofs.StoreCacheAgreement

/-!
The reverse index of a member is what the hub says. After every lawful course, whatever was tracked,
swept, evicted, joined or left, the index of a member that has heard of all departures shows, of
every other node, the receivers that the node's handlers served here have in the hub, and nothing
else.
-/

namespace DirectedPresence

/-- The reverse index of a node says what the hub holds, and nothing else. -/
structure Fabric.IndexAgrees (isLocal : Address → Bool) (fabric : Fabric) (node : NodeId) :
    Prop where
  /-- Of another node it shows the receivers, if any, of entries whose handler is served here. -/
  shown : ∀ peer, peer ≠ node → ∀ sender receivers,
    (fabric.index node).receivers? peer sender = some receivers ↔
      receivers ≠ ∅ ∧ ∃ (holding : Holding) (registry : Registry),
        fabric.hub.data[sender]? = some holding ∧ holding.owner = peer ∧
        holding.registry = .ok registry ∧ ∀ receiver, receiver ∈ receivers ↔
          ∃ entry ∈ registry.entries, isLocal entry.handler = true ∧ receiver ∈ entry.receivers
  own : ∀ sender, (fabric.index node).receivers? node sender = none
  /-- It knows no node without receivers. -/
  known : ∀ peer, peer ∈ (fabric.index node).nodeIds ↔
    ∃ sender receivers, (fabric.index node).receivers? peer sender = some receivers

theorem Hub.estate_eq_some {L : Type} {hub : Hub L} {node : NodeId} {sender : Address}
    {registry : Registry} : hub.estate node sender = some registry ↔
      ∃ holding : Holding, hub.data[sender]? = some holding ∧ holding.owner = node ∧
        holding.registry = .ok registry := by
  unfold estate
  rw [Option.bind_eq_some_iff]
  constructor
  · rintro ⟨holding, hfound, hread⟩
    rw [Option.filter_eq_some_iff, decide_eq_true_eq] at hfound
    refine ⟨holding, hfound.1, hfound.2, ?_⟩
    cases hregistry : holding.registry with
    | error cause => simp [hregistry, Except.toOption] at hread
    | ok found =>
      rw [hregistry] at hread
      exact congrArg _ (Option.some.inj hread)
  · rintro ⟨holding, hfound, howner, hread⟩
    refine ⟨holding, ?_, by rw [hread]; rfl⟩
    rw [Option.filter_eq_some_iff, decide_eq_true_eq]
    exact ⟨hfound, howner⟩

namespace Registry

variable {isLocal : Address → Bool} {r : Registry} {receivers : AddressSet}

theorem eq_receiversWhere_iff : r.receiversWhere isLocal = receivers ↔ ∀ receiver,
    receiver ∈ receivers ↔
      ∃ entry ∈ r.entries, isLocal entry.handler = true ∧ receiver ∈ entry.receivers := by
  constructor
  · rintro rfl receiver
    exact mem_receiversWhere
  · intro h
    apply Std.ExtTreeSet.ext_mem
    intro receiver
    rw [mem_receiversWhere, h]

theorem localReceivers?_eq_some : r.localReceivers? isLocal = some receivers ↔
    receivers ≠ ∅ ∧ r.receiversWhere isLocal = receivers := by
  unfold localReceivers?
  split
  · next hempty =>
    have hnone : r.receiversWhere isLocal = ∅ := by simpa using hempty
    constructor
    · rintro ⟨⟩
    · rintro ⟨hne, heq⟩
      exact absurd (heq.symm.trans hnone) hne
  · next hsome =>
    have hne : r.receiversWhere isLocal ≠ ∅ := by simpa using hsome
    rw [Option.some.injEq]
    constructor
    · rintro rfl
      exact ⟨hne, rfl⟩
    · exact fun h => h.2

end Registry

theorem Fabric.indexAgrees_of_estates {isLocal : Address → Bool} {fabric : Fabric} {node : NodeId}
    (hcompact : (fabric.index node).Compact)
    (hshown : ∀ peer, peer ≠ node → ∀ sender, (fabric.index node).receivers? peer sender =
      (fabric.hub.estate peer sender).bind (·.localReceivers? isLocal))
    (hown : ∀ sender, (fabric.index node).receivers? node sender = none) :
    fabric.IndexAgrees isLocal node where
  shown := by
    intro peer hne sender receivers
    rw [hshown peer hne sender, Option.bind_eq_some_iff]
    simp only [Hub.estate_eq_some, Registry.localReceivers?_eq_some, Registry.eq_receiversWhere_iff]
    constructor
    · rintro ⟨registry, ⟨holding, hfound, howner, hread⟩, hsome, hunion⟩
      exact ⟨hsome, holding, registry, hfound, howner, hread, hunion⟩
    · rintro ⟨hsome, holding, registry, hfound, howner, hread, hunion⟩
      exact ⟨registry, ⟨holding, hfound, howner, hread⟩, hsome, hunion⟩
  own := hown
  known := fun _ => hcompact.mem_nodeIds

/-- A member that has heard of all departures has an index that agrees with the hub. -/
theorem Fabric.Mirrored.indexAgrees {serves : NodeId → Address → Bool} {notices : Notices}
    {crashed : NodeId → Prop} {fabric : Fabric} {node : NodeId}
    (h : fabric.Mirrored serves notices crashed) (hmember : node ∈ fabric.hub.members)
    (hheard : ∀ peer, notices peer node = none) :
    fabric.IndexAgrees (serves node) node := by
  have hmirrors := h.mirrors node fun hcrashed => h.gone node hcrashed hmember
  refine fabric.indexAgrees_of_estates (h.compact node) ?_ ?_
  · intro peer hne sender
    rw [hmirrors peer sender, Hub.claims_of_heard fabric.hub hmember hne (hheard peer)]
  · intro sender
    rw [hmirrors node sender, Hub.claims_self]
    rfl

/-- What the hub holds of a clustered node is what its store holds, if its cache tracks what its
store does. -/
theorem Cluster.Tracks.estate {host : Address → NodeId} {crashed : NodeId → Prop} {c : Cluster}
    {ledgers : NodeId → Ledger} {node : NodeId} {seat : Seat}
    (ht : c.Tracks host crashed ledgers) (h : c.Sound host crashed)
    (hseat : c.seat? node = some seat) (hphase : seat.node.phase = .clustered)
    (halive : ¬ crashed node) (sender : Address) :
    c.fabric.hub.estate node sender = seat.node.store.get? sender := by
  obtain ⟨hsound, hsettled⟩ := h.live node seat hseat halive
  obtain ⟨view, backing, -⟩ := hsound.phase_eq_clustered hsettled hphase
  have hholdings := (ht node seat hseat halive).holdings_member hsound backing sender
  rw [h.named node seat hseat, Cluster.fabric_of_seat? hseat] at hholdings
  unfold Hub.estate
  rw [hholdings]
  cases seat.node.store.get? sender with
  | none => rfl
  | some registry => simp [Except.toOption]

namespace Course

/-- Who is clustered and has not crashed is a member. -/
theorem Sound.joined {host : Address → NodeId} {serves : NodeId → Address → Bool}
    {course : Course} {node : NodeId} {seat : Seat} (h : course.Sound host serves)
    (hseat : course.cluster.seat? node = some seat) (hphase : seat.node.phase = .clustered)
    (halive : ¬ course.crashed node) : course.Joined node := by
  obtain ⟨hsound, hsettled⟩ := h.cluster.live node seat hseat halive
  obtain ⟨-, -, hmember⟩ := hsound.phase_eq_clustered hsettled hphase
  rwa [h.cluster.named node seat hseat, Cluster.fabric_of_seat? hseat] at hmember

/-- After every lawful course the reverse index of a clustered node agrees with the hub, once the
node has heard of all departures. -/
theorem index_agrees_of_lawful (host : Address → NodeId) (serves : NodeId → Address → Bool)
    (hubName : String) {members : List (Server × Settings)}
    (hmembers : ∀ p ∈ members, p.1.shuttingDown = false ∧ p.2.includeValues = true)
    {steps : List Step}
    (hroutes : ∀ step ∈ steps, ∀ node, (step.env node).routes.isLocal = serves node)
    (hlawful : (start hubName members).Lawful host steps) {node : NodeId} {seat : Seat}
    (hseat : ((start hubName members).run steps).cluster.seat? node = some seat)
    (hphase : seat.node.phase = .clustered)
    (halive : ¬ ((start hubName members).run steps).crashed node)
    (hheard : ∀ peer, ((start hubName members).run steps).Heard peer node) :
    seat.fabric.IndexAgrees (serves node) node := by
  have hsound : ((start hubName members).run steps).Sound host serves :=
    (sound_start host serves hubName hmembers).run hroutes hlawful
  rw [Cluster.fabric_of_seat? hseat]
  exact hsound.mirrored.indexAgrees (hsound.joined hseat hphase halive) hheard

/-- In the sample run the second node learns by an event what the first one has delivered. -/
theorem index_agrees_after_joining : ∃ seat,
    ((start "hub" Sample.members).run Sample.steps).cluster.seat? ⟨"two"⟩ = some seat ∧
      (seat.fabric.index ⟨"two"⟩).isEmpty = false ∧
      seat.fabric.IndexAgrees (fun _ => true) ⟨"two"⟩ := by
  have hrun : (((start "hub" Sample.members).run Sample.steps).cluster.seat? ⟨"two"⟩).any
      (fun seat => seat.node.phase = .clustered ∧
        (seat.fabric.index ⟨"two"⟩).isEmpty = false) = true := by
    decide +kernel
  obtain ⟨seat, hseat, hfacts⟩ := (Option.any_eq_true _ _).mp hrun
  obtain ⟨hphase, hsome⟩ := of_decide_eq_true hfacts
  obtain ⟨hlawful, halive, hheard⟩ := Sample.lawful_steps
  have hagrees := index_agrees_of_lawful Sample.host (fun _ _ => true) "hub"
    Sample.members_ready Sample.steps_served hlawful hseat hphase (halive _)
    fun peer => hheard peer _
  exact ⟨seat, hseat, hsome, hagrees⟩

end Course

end DirectedPresence
