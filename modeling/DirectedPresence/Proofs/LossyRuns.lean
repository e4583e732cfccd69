import DirectedPresence.Proofs.LostCopies
import DirectedPresence.Proofs.Retractions
import DirectedPresence.Proofs.Seclusion

/-!
Runs in which the hub loses copies. Between the operations of the nodes entries are evicted from the
hub, it is cleared, or a node is taken off it (`Step.Lossy`). A node retains what it has delivered
as long as no delivery is recorded for a sender whose copy is lost, and no longer
(`Cluster.retains_iff`): such a delivery replaces what the store had, though the store is what a
lost copy should be restored from.
-/

namespace DirectedPresence

/-- An ordinary step, or one by which the hub may lose entries and members. -/
def Step.Lossy (host : Address → NodeId) (step : Step) : Prop :=
  step.Ordinary host ∨ step.operation.isHub = true

/-- Of the senders of a node the hub has what it had, or nothing. -/
def Fabric.Sheds (host : Address → NodeId) (id : NodeId) (before after : Fabric) : Prop :=
  ∀ sender, host sender = id →
    after.hub.data[sender]? = before.hub.data[sender]? ∨ after.hub.data[sender]? = none

namespace Operation

variable {operation : Operation} {services : Services} {server : Server}

private theorem delivery?_of_isHub (hhub : operation.isHub = true) :
    operation.delivery? services server = none := by
  cases operation with
  | hubLeave | hubEvict | hubEvictNode | hubClear => rfl
  | _ => cases hhub

private theorem ledger_of_isHub (hhub : operation.isHub = true) (ledger : Ledger) :
    ledger.after services server operation = ledger := by
  cases operation with
  | hubLeave | hubEvict | hubEvictNode | hubClear => rfl
  | _ => cases hhub

end Operation

private theorem Ledger.along_concat (server : Server) (node : NodeId) (steps : List Step)
    (step : Step) (ledger : Ledger) : Ledger.along server node (steps ++ [step]) ledger =
      Ledger.along server node [step] (Ledger.along server node steps ledger) :=
  List.foldl_append

namespace Seat

/-- When the sender goes unavailable, an attempt is made to route it to the receiver. -/
def Retracts (seat : Seat) (sender receiver : Address) : Prop :=
  ∀ (env : Environment) (update : Presence), update.kind = .unavailable →
    update.sender = some sender →
    (∀ session, (seat.services env).session sender = some session →
      session.authenticated = true) →
    .route (.presence (update.readdressed receiver))
      ((seat.services env).router (.presence (update.readdressed receiver))) ∈
        (seat.process env update).trace.effects

/-- Every pair of the ledger is in the store, and its receiver will hear when the sender goes. -/
def Retains (host : Address → NodeId) (seat : Seat) (ledger : Ledger) : Prop :=
  ∀ sender, host sender = seat.node.id → seat.node.server.isLocal sender = true →
    ∀ pair ∈ ledger sender, pair ∈ Registry.pairsOf (seat.node.store.get? sender) ∧
      seat.Retracts sender pair.2

variable {host : Address → NodeId} {env : Environment} {seat seat' : Seat} {ledger : Ledger}
  {sender : Address} {operation : Operation} {step : Step} {id : NodeId}

private theorem Backs.retains (h : seat.Steady host) (hb : seat.Backs host ledger) :
    seat.Retains host ledger := by
  intro sender hosted hlocal pair hpair
  obtain ⟨hcopy, hcovered⟩ := hb sender hosted
  have hstored := hcovered hpair
  refine ⟨hstored, fun env update hkind hsender hsession => ?_⟩
  rw [h.effects_process hkind hsender hsession hlocal hcopy]
  have hreceiver : pair.2 ∈ (seat.storedPairs sender).map Prod.snd :=
    List.mem_map_of_mem (mem_storedPairs.mpr hstored)
  simp only [Services.farewell, List.mem_append]
  exact Or.inl (Or.inr (List.mem_map_of_mem hreceiver))

/-! ## Losses -/

private theorem data_of_isHub (hhub : operation.isHub = true) (env : Environment) (seat : Seat)
    (sender : Address) :
    (seat.perform env operation).seat.fabric.hub.data[sender]? = seat.fabric.hub.data[sender]? ∨
      (seat.perform env operation).seat.fabric.hub.data[sender]? = none := by
  have hfiltered : ∀ owner : NodeId,
      (Hub.withoutOwner seat.fabric.hub.data owner)[sender]? = seat.fabric.hub.data[sender]? ∨
        (Hub.withoutOwner seat.fabric.hub.data owner)[sender]? = none := by
    intro owner
    rw [Hub.getElem?_withoutOwner]
    cases seat.fabric.hub.data[sender]? with
    | none => exact Or.inl rfl
    | some holding => cases hkept : decide (holding.owner ≠ owner) <;> simp [Option.filter, hkept]
  cases operation with
  | hubLeave peer => exact hfiltered peer
  | hubEvict key =>
    simp only [perform, Outcome.seat_map, afterHub, Hub.data_evict,
      Std.ExtTreeMap.getElem?_erase]
    split
    · exact Or.inr rfl
    · exact Or.inl rfl
  | hubEvictNode peer =>
    simp only [perform, Outcome.seat_map, afterHub, Hub.data_evictNode]
    exact hfiltered peer
  | hubClear peer =>
    right
    simp only [perform, Outcome.seat_map, afterHub, Hub.data_clear, Std.ExtTreeMap.getElem?_empty]
  | _ => cases hhub

/-- A node does not notice what the hub loses. -/
theorem Steady.elsewhere (h : seat.Steady host) {fabric : Fabric}
    (hwritten : fabric.hub.Written host) (hsheds : seat.fabric.Sheds host seat.node.id fabric) :
    Seat.Steady host ⟨fabric, seat.node⟩ where
  faultless := h.faultless
  awake := h.awake
  stance := by
    cases h.stance with
    | alone cache backing owner unheard unheld =>
      refine .alone cache backing owner unheard fun sender hosted => ?_
      rcases hsheds sender hosted with hsame | hlost
      · exact hsame.trans (unheld sender hosted)
      · exact hlost
    | viewing view backing owner => exact .viewing view backing owner
  stored := h.stored
  own := h.own
  written := hwritten

private theorem Backs.elsewhere (hb : seat.Backs host ledger) {fabric : Fabric}
    (hsheds : seat.fabric.Sheds host seat.node.id fabric) :
    Seat.Backs host ⟨fabric, seat.node⟩ ledger := by
  intro sender hosted
  obtain ⟨hcopy, hcovered⟩ := hb sender hosted
  refine ⟨?_, hcovered⟩
  cases hbacking : seat.node.cache.backing with
  | standalone cache => simpa only [cached, hbacking] using hcopy
  | clustered view =>
    simp only [cached, hbacking] at hcopy ⊢
    rcases hsheds sender hosted with hsame | hlost
    · rwa [Hub.lookup, hsame]
    · exact Or.inl (Hub.lookup_eq_none hlost)

/-- A change of membership gives a node all its copies back, or leaves them as they are. -/
theorem Backs.handle (h : seat.Steady host) (hb : seat.Backs host ledger)
    (hplain : (env seat.node.id).viewFaults = Faults.none) (event : MembershipEvent) :
    (seat.handle env event).seat.Backs host ledger := by
  intro sender hsender
  have hosted : host sender = seat.node.id := hsender.trans (h.handle hplain event).2.id
  obtain ⟨hcopy, hcovered⟩ := hb sender hosted
  have hbase : seat.node.store.get? sender = none → seat.cached sender = none := by
    intro hnone
    rcases hcopy with hlost | hsame
    · exact hlost
    · exact hsame.trans hnone
  rw [h.store_handle]
  refine ⟨?_, hcovered⟩
  rcases h.cached_handle hplain event hosted hbase with hkept | hrefilled
  · rwa [hkept]
  · exact Or.inr hrefilled

/-! ## One step -/

/-- A step keeps the seat of its node steady, and costs the other nodes no more than copies. -/
theorem Steady.lossy (h : seat.Steady host) (hlossy : step.Lossy host)
    (hid : seat.node.id = step.node) :
    (seat.perform step.env step.operation).seat.Steady host ∧
      (seat.perform step.env step.operation).seat.node.server = seat.node.server ∧
      ∀ id, id ≠ seat.node.id →
        seat.fabric.Sheds host id (seat.perform step.env step.operation).seat.fabric := by
  have hframed : ∀ {after : Seat}, Frame host seat after →
      ∀ id, id ≠ seat.node.id → seat.fabric.Sheds host id after.fabric :=
    fun hframe id hne sender hosted => Or.inl (hframe.data sender fun heq => hne (hosted ▸ heq))
  rcases hlossy with ⟨hkind, hosted, hplain⟩ | hhub
  · rw [← hid] at hosted hplain
    rcases hkind with htracking | ⟨event, hevent⟩
    · have hedits : Edits step.env host seat (seat.perform step.env step.operation).seat :=
        h.edits_perform htracking hosted
      exact ⟨h.edits hedits, (Edits.sameNode hedits).server, hframed (h.frame hedits)⟩
    · rw [hevent]
      obtain ⟨hsteady, hframe⟩ := h.handle hplain event
      exact ⟨hsteady, hframe.server, hframed hframe⟩
  · have hnode : (seat.perform step.env step.operation).seat.node = seat.node :=
      node_of_isHub hhub
    have hdata := data_of_isHub hhub step.env seat
    refine ⟨?_, congrArg Node.server hnode, fun id _ sender _ => hdata sender⟩
    have hwritten : (seat.perform step.env step.operation).seat.fabric.hub.Written host := by
      intro sender holding hholding
      rcases hdata sender with hsame | hlost
      · exact h.written sender holding (hsame ▸ hholding)
      · rw [hlost] at hholding
        cases hholding
    have hshed := h.elsewhere hwritten fun sender _ => hdata sender
    rwa [← hnode] at hshed

private theorem Backs.lossy (h : seat.Steady host) (hb : seat.Backs host ledger)
    (hlossy : step.Lossy host) (hid : seat.node.id = step.node)
    (hkept : ¬ seat.Overwrites step.env ledger step.operation) :
    (seat.perform step.env step.operation).seat.Backs host
      (ledger.after (step.env step.node) seat.node.server step.operation) := by
  rcases hlossy with ⟨hkind, hosted, hplain⟩ | hhub
  · rw [← hid] at hosted hplain ⊢
    rcases hkind with htracking | ⟨event, hevent⟩
    · exact hb.perform h htracking hosted hkept
    · rw [hevent]
      exact hb.handle h hplain event
  · rw [Operation.ledger_of_isHub hhub]
    have hnode : (seat.perform step.env step.operation).seat.node = seat.node :=
      node_of_isHub hhub
    have hshed := hb.elsewhere fun sender _ => data_of_isHub hhub step.env seat sender
    rwa [← hnode] at hshed

/-- Where a copy is overwritten, a pair of the ledger is not in the store afterwards. -/
theorem Overwrites.not_retains (h : seat.Steady host) (hlossy : step.Lossy host)
    (hid : seat.node.id = step.node)
    (hover : seat.Overwrites step.env ledger step.operation) :
    ¬ (seat.perform step.env step.operation).seat.Retains host
      (ledger.after (step.env step.node) seat.node.server step.operation) := by
  obtain ⟨delivery, hdelivery, hkind, hlost, hmore⟩ := hover
  obtain ⟨other, hother, hne⟩ := Finset.not_subset.mp hmore
  obtain ⟨htracked, hlocal, -⟩ := Operation.sender_of_delivery? hdelivery
  obtain ⟨-, hserver, -⟩ := h.lossy hlossy hid
  have hosted : host delivery.sender = seat.node.id := by
    rcases hlossy with hordinary | hhub
    · rw [hid]
      exact hordinary.hosted delivery.sender htracked
    · rw [Operation.delivery?_of_isHub hhub] at hdelivery
      cases hdelivery
  have hledger : ledger.after (seat.services step.env) seat.node.server step.operation =
      ledger.record delivery := ledger.after_of_delivery? hdelivery
  intro hretains
  rw [services, hid] at hledger
  rw [hledger] at hretains
  have hstill := (hretains delivery.sender (by rw [Node.id, hserver]; exact hosted)
    (by rwa [hserver]) other ((Ledger.mem_record hkind other).mpr (Or.inr hother))).1
  rw [seat_perform_of_delivery? hdelivery, h.stored_noting_of_lost hosted hkind hlost] at hstill
  exact hne hstill

end Seat

/-! ## Runs -/

namespace Cluster

/-- Every node has a steady seat, and runs on its server. -/
structure Steady (host : Address → NodeId) (servers : NodeId → Server) (c : Cluster) : Prop where
  named : ∀ id seat, c.seat? id = some seat → seat.node.id = id
  served : c.ServedBy servers
  seats : ∀ id seat, c.seat? id = some seat → seat.Steady host

def Backs (host : Address → NodeId) (c : Cluster) (ledgers : NodeId → Ledger) : Prop :=
  ∀ id seat, c.seat? id = some seat → seat.Backs host (ledgers id)

def Retains (host : Address → NodeId) (c : Cluster) (steps : List Step) : Prop :=
  ∀ node seat, c.seat? node = some seat →
    seat.Retains host (Ledger.along seat.node.server node steps fun _ => ∅)

/-- After these steps the next one records a pair of a sender that has others, while its cached copy
is lost. -/
def Overwrites (c : Cluster) (steps : List Step) (step : Step) : Prop :=
  ∃ seat, c.seat? step.node = some seat ∧
    seat.Overwrites step.env (Ledger.along seat.node.server step.node steps fun _ => ∅)
      step.operation

variable {host : Address → NodeId} {servers : NodeId → Server} {ledgers : NodeId → Ledger}
  {c : Cluster} {seat : Seat} {step : Step} {steps : List Step} {members : List (Server × Settings)}

private theorem Steady.after (h : c.Steady host servers) (hlossy : step.Lossy host) :
    (c.after step).Steady host servers := by
  cases hseat : c.seat? step.node with
  | none =>
    rw [after_of_none hseat]
    exact h
  | some seat =>
    have hid := h.named step.node seat hseat
    obtain ⟨hsteady, hserver, hsheds⟩ := (h.seats step.node seat hseat).lossy hlossy hid
    rw [after_of_seat? hseat]
    constructor
    case named =>
      exact forall_node_setSeat (P := fun id node => node.id = id) h.named
        ((congrArg Server.node hserver).trans hid)
    case served =>
      exact forall_node_setSeat (P := fun id node => node.server = servers id) h.served
        (hserver.trans (h.served step.node seat hseat))
    case seats =>
      intro id other hother
      rcases seat?_setSeat_cases hother with ⟨rfl, rfl⟩ | ⟨hne, old, hold, rfl⟩
      · exact hsteady
      · have hfabric : old.fabric = seat.fabric := fabric_eq_of_seats hold hseat
        refine (h.seats id old hold).elsewhere hsteady.written ?_
        rw [hfabric, h.named id old hold]
        exact hsheds id (hid ▸ hne)

private theorem Backs.after (h : c.Steady host servers) (hb : c.Backs host ledgers)
    (hlossy : step.Lossy host)
    (hkept : ∀ seat, c.seat? step.node = some seat →
      ¬ seat.Overwrites step.env (ledgers step.node) step.operation) :
    (c.after step).Backs host fun id => Ledger.along (servers id) id [step] (ledgers id) := by
  intro id other hother
  cases hseat : c.seat? step.node with
  | none =>
    rw [after_of_none hseat] at hother
    have hne : step.node ≠ id := by
      rintro rfl
      rw [hseat] at hother
      cases hother
    beta_reduce
    rw [Ledger.along_foreign hne]
    exact hb id other hother
  | some seat =>
    have hid := h.named step.node seat hseat
    have hsteady := h.seats step.node seat hseat
    rw [after_of_seat? hseat] at hother
    rcases seat?_setSeat_cases hother with ⟨rfl, rfl⟩ | ⟨hne, old, hold, rfl⟩
    · have hbacks := (hb step.node seat hseat).lossy hsteady hlossy hid (hkept seat hseat)
      beta_reduce
      rwa [Ledger.along_own rfl, ← h.served step.node seat hseat]
    · have hfabric : old.fabric = seat.fabric := fabric_eq_of_seats hold hseat
      beta_reduce
      rw [Ledger.along_foreign (Ne.symm hne)]
      refine (hb id old hold).elsewhere ?_
      rw [hfabric, h.named id old hold]
      exact (hsteady.lossy hlossy hid).2.2 id (hid ▸ hne)

private theorem Steady.run (h : c.Steady host servers) (hlossy : ∀ step ∈ steps, step.Lossy host) :
    (c.run steps).Steady host servers := by
  induction steps generalizing c with
  | nil => exact h
  | cons step rest ih =>
    exact ih (h.after (hlossy step (by simp))) fun other hmem => hlossy other (by simp [hmem])

/-- As long as no copy is overwritten every node backs what its own steps add up to. -/
theorem Backs.run (h : c.Steady host servers) (hb : c.Backs host fun _ _ => ∅)
    (hlossy : ∀ step ∈ steps, step.Lossy host)
    (hkept : ∀ before step, before ++ [step] <+: steps → ¬ (c.run before).Overwrites before step) :
    (c.run steps).Backs host fun id => Ledger.along (servers id) id steps fun _ => ∅ := by
  induction steps using List.reverseRecOn with
  | nil => exact hb
  | append_singleton steps step ih =>
    have hearlier : ∀ step ∈ steps, step.Lossy host :=
      fun other hmem => hlossy other (List.mem_append_left _ hmem)
    have hsteady : (c.run steps).Steady host servers := h.run hearlier
    have hbacks := ih hearlier fun before other hinitial =>
      hkept before other (hinitial.trans (List.prefix_append _ _))
    have hlast := hkept steps step List.prefix_rfl
    rw [run_concat]
    simp only [Ledger.along_concat]
    refine hbacks.after hsteady (hlossy step (by simp)) fun seat hseat hover => ?_
    exact hlast ⟨seat, hseat, by rwa [hsteady.served step.node seat hseat]⟩

private theorem steady_start (host : Address → NodeId) (hubName : String)
    (hawake : ∀ p ∈ members, p.1.shuttingDown = false) :
    (start hubName members).Steady host
        (fun id => ((start hubName members).seat? id).elim ⟨id, "", false⟩ (·.node.server)) ∧
      (start hubName members).Backs host fun _ _ => ∅ := by
  obtain ⟨hsound, htracks⟩ := sound_start host hubName hawake
  refine ⟨⟨hsound.named, servedBy_self _, fun id seat hseat =>
    (hsound.live id seat hseat not_false).1.steady⟩, fun id seat hseat sender hosted => ?_⟩
  obtain ⟨hagree, -⟩ := htracks id seat hseat not_false sender hosted
  exact ⟨Or.inr hagree.symm, Finset.empty_subset _⟩

/-- In a run in which the hub loses copies the nodes retain what they have delivered, all along, if
and only if nothing is recorded for a sender whose copy is lost while it has other pairs. -/
theorem retains_iff (host : Address → NodeId) (hubName : String)
    (hawake : ∀ p ∈ members, p.1.shuttingDown = false)
    (hlossy : ∀ step ∈ steps, step.Lossy host) :
    (∀ before, before <+: steps →
        ((start hubName members).run before).Retains host before) ↔
      ∀ before step, before ++ [step] <+: steps →
        ¬ ((start hubName members).run before).Overwrites before step := by
  obtain ⟨hstart, hempty⟩ := steady_start host hubName hawake
  have hpart : ∀ before, before <+: steps → ∀ step ∈ before, step.Lossy host :=
    fun before hinitial step hmem => hlossy step (hinitial.subset hmem)
  constructor
  · rintro hretains before step hinitial ⟨seat, hseat, hover⟩
    have hbefore := (List.prefix_append before [step]).trans hinitial
    have hsteady := hstart.run (hpart before hbefore)
    have hid := hsteady.named step.node seat hseat
    have hstep : step.Lossy host := hpart _ hinitial step (by simp)
    have hserver := ((hsteady.seats step.node seat hseat).lossy hstep hid).2.1
    refine hover.not_retains (hsteady.seats step.node seat hseat) hstep hid ?_
    have hafter := hretains _ hinitial step.node
      (seat.perform step.env step.operation).seat (by
        rw [run_concat, after_of_seat? hseat, seat?_setSeat_self])
    rw [Ledger.along_concat, hserver] at hafter
    rwa [Ledger.along_own rfl] at hafter
  · intro hkept before hinitial node seat hseat
    have hsteady := hstart.run (hpart before hinitial)
    have hbacks := Backs.run hstart hempty (hpart before hinitial) fun earlier step hearlier =>
      hkept earlier step (hearlier.trans hinitial)
    rw [hsteady.served node seat hseat]
    exact (hbacks node seat hseat).retains (hsteady.seats node seat hseat)

end Cluster

namespace Sample

/-- The first node joins and delivers a presence, and then the copy of the sender is evicted. -/
def evicted : List Step :=
  [act "one" (.membership .localJoined),
    act "one" (.directedSent (.available sender) handler receiver),
    act "one" (.hubEvict sender)]

def laterReceiver : Address := .ofParts (some "mercutio") "example.org" none

/-- The same, and then the presence is delivered to somebody else. -/
def overwritten : List Step :=
  evicted ++ [act "one" (.directedSent (.available sender) handler laterReceiver)]

private theorem overwritten_lossy : ∀ step ∈ overwritten, step.Lossy host := by
  intro step hmem
  simp only [overwritten, evicted, List.cons_append, List.nil_append, List.mem_cons,
    List.not_mem_nil, or_false] at hmem
  rcases hmem with rfl | rfl | rfl | rfl
  · exact Or.inl (.membership rfl rfl)
  · exact Or.inl ⟨Or.inl rfl, fun _ _ => rfl, rfl⟩
  · exact Or.inr rfl
  · exact Or.inl ⟨Or.inl rfl, fun _ _ => rfl, rfl⟩

/-- The eviction alone costs nothing: what was delivered is still in the store. -/
theorem evicted_retained : ∃ seat,
    ((Cluster.start "hub" members).run evicted).seat? ⟨"one"⟩ = some seat ∧
      seat.get sender = .ok none ∧
      Ledger.along seat.node.server ⟨"one"⟩ evicted (fun _ => ∅) sender = {(handler, receiver)} ∧
      seat.Retains host (Ledger.along seat.node.server ⟨"one"⟩ evicted fun _ => ∅) := by
  have hrun : (((Cluster.start "hub" members).run evicted).seat? ⟨"one"⟩).any (fun seat =>
      seat.get sender = .ok none ∧ Ledger.along seat.node.server ⟨"one"⟩ evicted (fun _ => ∅)
        sender = {(handler, receiver)}) = true := by
    decide +kernel
  obtain ⟨seat, hseat, hfacts⟩ := (Option.any_eq_true _ _).mp hrun
  obtain ⟨hlost, hledger⟩ := of_decide_eq_true hfacts
  have hlossy : ∀ step ∈ evicted, step.Lossy host := fun step hmem =>
    overwritten_lossy step (List.mem_append_left _ hmem)
  have hretains := (Cluster.retains_iff host "hub" members_awake hlossy).mpr ?_
  · exact ⟨seat, hseat, hlost, hledger, hretains evicted List.prefix_rfl ⟨"one"⟩ seat hseat⟩
  · -- only the delivery records a pair, and nothing was recorded before
    rintro before step ⟨rest, hrest⟩ ⟨seat, -, delivery, hdelivery, -, -, hmore⟩
    rcases before with _ | ⟨first, _ | ⟨second, _ | ⟨third, before⟩⟩⟩
    · cases hrest
      cases hdelivery
    · cases hrest
      exact hmore (Finset.empty_subset _)
    · cases hrest
      cases hdelivery
    · simp [evicted] at hrest

/-- What is delivered after the eviction overwrites what was delivered before: it is not in the
store any more, and its receiver does not hear that the sender goes. -/
theorem delivery_overwrites :
    (∀ step ∈ overwritten, step.Lossy host) ∧ ∃ seat,
      ((Cluster.start "hub" members).run overwritten).seat? ⟨"one"⟩ = some seat ∧
        (handler, receiver) ∈
          Ledger.along seat.node.server ⟨"one"⟩ overwritten (fun _ => ∅) sender ∧
        (handler, receiver) ∉ Registry.pairsOf (seat.node.store.get? sender) ∧
        (seat.process (fun _ => .agreeable) goodbye).trace.effects =
          Services.agreeable.farewell goodbye sender [laterReceiver] := by
  have hrun : (((Cluster.start "hub" members).run overwritten).seat? ⟨"one"⟩).any (fun seat =>
      (handler, receiver) ∈ Ledger.along seat.node.server ⟨"one"⟩ overwritten (fun _ => ∅) sender ∧
        (handler, receiver) ∉ Registry.pairsOf (seat.node.store.get? sender) ∧
        (seat.process (fun _ => .agreeable) goodbye).trace.effects =
          Services.agreeable.farewell goodbye sender [laterReceiver]) = true := by
    decide +kernel
  obtain ⟨seat, hseat, hfacts⟩ := (Option.any_eq_true _ _).mp hrun
  exact ⟨overwritten_lossy, seat, hseat, of_decide_eq_true hfacts⟩

end Sample

end DirectedPresence
