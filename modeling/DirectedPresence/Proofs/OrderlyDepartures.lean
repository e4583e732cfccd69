import DirectedPresence.Proofs.DepartureCompensation
import DirectedPresence.Proofs.Seclusion

/-!
A node that leaves the cluster is in order afterwards. Whatever it and the others did before, and
whatever the hub holds, its own cache gets the registries of its store, the hub loses the node and
what it owned and nothing else, nobody hears an event, and what the node's index showed of the
others is retracted once. From then on the node is secluded until it joins again.
-/

namespace DirectedPresence

namespace ReverseIndex

variable {index : ReverseIndex} {router : Router} {peer : NodeId} {sender receiver : Address}

/-! ## Letting all nodes depart -/

private theorem nodes_nodesDown (router : Router) (nodes : List NodeId) (index : ReverseIndex)
    (peer : NodeId) : (nodesDown router nodes index).1.nodes[peer]? =
      if peer ∈ nodes then none else index.nodes[peer]? := by
  induction nodes generalizing index with
  | nil => simp [nodesDown]
  | cons node nodes ih =>
    have hstep : (nodesDown router (node :: nodes) index).1 =
        (nodesDown router nodes (index.clearNode node)).1 := rfl
    rw [hstep, ih, clearNode, Std.ExtTreeMap.getElem?_erase]
    by_cases heq : node = peer
    · simp [heq]
    · have hne : ¬ peer = node := fun h => heq h.symm
      simp [heq, hne]

/-- An index that has let all of its nodes depart is blank. -/
theorem nodesDown_nodeIds (router : Router) (index : ReverseIndex) :
    (nodesDown router index.nodeIds index).1 = {} := by
  refine congrArg ReverseIndex.mk (Std.ExtTreeMap.ext_getElem? fun {peer} => ?_)
  rw [nodes_nodesDown]
  split
  · rfl
  · next habsent =>
    rw [nodeIds, Std.ExtTreeMap.mem_keys] at habsent
    exact Std.ExtTreeMap.getElem?_eq_none habsent

/-- What the index shows, each receiver with its sender and the node of the sender. -/
def triples (index : ReverseIndex) : List (NodeId × Address × Address) :=
  index.nodeIds.flatMap fun peer => (pairsOf (index.senders peer)).map fun pair => (peer, pair)

private theorem nodup_triples (index : ReverseIndex) : index.triples.Nodup := by
  rw [triples, List.nodup_flatMap]
  constructor
  · intro peer _
    exact (nodup_pairsOf _).map fun _ _ heq => (Prod.mk.inj heq).2
  · have hdistinct : index.nodeIds.Nodup := Std.ExtTreeMap.nodup_keys
    refine hdistinct.imp ?_
    intro first second hne triple hfirst hsecond
    obtain ⟨_, -, rfl⟩ := List.mem_map.mp hfirst
    obtain ⟨_, -, heq⟩ := List.mem_map.mp hsecond
    exact hne (Prod.mk.inj heq).1.symm

theorem mem_triples : (peer, sender, receiver) ∈ index.triples ↔
    ∃ receivers, index.receivers? peer sender = some receivers ∧ receiver ∈ receivers := by
  rw [triples, List.mem_flatMap]
  constructor
  · rintro ⟨other, -, hmem⟩
    obtain ⟨pair, hpair, heq⟩ := List.mem_map.mp hmem
    cases heq
    exact mem_pairsOf.mp hpair
  · rintro ⟨receivers, hshown, hmem⟩
    refine ⟨peer, ?_, List.mem_map.mpr ⟨(sender, receiver), ?_, rfl⟩⟩
    · by_contra habsent
      cases (receivers?_of_not_mem_nodeIds habsent sender).symm.trans hshown
    · exact mem_pairsOf.mpr ⟨receivers, hshown, hmem⟩

theorem senders_clearNode {node : NodeId} (hne : peer ≠ node) :
    (index.clearNode node).senders peer = index.senders peer := by
  have hne' : ¬ node = peer := fun h => hne h.symm
  simp [senders, clearNode, Std.ExtTreeMap.getElem?_erase, hne']

private theorem effects_nodesDown {nodes : List NodeId} (hdistinct : nodes.Nodup) :
    (nodesDown router nodes index).2.effects =
      nodes.flatMap fun peer => (pairsOf (index.senders peer)).map (retraction router) := by
  induction nodes generalizing index with
  | nil => rfl
  | cons node nodes ih =>
    rw [List.nodup_cons] at hdistinct
    have hrest : (nodesDown router nodes (index.clearNode node)).2.effects =
        nodes.flatMap fun peer => (pairsOf (index.senders peer)).map (retraction router) := by
      rw [ih hdistinct.2]
      apply List.flatMap_congr
      intro peer hmem
      have hne : peer ≠ node := by
        rintro rfl
        exact hdistinct.1 hmem
      rw [senders_clearNode hne]
    rw [List.flatMap_cons, ← hrest, ← effects_retractions router node]
    rfl

/-- Each triple is retracted once, whatever the router answers. -/
theorem effects_nodesDown_nodeIds (router : Router) (index : ReverseIndex) :
    (nodesDown router index.nodeIds index).2.effects =
      index.triples.map fun triple => retraction router triple.2 := by
  have hdistinct : index.nodeIds.Nodup := Std.ExtTreeMap.nodup_keys
  rw [effects_nodesDown hdistinct, triples, List.map_flatMap]
  simp only [List.map_map, Function.comp_def]

end ReverseIndex

namespace Seat

variable {env : Environment} {seat : Seat}

/-! ## Leaving -/

private theorem put_alone (env : Environment) {cache : LocalCache Feed}
    (hfault : seat.node.cache.faults = Faults.none)
    (backing : seat.node.cache.backing = .standalone cache)
    (hunheard : cache.listeners.registrations = []) (key : Address) (value : Registry) :
    seat.put env key value =
      { answer := .ok (cache.get? key)
        seat := seat.setCache { seat.node.cache with
          backing := .standalone { cache with data := cache.data.insert key value } } } := by
  simp [put, hfault, Faults.none, backing, afterLocal, Outcome.map, setCache,
    LocalCache.put_unheard _ hunheard, Change.refusals]

/-- Refilled, a cache that nobody listens to has the listed entries, and nobody hears of it. -/
theorem restore_alone {cache : LocalCache Feed} (hfault : seat.node.cache.faults = Faults.none)
    (backing : seat.node.cache.backing = .standalone cache)
    (hunheard : cache.listeners.registrations = []) (registries : List (Address × Registry)) :
    restore env registries seat =
      { answer := ()
        seat := seat.setCache { seat.node.cache with
          backing := .standalone { cache with data := cache.data.insertMany registries } } } := by
  induction registries generalizing seat cache with
  | nil =>
    obtain ⟨fabric, node⟩ := seat
    obtain ⟨server, settings, store, ⟨_, faults⟩, phase⟩ := node
    cases backing
    rfl
  | cons p rest ih =>
    obtain ⟨key, value⟩ := p
    have hput := put_alone env hfault backing hunheard key value
    have hfault' : (seat.put env key value).seat.node.cache.faults = Faults.none := by
      rw [hput]
      exact hfault
    have hbacking : (seat.put env key value).seat.node.cache.backing =
        .standalone { cache with data := cache.data.insert key value } := by
      rw [hput]
      rfl
    have hrest := ih hfault' hbacking hunheard
    rw [hput] at hrest
    rw [Std.ExtTreeMap.insertMany_cons]
    simp only [restore, hput, Outcome.andThen, hrest]
    rfl

/-- The seat of a node that is out of the hub and has put its store into a cache of its own. -/
def restored (seat : Seat) : Seat :=
  seat.detached.setCache ⟨.standalone
    { name := seat.node.settings.cacheName
      node := seat.node.id
      data := seat.node.store.registries }, {}⟩

private theorem insertMany_toList (data : AddressMap Registry) :
    (∅ : AddressMap Registry).insertMany data.toList = data := by
  apply Std.ExtTreeMap.ext_getElem?
  intro key
  cases hdata : data[key]? with
  | none =>
    have hunlisted : (data.toList.map Prod.fst).contains key = false := by
      rw [Std.ExtTreeMap.map_fst_toList_eq_keys, List.contains_eq_mem, decide_eq_false_iff_not,
        Std.ExtTreeMap.mem_keys]
      exact fun hmem => by simp [Std.ExtTreeMap.mem_iff_isSome_getElem?, hdata] at hmem
    rw [Std.ExtTreeMap.getElem?_insertMany_list_of_contains_eq_false hunlisted]
    rfl
  | some registry =>
    exact Std.ExtTreeMap.getElem?_insertMany_list_of_mem Std.ReflCmp.compare_self
      Std.ExtTreeMap.distinct_keys_toList
      (Std.ExtTreeMap.mem_toList_iff_getElem?_eq_some.mpr hdata)

private theorem restore_detached (env : Environment) (seat : Seat) :
    restore env seat.node.store.toList seat.detached = { answer := (), seat := seat.restored } := by
  rw [restore_alone rfl rfl rfl]
  simp only [Store.toList, insertMany_toList]
  rfl

/-- A node that leaves puts its cache in order before it blanks its index. -/
theorem leave_of_awake (env : Environment) (hawake : seat.node.server.shuttingDown = false) :
    seat.leave env =
      { answer := ()
        seat := (seat.restored.withIndex {}).setPhase .standalone
        trace := (ReverseIndex.nodesDown (seat.services env).router seat.index.nodeIds
          seat.index).2 } := by
  have hrestore := restore_detached env seat
  unfold detached at hrestore
  simp only [leave, hawake, Bool.false_eq_true, if_false, hrestore, Outcome.andThen,
    Orders.inForce_asListed, Shuffle.arrange_listing]
  rw [ReverseIndex.nodesDown_nodeIds]
  rfl

/-- What a node that leaves the cluster brings about. -/
structure LeavesInOrder (env : Environment) (before : Seat) (outcome : Outcome Answer) : Prop where
  stored : outcome.seat.node.store = before.node.store
  phase : outcome.seat.node.phase = .standalone
  /-- The cache is the node's own, nobody listens to it, and it lists the store. -/
  alone : ∃ cache : LocalCache Feed, outcome.seat.node.cache.backing = .standalone cache ∧
    cache.listeners.registrations = []
  entries : outcome.seat.entries = .ok before.node.store.toList
  members : ∀ node : NodeId, outcome.seat.fabric.hub.members[node]? =
    if node = before.node.id then none else before.fabric.hub.members[node]?
  /-- The hub loses the holdings of the node; every other one keeps its registry and its owner. -/
  data : ∀ sender : Address, outcome.seat.fabric.hub.data[sender]? =
    before.fabric.hub.data[sender]?.filter (·.owner ≠ before.node.id)
  silent : outcome.hearings = []
  /-- Each receiver that the index showed, of any sender of any node, is attempted once. -/
  retracted : ∃ triples : List (NodeId × Address × Address), triples.Nodup ∧
    (∀ peer sender receiver, (peer, sender, receiver) ∈ triples ↔
      ∃ receivers, before.index.receivers? peer sender = some receivers ∧
        receiver ∈ receivers) ∧
    outcome.trace.effects = triples.map fun triple =>
      ReverseIndex.retraction (env before.node.id).router triple.2
  blank : outcome.seat.index = {}
  others : ∀ node, node ≠ before.node.id →
    outcome.seat.fabric.index node = before.fabric.index node

private theorem leavesInOrder (env : Environment) (hawake : seat.node.server.shuttingDown = false) :
    seat.LeavesInOrder env (seat.perform env (.membership .localLeft)) := by
  have hperformed : seat.perform env (.membership .localLeft) =
      (seat.leave env).map fun _ => .done := rfl
  have hindex : ∀ node, ((seat.restored.withIndex {}).setPhase .standalone).fabric.index node =
      if seat.node.id = node then {} else seat.fabric.index node :=
    fun node => Fabric.index_setIndex _ _ node _
  rw [hperformed, leave_of_awake env hawake]
  refine ⟨rfl, rfl, ⟨_, rfl, rfl⟩, rfl, ?_, ?_, rfl, ?_, ?_, ?_⟩
  · intro node
    show (seat.fabric.hub.members.erase seat.node.id)[node]? = _
    simp only [Std.ExtTreeMap.getElem?_erase, Std.LawfulEqOrd.compare_eq_iff_eq,
      @eq_comm _ node seat.node.id]
  · exact fun sender => Hub.getElem?_withoutOwner seat.fabric.hub.data seat.node.id sender
  · exact ⟨_, ReverseIndex.nodup_triples seat.index, fun _ _ _ => ReverseIndex.mem_triples,
      ReverseIndex.effects_nodesDown_nodeIds (seat.services env).router seat.index⟩
  · exact (hindex seat.node.id).trans (if_pos rfl)
  · intro node hne
    exact (hindex node).trans (if_neg fun heq => hne heq.symm)

end Seat

namespace Cluster

variable {node : NodeId} {seat : Seat}

private theorem secluded_of_leaving {c : Cluster} (hnamed : seat.node.id = node)
    (hseat : c.seat? node = some seat) (hawake : seat.node.server.shuttingDown = false)
    (env : Environment) : (c.after ⟨env, node, .membership .localLeft⟩).Secluded node := by
  obtain ⟨-, -, ⟨cache, backing, -⟩, -, hmembers, -⟩ := Seat.leavesInOrder env hawake
  rw [after_of_seat? hseat]
  constructor
  · intro hmem
    have hnone := (hmembers node).trans (if_pos hnamed.symm)
    rw [Std.ExtTreeMap.mem_iff_isSome_getElem?] at hmem
    rw [setSeat, hnone] at hmem
    cases hmem
  · intro other hother
    rw [seat?_setSeat_self, Option.some.injEq] at hother
    rw [← hother, NodeCache.isClustered, backing]

/-- After any run, a node that leaves the cluster leaves in order. From then on, until the node
joins again, no other node and nothing that is done to the hub changes its record or its index. -/
theorem leaves_in_order (hubName : String) (members : List (Server × Settings))
    (steps : List Step) (hseat : ((start hubName members).run steps).seat? node = some seat)
    (hawake : seat.node.server.shuttingDown = false) (env : Environment) :
    seat.LeavesInOrder env (seat.perform env (.membership .localLeft)) ∧
      ∀ (later : List Step) (step : Step),
        (∀ step ∈ later, step.node = node → step.operation ≠ .membership .localJoined) →
        (step.node ≠ node ∨ step.operation.isHub = true) →
        let left := (start hubName members).run
          (steps ++ ⟨env, node, .membership .localLeft⟩ :: later)
        (left.after step).nodes[node]? = left.nodes[node]? ∧
          (left.after step).fabric.index node = left.fabric.index node := by
  have hwired : ((start hubName members).run steps).Wired := (wired_start hubName members).run steps
  refine ⟨Seat.leavesInOrder env hawake, ?_⟩
  intro later step hstays hforeign left
  have hleft : left = (((start hubName members).run steps).after
      ⟨env, node, .membership .localLeft⟩).run later := run_append _ steps _
  have hsecluded := secluded_of_leaving (hwired.named node seat hseat) hseat hawake env
  rw [hleft]
  exact ((hwired.after _).run later).undisturbed
    ((hwired.after _).secluded_run hsecluded hstays) hforeign

end Cluster

namespace Sample

/-- The second node of the sample run leaves, and takes back what the first one has delivered. -/
theorem second_leaves_in_order : ∃ seat,
    ((Cluster.start "hub" members).run steps).seat? ⟨"two"⟩ = some seat ∧
      seat.index.isEmpty = false ∧ seat.LeavesInOrder (fun _ => .agreeable)
        (seat.perform (fun _ => .agreeable) (.membership .localLeft)) := by
  have hrun : (((Cluster.start "hub" members).run steps).seat? ⟨"two"⟩).any (fun seat =>
      seat.node.server.shuttingDown = false ∧ seat.index.isEmpty = false) = true := by
    decide +kernel
  obtain ⟨seat, hseat, hfacts⟩ := (Option.any_eq_true _ _).mp hrun
  obtain ⟨hawake, hsome⟩ := of_decide_eq_true hfacts
  have hleaves := Cluster.leaves_in_order "hub" members steps hseat hawake fun _ => .agreeable
  exact ⟨seat, hseat, hsome, hleaves.1⟩

end Sample

end DirectedPresence
