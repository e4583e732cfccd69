import DirectedPresence.Proofs.ClusterRuns

/-!
The store and the cache of a node never diverge. Whatever the nodes of a cluster are asked to do,
in whatever order, each node reads from its cache what its store holds; outside the cluster its
cache is its store, and inside the cluster the holdings that it owns are its store.
-/

namespace DirectedPresence

/-- The store of a node and its cache say the same. -/
structure Seat.Coherent (host : Address → NodeId) (seat : Seat) : Prop where
  /-- The node reads of its own senders what its store holds. -/
  read : ∀ sender, host sender = seat.node.id →
    seat.get sender = .ok (seat.node.store.get? sender)
  phase : seat.node.phase = .standalone ∨ seat.node.phase = .clustered
  /-- Outside the cluster the cache lists the store, and the hub has nothing of the node. -/
  standalone : seat.node.phase = .standalone →
    seat.entries = .ok seat.node.store.toList ∧
      ∀ (sender : Address) (holding : Holding),
        seat.fabric.hub.data[sender]? = some holding → holding.owner ≠ seat.node.id
  /-- In the cluster the holdings of the node are those of its store, and no others. -/
  clustered : seat.node.phase = .clustered → ∀ sender,
    (seat.fabric.hub.data[sender]?.filter fun holding => holding.owner = seat.node.id) =
      (seat.node.store.get? sender).map (.of seat.node.id)
  /-- Whatever the store or the cache holds of a sender is proper for the sender's host. -/
  proper : ∀ (sender : Address) (registry : Registry),
    seat.node.store.get? sender = some registry ∨ seat.get sender = .ok (some registry) →
      registry.Proper (host sender)

namespace Seat

variable {host : Address → NodeId} {seat : Seat} {ledger : Ledger}

theorem Sound.phase_eq_standalone (h : seat.Sound host) (hsettled : seat.Settled)
    (hphase : seat.node.phase = .standalone) : ∃ cache : LocalCache Feed,
      seat.node.cache.backing = .standalone cache ∧ seat.node.id ∉ seat.fabric.hub.members := by
  cases h.posture with
  | alone cache backing _ _ absent => exact ⟨cache, backing, absent⟩
  | member view backing =>
    have hclustered := isClustered_eq_true_iff.mpr ⟨view, backing⟩
    rw [Settled, hphase, if_pos hclustered] at hsettled
    cases hsettled

theorem Sound.phase_eq_clustered (h : seat.Sound host) (hsettled : seat.Settled)
    (hphase : seat.node.phase = .clustered) : ∃ view : View,
      seat.node.cache.backing = .clustered view ∧ seat.node.id ∈ seat.fabric.hub.members := by
  cases h.posture with
  | alone cache backing =>
    have halone : seat.node.cache.isClustered = false := by
      simp only [NodeCache.isClustered, backing]
    rw [Settled, hphase, halone] at hsettled
    cases hsettled
  | member view backing _ present => exact ⟨view, backing, present⟩

/-- The cache of a node that stands alone is its store. -/
theorem Tracks.entries_alone (h : seat.Sound host) (ht : seat.Tracks host ledger)
    {cache : LocalCache Feed} (backing : seat.node.cache.backing = .standalone cache) :
    seat.entries = .ok seat.node.store.toList := by
  have hfault : seat.node.cache.faults.entries = false := by rw [h.faultless]; rfl
  have hdata : cache.data = seat.node.store.registries := by
    apply Std.ExtTreeMap.ext_getElem?
    intro sender
    by_cases hosted : host sender = seat.node.id
    · have hagree := (ht sender hosted).1
      simp only [cached, backing] at hagree
      exact hagree.symm
    · have hnocache : cache.data[sender]? = none := by
        rw [Option.eq_none_iff_forall_not_mem]
        exact fun registry hcached => hosted (h.own cache sender registry backing hcached).1
      have hnostore : seat.node.store.registries[sender]? = none := by
        rw [Option.eq_none_iff_forall_not_mem]
        exact fun registry hstored => hosted (h.stored sender registry hstored).1
      rw [hnocache, hnostore]
  simp only [entries, hfault, backing, LocalCache.entries, hdata, Store.toList,
    Bool.false_eq_true, if_false]

/-- The holdings of a member are its store. -/
theorem Tracks.holdings_member (h : seat.Sound host) (ht : seat.Tracks host ledger) {view : View}
    (backing : seat.node.cache.backing = .clustered view) (sender : Address) :
    (seat.fabric.hub.data[sender]?.filter fun holding => holding.owner = seat.node.id) =
      (seat.node.store.get? sender).map (.of seat.node.id) := by
  by_cases hosted : host sender = seat.node.id
  · have hagree := (ht sender hosted).1
    simp only [cached, backing] at hagree
    cases hholding : seat.fabric.hub.data[sender]? with
    | none =>
      rw [hagree, Hub.lookup_eq_none hholding]
      rfl
    | some holding =>
      obtain ⟨-, registry, rfl, -⟩ := h.held sender holding hholding
      rw [hagree, Hub.lookup_of_getElem? hholding]
      simp [Option.filter, hosted]
  · have hnostore : seat.node.store.get? sender = none := by
      rw [Option.eq_none_iff_forall_not_mem]
      exact fun registry hstored => hosted (h.stored sender registry hstored).1
    rw [hnostore]
    cases hholding : seat.fabric.hub.data[sender]? with
    | none => rfl
    | some holding =>
      obtain ⟨-, registry, rfl, -⟩ := h.held sender holding hholding
      simp [Option.filter, hosted]

/-- A sound seat whose store and cache agree is coherent. -/
theorem Tracks.coherent (h : seat.Sound host) (hsettled : seat.Settled)
    (ht : seat.Tracks host ledger) : seat.Coherent host where
  read := by
    intro sender hosted
    rw [h.steady.get sender, (ht sender hosted).1]
  phase := by
    rw [hsettled]
    cases seat.node.cache.isClustered with
    | false => exact Or.inl rfl
    | true => exact Or.inr rfl
  standalone := by
    intro hphase
    obtain ⟨cache, backing, absent⟩ := h.phase_eq_standalone hsettled hphase
    refine ⟨ht.entries_alone h backing, ?_⟩
    intro sender holding hholding howner
    obtain ⟨hmember, registry, rfl, -⟩ := h.held sender holding hholding
    have hid : host sender = seat.node.id := howner
    rw [hid] at hmember
    exact absent hmember
  clustered := by
    intro hphase
    obtain ⟨view, backing, -⟩ := h.phase_eq_clustered hsettled hphase
    exact ht.holdings_member h backing
  proper := by
    intro sender registry hheld
    rcases hheld with hstored | hread
    · obtain ⟨hosted, hproper⟩ := h.stored sender registry hstored
      rwa [hosted]
    · rw [h.steady.get sender, Except.ok.injEq] at hread
      cases hb : seat.node.cache.backing with
      | standalone cache =>
        simp only [cached, hb] at hread
        obtain ⟨hosted, hproper⟩ := h.own cache sender registry hb hread
        rwa [hosted]
      | clustered view =>
        simp only [cached, hb] at hread
        exact h.steady.lookup_proper hread

end Seat

namespace Cluster

/-- Every run of dispatcher calls, sweeps and changes of membership, in any order and with any
services, leaves the store and the cache of every node coherent. -/
theorem coherent_of_run (host : Address → NodeId) (hubName : String)
    {members : List (Server × Settings)} (hawake : ∀ p ∈ members, p.1.shuttingDown = false)
    {steps : List Step} (hsteps : ∀ step ∈ steps, step.Ordinary host) (node : NodeId)
    {seat : Seat} (hseat : ((start hubName members).run steps).seat? node = some seat) :
    seat.node.id = node ∧ seat.Coherent host := by
  obtain ⟨hid, hsound, hsettled, htracks⟩ := seat_of_run host hubName hawake hsteps hseat
  exact ⟨hid, htracks.coherent hsound hsettled⟩

/-- A node that has joined after it delivered a directed presence. -/
theorem coherent_after_joining : ∃ seat,
    ((start "hub" Sample.members).run Sample.steps).seat? ⟨"one"⟩ = some seat ∧
      (seat.node.phase = .clustered ∧ seat.node.store.size = 1) ∧ seat.Coherent Sample.host := by
  have hrun : (((start "hub" Sample.members).run Sample.steps).seat? ⟨"one"⟩).any
      (fun seat => seat.node.phase = .clustered ∧ seat.node.store.size = 1) = true := by
    decide +kernel
  obtain ⟨seat, hseat, hfacts⟩ := (Option.any_eq_true _ _).mp hrun
  have hcoherent := coherent_of_run Sample.host "hub" Sample.members_awake
    Sample.steps_ordinary ⟨"one"⟩ hseat
  exact ⟨seat, hseat, of_decide_eq_true hfacts, hcoherent.2⟩

end Cluster

end DirectedPresence
