import Mathlib.Algebra.BigOperators.Group.Finset.Basic
import Mathlib.Algebra.GroupWithZero.Nat
import DirectedPresence.Proofs.MembershipSteps
import DirectedPresence.Proofs.Sweeps
import DirectedPresence.Proofs.TrackedPairs

/-!
Sweeps and changes of membership, as steps of a ledger. A sweep keeps the pairs whose handler is
served somewhere and counts the handlers that are not. A node that joins or leaves the cluster
refills its new cache from its store, so that both still hold the pairs of the same ledger.
-/

namespace DirectedPresence.Seat

variable {host : Address → NodeId} {env : Environment} {seat seat' : Seat} {ledger : Ledger}

/-! ## Sweeps -/

/-- A sweep keeps the pairs whose handler is served, and counts the handlers that are not. -/
theorem Tracks.sweep (h : seat.Sound host) (ht : seat.Tracks host ledger) :
    (seat.sweep env).answer = ∑ sender ∈ seat.node.store.senders.toFinset,
        (ledger.lost (seat.services env).routes sender).card ∧
      (seat.sweep env).seat.Tracks host (ledger.reached (seat.services env).routes) := by
  obtain ⟨hid, hanswer, hleft⟩ :=
    h.steady.sweep env fun sender hosted => Or.inr (ht sender hosted).1.symm
  constructor
  · rw [hanswer, List.sum_toFinset _ seat.node.store.nodup_senders, ← Store.map_fst_toList,
      List.map_map]
    congr 1
    refine List.map_congr_left fun p hp => ?_
    obtain ⟨hosted, hproper⟩ := h.steady.hosted_of_mem_toList hp
    obtain ⟨hagree, hledger⟩ := ht p.1 hosted
    have hpairs : p.2.pairSet = ledger p.1 := by
      rw [← hledger, ← hagree, Store.mem_toList_iff.mp hp]
      rfl
    rw [hproper.regular.unserved_eq_card, hpairs]
    rfl
  · intro sender hosted
    rw [hid] at hosted
    obtain ⟨hstore, hcache⟩ := hleft sender hosted
    obtain ⟨hagree, hledger⟩ := ht sender hosted
    rw [hstore, hcache, hagree]
    refine ⟨rfl, ?_⟩
    rw [Registry.pairsOf_bind fun registry hcached =>
      (h.steady.cached_proper hosted hcached).regular.pairsOf_served? _, hledger]
    rfl

/-! ## Every operation -/

private theorem Tracks.deed (h : seat.Sound host) (ht : seat.Tracks host ledger) {ledger' : Ledger}
    {operation : Operation}
    (hosted : ∀ sender, operation.tracked? = some sender → host sender = seat.node.id)
    (hdeed : Deed env seat ledger operation seat' ledger') : seat'.Tracks host ledger' := by
  cases hdeed with
  | idle => exact ht
  | record delivery delivered =>
    have hsender := hosted _ (Operation.sender_of_delivery? delivered).1
    exact ht.recordPair h hsender delivery.kind delivery.handler delivery.receiver
  | forget sender => exact ht.forgetting h sender
  | remove owner recipient tracked => exact (ht.removeDirected h (hosted owner tracked) recipient).2
  | drop account contact => exact ht.dropAccount h account contact
  | sweep => exact (ht.sweep h).2

/-- A dispatcher call or a sweep takes the ledger to the one after it. -/
theorem Tracks.perform (h : seat.Sound host) (ht : seat.Tracks host ledger)
    {operation : Operation} (hkind : operation.isTracking = true)
    (hosted : ∀ sender, operation.tracked? = some sender → host sender = seat.node.id) :
    (seat.perform env operation).seat.Tracks host
      (ledger.after (seat.services env) seat.node.server operation) :=
  ht.deed h hosted (perform_deed hkind)

theorem Tracks.hasDirected (h : seat.Sound host) (ht : seat.Tracks host ledger)
    {owner : Address} (hosted : host owner = seat.node.id) (recipient : Address) :
    (seat.hasDirected owner recipient).answer =
      decide (∃ pair ∈ ledger owner, pair.2.sameBare recipient = true) := by
  rw [Bool.eq_iff_iff, decide_eq_true_eq, ← (ht owner hosted).2]
  simp only [Seat.hasDirected, h.steady.get owner]
  cases seat.cached owner with
  | none => simp [Registry.pairsOf]
  | some registry => exact Registry.hasAccount_iff

/-! ## Refilling -/

private theorem cached_restore {registries : List (Address × Registry)} (h : seat.Steady host)
    (hproper : ∀ p ∈ registries, host p.1 = seat.node.id ∧ p.2.Proper seat.node.id)
    {sender : Address} {value : Option Registry}
    (hlisted : ∀ registry, (sender, registry) ∈ registries → value = some registry)
    (hunlisted : (∀ registry, (sender, registry) ∉ registries) → seat.cached sender = value) :
    (restore env registries seat).seat.cached sender = value := by
  induction registries generalizing seat with
  | nil => exact hunlisted (by simp)
  | cons p rest ih =>
    obtain ⟨first, registry⟩ := p
    obtain ⟨hosted, hp⟩ := hproper (first, registry) (by simp)
    have hid := (sameNode_put seat env first registry).id
    apply ih (h.put hosted hp)
    · intro q hq
      rw [hid]
      exact hproper q (by simp [hq])
    · intro other hmem
      exact hlisted other (by simp [hmem])
    · intro hnone
      rw [h.cached_put]
      by_cases heq : first = sender
      · rw [if_pos heq]
        exact (hlisted registry (by simp [heq])).symm
      · rw [if_neg heq]
        apply hunlisted
        intro other hmem
        rcases List.mem_cons.mp hmem with hsame | hrest
        · exact heq (Prod.mk.inj hsame).1.symm
        · exact hnone other hrest

@[simp] theorem store_restore (registries : List (Address × Registry)) (seat : Seat) :
    (restore env registries seat).seat.node.store = seat.node.store := by
  induction registries generalizing seat with
  | nil => rfl
  | cons p rest ih => exact (ih _).trans (store_put seat env p.1 p.2)

/-- A cache that is refilled from the store holds what the store holds, if it held nothing else. -/
theorem Steady.cached_refill (h : seat.Steady host) {sender : Address}
    (hbase : seat.node.store.get? sender = none → seat.cached sender = none) :
    (restore env seat.node.store.toList seat).seat.cached sender =
      seat.node.store.get? sender := by
  apply cached_restore h (fun p hp => h.hosted_of_mem_toList hp)
  · exact fun registry hlisted => Store.mem_toList_iff.mp hlisted
  · intro hunlisted
    have hnone : seat.node.store.get? sender = none := by
      rw [Option.eq_none_iff_forall_not_mem]
      exact fun registry hstored => hunlisted registry (Store.mem_toList_iff.mpr hstored)
    rw [hnone, hbase hnone]

private theorem cached_congr (hcache : seat'.node.cache = seat.node.cache)
    (hdata : seat'.fabric.hub.data = seat.fabric.hub.data) (sender : Address) :
    seat'.cached sender = seat.cached sender := by
  simp only [cached, Hub.lookup, hcache, hdata]

/-- Outside the cluster a node has nothing in the hub. -/
theorem Steady.cached_entered (h : seat.Steady host) {sender : Address}
    (hosted : host sender = seat.node.id) (hnone : seat.cached sender = none) :
    (seat.entered env).cached sender = none := by
  show seat.fabric.hub.lookup sender = none
  cases h.stance with
  | alone _ _ _ _ unheld => exact Hub.lookup_eq_none (unheld sender hosted)
  | viewing view backing => simpa only [cached, backing] using hnone

private theorem store_join (env : Environment) (seat : Seat) :
    (seat.join env).seat.node.store = seat.node.store := by
  obtain ⟨indexes, hseed⟩ := seat_seedIndex env (seat.refilled env)
  rw [seat_join, hseed]
  exact store_restore seat.node.store.toList (seat.entered env)

private theorem cached_join (env : Environment) (seat : Seat) (sender : Address) :
    (seat.join env).seat.cached sender = (seat.refilled env).cached sender := by
  obtain ⟨indexes, hseed⟩ := seat_seedIndex env (seat.refilled env)
  rw [seat_join, hseed]
  refine cached_congr ?_ ?_ sender
  · rfl
  · exact Hub.data_addListener _ _ _ _

theorem Steady.store_handle (h : seat.Steady host) (event : MembershipEvent) :
    (seat.handle env event).seat.node.store = seat.node.store := by
  cases event with
  | localJoined => exact store_join env seat
  | localLeft =>
    show (seat.leave env).seat.node.store = seat.node.store
    rw [seat_leave env h.awake]
    exact store_restore seat.node.store.toList seat.detached
  | remoteJoined peer => rfl
  | remoteLeft peer => rfl

/-- A change of membership leaves the cache as it is, or refills it from the store. -/
theorem Steady.cached_handle (h : seat.Steady host)
    (hplain : (env seat.node.id).viewFaults = Faults.none) (event : MembershipEvent)
    {sender : Address} (hosted : host sender = seat.node.id)
    (hbase : seat.node.store.get? sender = none → seat.cached sender = none) :
    (seat.handle env event).seat.cached sender = seat.cached sender ∨
      (seat.handle env event).seat.cached sender = seat.node.store.get? sender := by
  cases event with
  | localJoined =>
    have hentered : (seat.entered env).Steady host := h.entered hplain
    right
    exact (cached_join env seat sender).trans
      (hentered.cached_refill fun hnone => h.cached_entered hosted (hbase hnone))
  | localLeft =>
    right
    show (seat.leave env).seat.cached sender = _
    rw [seat_leave env h.awake]
    exact h.detached.cached_refill fun _ => rfl
  | remoteJoined peer => exact Or.inl rfl
  | remoteLeft peer => exact Or.inl rfl

/-- No event of the cluster's membership changes what a node tracks. -/
theorem Tracks.handle (h : seat.Sound host) (ht : seat.Tracks host ledger)
    (hplain : (env seat.node.id).viewFaults = Faults.none) (event : MembershipEvent) :
    (seat.handle env event).seat.Tracks host ledger := by
  intro sender hsender
  have hosted : host sender = seat.node.id :=
    hsender.trans (h.steady.handle hplain event).2.id
  obtain ⟨hagree, hledger⟩ := ht sender hosted
  have hsame : (seat.handle env event).seat.cached sender = seat.cached sender := by
    rcases h.steady.cached_handle hplain event hosted fun hnone => hagree ▸ hnone with
      hkept | hrefilled
    · exact hkept
    · rw [hrefilled, hagree]
  rw [h.steady.store_handle, hsame]
  exact ⟨hagree, hledger⟩

end DirectedPresence.Seat
