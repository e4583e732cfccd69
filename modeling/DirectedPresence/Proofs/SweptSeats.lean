import DirectedPresence.Proofs.CommutingCalls
import DirectedPresence.Proofs.Sweeps

/-!
What a sweep comes to, for the node, for the hub and for whoever listens. As long as every sender is
used on its host only, the store and the cache of a node agree, so a sweep finds in the cache what
it found in the store. It makes one call on the cache for each sender that has an entry of an
unserved handler (`Seat.stale`), and none for the others; nothing else becomes of the hub, and
nothing else is heard. A second sweep finds every handler served and does nothing (`Seat.Swept`).
-/

namespace DirectedPresence

/-- The call on the cache that prunes a sender with this registry. -/
def Registry.pruning (routes : Routes) (sender : Address) (r : Registry) : CacheCall :=
  match r.served? routes with
  | some left => .put sender left
  | none => .remove sender

private theorem Registry.target?_pruning (routes : Routes) (sender : Address) (r : Registry) :
    (r.pruning routes sender).target? = some sender := by
  unfold pruning
  split <;> rfl

/-! ## What is heard -/

namespace Hub

variable {L σ : Type} {react : Reaction L σ} {hub : Hub L} {world : σ} {hearing : Hearing L}

private theorem event_of_mem_tell {event : CacheEvent} {nodes : List NodeId}
    (hmem : hearing ∈ (tell react event nodes hub world).2.2) :
    hearing.event = hearing.registration.view event := by
  induction nodes generalizing hub world with
  | nil => simp [tell] at hmem
  | cons node nodes ih =>
    unfold tell at hmem
    split at hmem
    · exact ih hmem
    · rcases List.mem_append.mp hmem with hfirst | hrest
      · exact Listeners.event_of_mem_deliver hfirst
      · exact ih hrest

/-- Whatever is heard is the event of an act. -/
theorem Holds.event_of_mem_run {contents : Contents} (h : hub.Holds contents)
    {acts : List (HubAct L)} (hmem : hearing ∈ (hub.run react acts world).hearings) :
    ∃ act ∈ acts, ∃ contents : Contents, ∃ event ∈ act.event? contents,
      hearing.event = hearing.registration.view event := by
  induction acts generalizing hub contents world with
  | nil => cases hmem
  | cons act acts ih =>
    rcases List.mem_append.mp hmem with hfirst | hrest
    · rw [h.perform_eq react act world] at hfirst
      refine ⟨act, List.mem_cons_self, contents, ?_⟩
      cases hevent : act.event? contents with
      | none =>
        simp only [hevent, announce] at hfirst
        cases hfirst
      | some event =>
        simp only [hevent, announce] at hfirst
        exact ⟨event, rfl, event_of_mem_tell hfirst⟩
    · obtain ⟨later, hlater, hheard⟩ := ih (h.perform react act world) hrest
      exact ⟨later, List.mem_cons_of_mem act hlater, hheard⟩

end Hub

namespace Seat

variable {host : Address → NodeId} {env : Environment} {seat seat' : Seat} {routes : Routes}
  {sender : Address} {registry : Registry} {registries : List (Address × Registry)}

private theorem Steady.unheard (h : seat.Steady host) : seat.Unheard := by
  intro cache hbacking
  cases h.stance with
  | alone own backing _ unheard =>
    rw [backing] at hbacking
    cases hbacking
    exact unheard
  | viewing view backing =>
    rw [backing] at hbacking
    cases hbacking

/-! ## Sweeps -/

/-- The registries of the store that have an entry of an unserved handler. -/
def stale (routes : Routes) (seat : Seat) : List (Address × Registry) :=
  seat.node.store.toList.filter fun p => !p.2.isServed routes

/-- A cached copy of which entries go is written once. -/
theorem Unheard.comes_sweepCached (h : seat.Unheard)
    (hfaults : seat.node.cache.faults = Faults.none) (hget : seat.get sender = .ok (some registry))
    (hstale : registry.isServed (seat.services env).routes = false) :
    (seat.sweepCached env sender).Comes env seat
      (seat.calls (registry.pruning (seat.services env).routes sender)) := by
  have hdropped : (registry.retain (HandlerEntry.isServed (seat.services env).routes)).2 ≠ 0 := by
    rw [Registry.count_retain_served, ne_eq, Registry.unserved_eq_zero_iff, hstale]
    exact Bool.false_ne_true
  unfold sweepCached
  simp only [hget, if_neg hdropped]
  split
  · next hempty =>
    have hgone : registry.served? (seat.services env).routes = none := if_pos hempty
    simp only [Registry.pruning, hgone]
    exact (h.comes_remove (congrArg Faults.remove hfaults) sender).map _
  · next hleft =>
    have hkept : registry.served? (seat.services env).routes = some _ := if_neg hleft
    simp only [Registry.pruning, hkept]
    exact (h.comes_put (congrArg Faults.put hfaults) sender _).map _

private theorem Unheard.comes_sweepSender (h : seat.Unheard)
    (hfaults : seat.node.cache.faults = Faults.none) (hget : seat.get sender = .ok (some registry))
    (hstale : registry.isServed (seat.services env).routes = false) :
    (seat.sweepSender env sender).Comes env seat
      (seat.calls (registry.pruning (seat.services env).routes sender)) := by
  have hcached : ∀ store : Store, ((seat.setStore store).sweepCached env sender).Comes env
      (seat.setStore store) (seat.calls (registry.pruning (seat.services env).routes sender)) := by
    intro store
    have hunheard : (seat.setStore store).Unheard := h
    exact hunheard.comes_sweepCached hfaults hget hstale
  unfold sweepSender
  rw [← List.append_nil (seat.calls _)]
  exact (hcached _).of_setStore.andThen ⟨rfl, rfl, rfl⟩

/-- The cached copies of these senders are the store's, so each stale one is written once. -/
theorem Steady.comes_sweepEach (h : seat.Steady host)
    (hdistinct : (registries.map Prod.fst).Nodup)
    (hstored : ∀ p ∈ registries, seat.node.store.get? p.1 = some p.2)
    (hcopies : ∀ p ∈ registries, seat.cached p.1 = some p.2) :
    (Seat.sweepEach env registries seat).Comes env seat
      ((registries.filter fun p => !p.2.isServed (seat.services env).routes).flatMap fun p =>
        seat.calls (p.2.pruning (seat.services env).routes p.1)) := by
  induction registries generalizing seat with
  | nil => exact Outcome.comes_nil rfl
  | cons p rest ih =>
    obtain ⟨sender, registry⟩ := p
    obtain ⟨hnew, hdistinct⟩ := List.nodup_cons.mp hdistinct
    have hfirst := hstored (sender, registry) (by simp)
    have hcopy := hcopies (sender, registry) (by simp)
    rw [Seat.sweepEach]
    cases hserved : registry.entries.all (HandlerEntry.isServed (seat.services env).routes) with
    | true =>
      rw [if_pos rfl, List.filter_cons_of_neg (by simpa [Registry.isServed] using hserved)]
      exact ih h hdistinct (fun q hq => hstored q (by simp [hq]))
        fun q hq => hcopies q (by simp [hq])
    | false =>
      have hhosted := (h.stored sender registry hfirst).1
      have hedits : Edits env host seat (seat.sweepSender env sender).seat :=
        h.edits_sweepSender hhosted
      have hsame := Edits.sameNode hedits
      have hget : seat.get sender = .ok (some registry) := by rw [h.get, hcopy]
      -- The list was made before the sweep; the senders still to come are as it has them.
      have hkept := h.kept_sweepSender env hhosted hnew fun q hq => hstored q (by simp [hq])
      have hrest := ih (h.edits hedits) hdistinct (fun q hq => (hkept q hq).1) fun q hq => by
        rw [(hkept q hq).2]
        exact hcopies q (by simp [hq])
      rw [hsame.calls, Seat.services, hsame.id] at hrest
      rw [if_neg Bool.false_ne_true,
        List.filter_cons_of_pos (by simpa [Registry.isServed] using hserved), List.flatMap_cons]
      exact (h.unheard.comes_sweepSender h.faultless hget hserved).andThen (hrest.map _)

/-- Where all entries are served there is nothing to sweep. -/
theorem sweepEach_of_served (env : Environment) (seat : Seat)
    (hserved : ∀ p ∈ registries, p.2.isServed (seat.services env).routes = true) :
    sweepEach env registries seat = { answer := 0, seat } := by
  induction registries with
  | nil => rfl
  | cons p rest ih =>
    have hfirst : p.2.entries.all (HandlerEntry.isServed (seat.services env).routes) = true :=
      hserved p (by simp)
    rw [sweepEach, if_pos hfirst]
    exact ih fun q hq => hserved q (by simp [hq])

/-- What a sweep comes to. -/
structure Swept (host : Address → NodeId) (env : Environment) (seat : Seat)
    (outcome : Outcome Answer) : Prop where
  /-- Of every hosted sender the store and the cache have the same, and are left with the entries
  whose handler is served. -/
  kept : ∀ sender, host sender = seat.node.id →
    let left := (seat.node.store.get? sender).bind (Registry.served? (seat.services env).routes)
    seat.get sender = .ok (seat.node.store.get? sender) ∧
      outcome.seat.node.store.get? sender = left ∧ outcome.seat.get sender = .ok left
  /-- The entries that went from the store are counted. -/
  counted : outcome.answer = .count
    (seat.node.store.toList.map fun p => p.2.unserved (seat.services env).routes).sum
  /-- The cache is called once for each sender that lost an entry, and for no other. -/
  called : outcome.Comes env seat ((seat.stale (seat.services env).routes).flatMap fun p =>
    seat.calls (p.2.pruning (seat.services env).routes p.1))
  /-- Whatever is heard is about a sender that lost an entry. -/
  heard : ∀ hearing ∈ outcome.hearings, ∃ p ∈ seat.stale (seat.services env).routes,
    ∃ event : CacheEvent, event.Concerns p.1 ∧ hearing.event = hearing.registration.view event
  /-- What other nodes have in the hub stays there. -/
  others : ∀ sender : Address,
    (outcome.seat.fabric.hub.data[sender]?.filter fun holding => holding.owner ≠ seat.node.id) =
      seat.fabric.hub.data[sender]?.filter fun holding => holding.owner ≠ seat.node.id
  /-- No stanza is sent, and no other service is called. -/
  silent : outcome.trace.effects = []
  /-- A second sweep, while the same handlers are served, does nothing. -/
  again : ∀ env' : Environment,
    (∀ handler, (env' seat.node.id).routes.reaches handler =
      (env seat.node.id).routes.reaches handler) →
    outcome.seat.perform env' .sweep = { answer := .count 0, seat := outcome.seat }

/-- The holdings of a hosted sender are the node's own. -/
theorem Steady.filter_owner (h : seat.Steady host) (hosted : host sender = seat.node.id) :
    (seat.fabric.hub.data[sender]?.filter fun holding => holding.owner ≠ seat.node.id) = none := by
  cases hdata : seat.fabric.hub.data[sender]? with
  | none => rfl
  | some holding =>
    obtain ⟨registry, rfl, -⟩ := h.written sender holding hdata
    simp [Option.filter, hosted]

private theorem Tracks.swept {ledger : Ledger} {contents : Contents} (h : seat.Sound host)
    (ht : seat.Tracks host ledger) (hholds : seat.fabric.hub.Holds contents) (env : Environment) :
    seat.Swept host env (seat.perform env .sweep) := by
  have hsteady := h.steady
  have hcopies : ∀ sender, host sender = seat.node.id →
      seat.cached sender = seat.node.store.get? sender :=
    fun sender hosted => (ht sender hosted).1.symm
  have hstored : ∀ p ∈ seat.node.store.toList, seat.node.store.get? p.1 = some p.2 :=
    fun p hp => Store.mem_toList_iff.mp hp
  have hedits : Edits env host seat (seat.sweep env).seat :=
    hsteady.edits_sweepEach fun p hp => (hsteady.hosted_of_mem_toList hp).1
  have hafter : (seat.sweep env).seat.Steady host := hsteady.edits hedits
  obtain ⟨hid, hanswer, hleft⟩ :=
    hsteady.sweep env fun sender hosted => .inr (hcopies sender hosted)
  have hcalled : (seat.sweep env).Comes env seat _ :=
    hsteady.comes_sweepEach seat.node.store.nodup_toList hstored fun p hp =>
      (hcopies p.1 (hsteady.hosted_of_mem_toList hp).1).trans (hstored p hp)
  refine ⟨?_, congrArg Answer.count hanswer, hcalled.map _, ?_, ?_, ?_, ?_⟩
  · intro sender hosted left
    obtain ⟨hstore, hcache⟩ := hleft sender hosted
    refine ⟨by rw [hsteady.get, hcopies sender hosted], hstore, ?_⟩
    rw [hcopies sender hosted] at hcache
    exact (hafter.get sender).trans (congrArg Except.ok hcache)
  · intro hearing hmem
    have hmem : hearing ∈ (seat.sweep env).hearings := hmem
    rw [hcalled.hearings] at hmem
    obtain ⟨act, hact, contents, event, hevent, hview⟩ := hholds.event_of_mem_run hmem
    obtain ⟨p, hp, hact⟩ := List.mem_flatMap.mp hact
    obtain ⟨view, -, rfl⟩ := mem_calls.mp hact
    have htarget := Registry.target?_pruning (seat.services env).routes p.1 p.2
    exact ⟨p, hp, event, CacheCall.concerns_event? htarget hevent, hview⟩
  · intro sender
    by_cases hosted : host sender = seat.node.id
    · have hnone := hafter.filter_owner (hosted.trans hid.symm)
      rw [hid] at hnone
      exact hnone.trans (hsteady.filter_owner hosted).symm
    · exact congrArg _ (hsteady.data_edits hedits hosted)
  · have hdeals : Deals env seat.node.server (fun _ => True) (fun _ => False) (fun _ => True)
        fun seat => seat.sweep env := deals_sweep fun _ => trivial
    exact List.eq_nil_iff_forall_not_mem.mpr (hdeals.tells_of rfl trivial)
  · intro env' hroutes
    have hserved : ∀ p ∈ (seat.sweep env).seat.node.store.toList,
        p.2.isServed ((seat.sweep env).seat.services env').routes = true := by
      intro p hp
      have hosted : host p.1 = seat.node.id := (hafter.hosted_of_mem_toList hp).1.trans hid
      have hbind := (hleft p.1 hosted).1.symm.trans (Store.mem_toList_iff.mp hp)
      obtain ⟨registry, -, hregistry⟩ := Option.bind_eq_some_iff.mp hbind
      rw [services, hid, Registry.isServed_congr hroutes]
      exact Registry.isServed_of_served? hregistry
    exact congrArg (Outcome.map Answer.count) (sweepEach_of_served env' _ hserved)

end Seat

/-- After every run of dispatcher calls, sweeps and changes of membership, in any order and with any
services, a sweep prunes exactly the handlers that are served nowhere, in the store and in the
cache, and once. -/
theorem Cluster.sweeps_once (host : Address → NodeId) (hubName : String)
    {members : List (Server × Settings)} (hawake : ∀ p ∈ members, p.1.shuttingDown = false)
    {steps : List Step} (hsteps : ∀ step ∈ steps, step.Ordinary host) (node : NodeId)
    {seat : Seat} (hseat : ((start hubName members).run steps).seat? node = some seat)
    (env : Environment) :
    seat.node.id = node ∧ seat.Swept host env (seat.perform env .sweep) := by
  obtain ⟨hid, hsound, -, htracks⟩ := seat_of_run host hubName hawake hsteps hseat
  have hcalm := ((calm_start hubName members).run steps).at_seat hseat
  obtain ⟨contents, hholds⟩ := hcalm.fabric.holds
  exact ⟨hid, htracks.swept hsound hholds env⟩

namespace Sample

def deserted : Services :=
  { Services.agreeable with routes := ⟨fun _ => false, fun _ => false⟩ }

/-- A node whose only handler is gone sweeps its only sender away. -/
theorem handler_swept : ∃ seat,
    ((Cluster.start "hub" members).run steps).seat? ⟨"one"⟩ = some seat ∧
      (seat.node.store.get? sender).isSome = true ∧
      (seat.perform (fun _ => deserted) .sweep).answer = .count 1 ∧
      seat.Swept host (fun _ => deserted) (seat.perform (fun _ => deserted) .sweep) := by
  have hrun : (((Cluster.start "hub" members).run steps).seat? ⟨"one"⟩).any (fun seat =>
      (seat.node.store.get? sender).isSome = true ∧
        (seat.perform (fun _ => deserted) .sweep).answer = .count 1) = true := by
    decide +kernel
  obtain ⟨seat, hseat, hfacts⟩ := (Option.any_eq_true _ _).mp hrun
  obtain ⟨hstored, hanswer⟩ := of_decide_eq_true hfacts
  have hswept := Cluster.sweeps_once host "hub" members_awake steps_ordinary ⟨"one"⟩ hseat
    fun _ => deserted
  exact ⟨seat, hseat, hstored, hanswer, hswept.2⟩

end Sample

end DirectedPresence
