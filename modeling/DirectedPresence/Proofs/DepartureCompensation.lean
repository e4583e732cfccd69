import DirectedPresence.Proofs.OwedDepartures

/-!
Departures are compensated. When a clustered node departs, by leaving or by a crash, its senders
can retract nothing any more; every member that hears of the departure does it for them. The notice
makes a member route one unavailable presence for each pair that the departed node tracked for a
handler served there, and a notice that comes again finds nothing left.
-/

namespace DirectedPresence

/-! ## Retractions -/

namespace ReverseIndex

variable {senders : SenderMap} {sender receiver : Address}

/-- The senders of a node, each with every one of its receivers. -/
def pairsOf (senders : SenderMap) : List (Address × Address) :=
  senders.toList.flatMap fun (sender, receivers) =>
    receivers.toList.map fun receiver => (sender, receiver)

theorem nodup_pairsOf (senders : SenderMap) : (pairsOf senders).Nodup := by
  rw [pairsOf, List.nodup_flatMap]
  constructor
  · rintro ⟨sender, receivers⟩ -
    exact AddressSet.nodup_map_pair receivers sender
  · apply Std.ExtTreeMap.distinct_keys_toList.imp
    rintro ⟨a, receivers⟩ ⟨b, others⟩ hne pair hfirst hsecond
    obtain ⟨_, -, rfl⟩ := List.mem_map.mp hfirst
    obtain ⟨_, -, heq⟩ := List.mem_map.mp hsecond
    apply hne
    rw [Std.LawfulEqOrd.compare_eq_iff_eq]
    exact (Prod.mk.inj heq).1.symm

theorem mem_pairsOf : (sender, receiver) ∈ pairsOf senders ↔
    ∃ receivers, senders[sender]? = some receivers ∧ receiver ∈ receivers := by
  rw [pairsOf, List.mem_flatMap]
  constructor
  · rintro ⟨⟨key, receivers⟩, hfound, hmem⟩
    obtain ⟨other, hother, heq⟩ := List.mem_map.mp hmem
    cases heq
    exact ⟨receivers, Std.ExtTreeMap.mem_toList_iff_getElem?_eq_some.mp hfound,
      Std.ExtTreeSet.mem_toList.mp hother⟩
  · rintro ⟨receivers, hfound, hmem⟩
    refine ⟨(sender, receivers), Std.ExtTreeMap.mem_toList_iff_getElem?_eq_some.mpr hfound, ?_⟩
    exact List.mem_map.mpr ⟨receiver, Std.ExtTreeSet.mem_toList.mpr hmem, rfl⟩

/-- The attempt to take the presence of a sender back from a receiver, by a stanza that says nothing
but that. -/
def retraction (router : Router) (pair : Address × Address) : Effect :=
  let stanza := Stanza.presence
    { sender := some pair.1, recipient := some pair.2, kind := .unavailable, status := none,
      error := none }
  .route stanza (router stanza)

/-- Whatever the router answers, each pair is attempted once. -/
theorem effects_retractions (router : Router) (node : NodeId) (senders : SenderMap) :
    (retractions router node senders).effects = (pairsOf senders).map (retraction router) := by
  simp only [retractions, Trace.concat, pairsOf, List.flatMap_assoc, List.map_flatMap,
    List.map_map]
  congr 1
  funext pair
  rw [List.flatMap_map, List.map_eq_flatMap]
  rfl

end ReverseIndex

/-- The store holds a pair of the sender and the receiver for a handler that is served. -/
def Store.Reaches (store : Store) (isLocal : Address → Bool) (sender receiver : Address) : Prop :=
  ∃ registry, store.get? sender = some registry ∧
    ∃ entry ∈ registry.entries, isLocal entry.handler = true ∧ receiver ∈ entry.receivers

namespace Course

def Clustered (course : Course) (node : NodeId) : Prop :=
  ¬ course.crashed node ∧
    ∃ seat, course.cluster.seat? node = some seat ∧ seat.node.phase = .clustered

/-- A clustered node departs, and another one stays until it hears of that. -/
structure Watched (course : Course) (departure : Step) (later : List Step) (notice : Step) :
    Prop where
  departs : departure.operation = .membership .localLeft ∨
    departure.operation = .hubLeave departure.node
  leaver : course.Clustered departure.node
  watcher : course.Clustered notice.node
  other : departure.node ≠ notice.node
  stays : ∀ step ∈ later, step.node = notice.node → step.operation ≠ .membership .localLeft ∧
    (∀ peer, step.operation ≠ .hubLeave peer) ∧
    step.operation ≠ .membership (.remoteLeft departure.node)
  notified : notice.operation = .membership (.remoteLeft departure.node)

variable {host : Address → NodeId} {serves : NodeId → Address → Bool} {course : Course}
  {step departure notice : Step} {steps later : List Step} {node peer : NodeId} {seat : Seat}

private theorem isSome_seat?_after (h : (course.cluster.seat? node).isSome = true) :
    ((course.after step).cluster.seat? node).isSome = true := by
  cases hseat : course.cluster.seat? step.node with
  | none => rwa [after_of_none hseat]
  | some seat =>
    rw [after_of_seat? hseat]
    by_cases heq : node = step.node
    · rw [heq, Cluster.seat?_setSeat_self]
      rfl
    · rwa [Cluster.seat?_setSeat_of_ne heq, Option.isSome_map]

private theorem isSome_seat?_run (h : (course.cluster.seat? node).isSome = true) :
    ((course.run steps).cluster.seat? node).isSome = true := by
  induction steps generalizing course with
  | nil => exact h
  | cons step steps ih => exact ih (isSome_seat?_after h)

/-! ## Notices -/

/-- A node that has heard of a departure routes what its index shows of the departed node. -/
theorem Sound.effects_remoteLeft (h : course.Sound host serves)
    (hseat : (course.cluster.seat? step.node).isSome = true)
    (hleft : step.operation = .membership (.remoteLeft peer)) :
    (course.cluster.perform step.env step.node step.operation).trace.effects =
      (ReverseIndex.pairsOf ((course.cluster.fabric.index step.node).senders peer)).map
        (ReverseIndex.retraction (step.env step.node).router) := by
  obtain ⟨seat, hfound⟩ := Option.isSome_iff_exists.mp hseat
  have hid : seat.node.id = step.node := h.cluster.named step.node seat hfound
  simp only [Cluster.perform, hfound, hleft]
  rw [← Cluster.fabric_of_seat? hfound, ← hid]
  exact ReverseIndex.effects_retractions _ peer _

/-- To whom a departure is owed, the index still shows what was lost. -/
theorem Sound.receivers?_of_owed (h : course.Sound host serves) {estate : Estate}
    (hnotice : course.notices peer node = some estate) (hne : peer ≠ node) (sender : Address) :
    (course.cluster.fabric.index node).receivers? peer sender =
      (estate sender).bind (·.localReceivers? (serves node)) := by
  have hmember : course.Joined node := (h.mirrored.noticed peer node estate hnotice).2
  rw [h.mirrored.mirrors node (fun hcrashed => h.mirrored.gone node hcrashed hmember),
    Hub.claims_of_notice hmember hne hnotice]

/-- The index shows nothing of a node that is no member, once its departure was heard. -/
theorem Sound.receivers?_of_absent (h : course.Sound host serves) (halive : ¬ course.crashed node)
    (habsent : ¬ course.Joined peer) (hheard : course.Heard peer node) (sender : Address) :
    (course.cluster.fabric.index node).receivers? peer sender = none := by
  have hnothing : course.cluster.fabric.hub.claims course.notices node peer sender = none := by
    rw [Heard] at hheard
    simp only [Hub.claims, hheard, Option.getD_none]
    split
    · exact h.cluster.held.estate_of_absent habsent sender
    · rfl
  rw [h.mirrored.mirrors node halive, hnothing]
  rfl

private theorem Sound.joined_of_clustered (h : course.Sound host serves)
    (hnode : course.Clustered node) : course.Joined node := by
  obtain ⟨halive, seat, hseat, hphase⟩ := hnode
  exact h.joined hseat hphase halive

private theorem Watched.present (hw : course.Watched departure later notice) :
    (course.cluster.seat? notice.node).isSome = true := by
  obtain ⟨-, watcher, hwatcher, -⟩ := hw.watcher
  rw [hwatcher]
  rfl

/-- The departure of a clustered node is owed to every other one. -/
theorem Watched.owed (hw : course.Watched departure later notice)
    (h : course.Sound host serves) :
    (course.after departure).notices departure.node notice.node =
      some (course.cluster.fabric.hub.estate departure.node) := by
  obtain ⟨-, seat, hseat, -⟩ := hw.leaver
  have hleaver := h.joined_of_clustered hw.leaver
  have hwatcher := h.joined_of_clustered hw.watcher
  have hne : ¬ notice.node = departure.node := fun heq => hw.other heq.symm
  rw [after_of_seat? hseat]
  unfold noticesAfter
  rcases hw.departs with hleave | hleave
  · simp only [hleave, Notices.depart, hne, hleaver, hwatcher, and_self, if_true, if_false]
  · simp only [hleave, Notices.depart, hne, hleaver, hwatcher, and_self, if_true, if_false]

/-- The notice makes the watcher route what the departed node held. -/
theorem Watched.compensated (hw : course.Watched departure later notice)
    (h : course.Sound host serves) (ha : course.Agrees host)
    (hroutes : ∀ step ∈ departure :: later, ∀ node, (step.env node).routes.isLocal = serves node)
    (hlawful : course.Lawful host (departure :: later))
    (hkept : ∀ step ∈ departure :: later, ¬ step.Evicts)
    (hseat : course.cluster.seat? departure.node = some seat) :
    ∃ pairs : List (Address × Address), pairs.Nodup ∧
      (∀ sender receiver, (sender, receiver) ∈ pairs ↔
        seat.node.store.Reaches (serves notice.node) sender receiver) ∧
      ((course.run (departure :: later)).cluster.perform notice.env notice.node
          notice.operation).trace.effects =
        pairs.map (ReverseIndex.retraction (notice.env notice.node).router) := by
  have hdeparted : (course.after departure).Sound host serves :=
    h.after (hroutes departure (by simp)) hlawful.1
  have hroutes' : ∀ step ∈ later, ∀ node, (step.env node).routes.isLocal = serves node :=
    fun step hmem => hroutes step (by simp [hmem])
  have hsound : (course.run (departure :: later)).Sound host serves := h.run hroutes hlawful
  have howed : (course.run (departure :: later)).notices departure.node notice.node =
      some (course.cluster.fabric.hub.estate departure.node) :=
    hdeparted.notices_run hroutes' hlawful.2 (fun step hmem => hkept step (by simp [hmem]))
      (hw.owed h) hw.stays
  refine ⟨_, ReverseIndex.nodup_pairsOf _, ?_,
    hsound.effects_remoteLeft (isSome_seat?_run hw.present) hw.notified⟩
  obtain ⟨halive, left, hleft, hphase⟩ := hw.leaver
  cases hseat.symm.trans hleft
  intro sender receiver
  have hshown := hsound.receivers?_of_owed howed hw.other sender
  -- nothing was evicted before, so the estate that is owed is the store
  rw [ha.estate h hseat hphase halive] at hshown
  rw [ReverseIndex.mem_pairsOf, Store.Reaches]
  constructor
  · rintro ⟨receivers, hfound, hmem⟩
    obtain ⟨registry, hstored, hlocal⟩ := Option.bind_eq_some_iff.mp (hshown.symm.trans hfound)
    obtain ⟨-, rfl⟩ := Registry.localReceivers?_eq_some.mp hlocal
    exact ⟨registry, hstored, Registry.mem_receiversWhere.mp hmem⟩
  · rintro ⟨registry, hstored, hentry⟩
    have hmem := Registry.mem_receiversWhere.mpr hentry
    have hsome : registry.receiversWhere (serves notice.node) ≠ ∅ := by
      intro hempty
      rw [hempty] at hmem
      exact Std.ExtTreeSet.not_mem_empty hmem
    have hlocal := Registry.localReceivers?_eq_some.mpr ⟨hsome, rfl⟩
    rw [hstored, Option.bind_some, hlocal] at hshown
    exact ⟨_, hshown, hmem⟩

/-- As long as a departed node does not join again there is nothing more to hear of it. -/
theorem Sound.heard_run (h : course.Sound host serves)
    (hroutes : ∀ step ∈ steps, ∀ node, (step.env node).routes.isLocal = serves node)
    (hlawful : course.Lawful host steps) (habsent : ¬ course.Joined peer)
    (hheard : course.Heard peer node)
    (hstays : ∀ step ∈ steps, step.node = peer → step.operation ≠ .membership .localJoined) :
    ¬ (course.run steps).Joined peer ∧ (course.run steps).Heard peer node := by
  induction steps generalizing course with
  | nil => exact ⟨habsent, hheard⟩
  | cons step steps ih =>
    refine ih (h.after (hroutes step (by simp)) hlawful.1) ?_ hlawful.2
      (h.not_joined_after hlawful.1 habsent (hstays step (by simp)))
      (heard_after_of_absent habsent hheard) ?_
    · exact fun other hmem => hroutes other (by simp [hmem])
    · exact fun other hmem => hstays other (by simp [hmem])

/-- Only a node that has not crashed hears of a departure, and only of departed nodes. -/
theorem Allows.of_remoteLeft (hallows : course.Allows host step)
    (hleft : step.operation = .membership (.remoteLeft peer)) :
    ¬ course.crashed step.node ∧ ¬ course.Joined peer := by
  cases hallows with
  | act _ halive _ hdeparted => exact ⟨halive, hdeparted peer hleft⟩
  | crash hgone => cases hgone.symm.trans hleft
  | evict key hevicted => cases hevicted.symm.trans hleft
  | evictNode other hevicted => cases hevicted.symm.trans hleft

/-- A notice of a departure that was heard before makes a node route nothing. -/
theorem Sound.effects_heard (h : course.Sound host serves) (hallows : course.Allows host step)
    (hleft : step.operation = .membership (.remoteLeft peer))
    (hheard : course.Heard peer step.node) :
    (course.cluster.perform step.env step.node step.operation).trace.effects = [] := by
  obtain ⟨halive, habsent⟩ := hallows.of_remoteLeft hleft
  cases hseat : course.cluster.seat? step.node with
  | none => simp only [Cluster.perform, hseat]
  | some seat =>
    have hpresent : (course.cluster.seat? step.node).isSome = true := by
      rw [hseat]
      rfl
    rw [h.effects_remoteLeft hpresent hleft, List.map_eq_nil_iff,
      List.eq_nil_iff_forall_not_mem]
    rintro ⟨sender, receiver⟩ hmem
    obtain ⟨receivers, hfound, -⟩ := ReverseIndex.mem_pairsOf.mp hmem
    cases (h.receivers?_of_absent halive habsent hheard sender).symm.trans hfound

private theorem heard_of_notice (hseat : (course.cluster.seat? step.node).isSome = true)
    (hleft : step.operation = .membership (.remoteLeft peer)) :
    (course.after step).Heard peer step.node := by
  obtain ⟨seat, hfound⟩ := Option.isSome_iff_exists.mp hseat
  rw [after_of_seat? hfound]
  unfold Heard noticesAfter
  simp only [hleft, Notices.hear, and_self, if_true]

/-- A second notice makes a node route nothing, unless the departed node has joined again. -/
theorem Sound.effects_repeated (h : course.Sound host serves) {rest more : List Step}
    {repeated : Step}
    (hroutes : ∀ step ∈ notice :: rest, ∀ node, (step.env node).routes.isLocal = serves node)
    (hlawful : course.Lawful host (notice :: rest ++ repeated :: more))
    (hpresent : (course.cluster.seat? notice.node).isSome = true)
    (hleft : notice.operation = .membership (.remoteLeft peer))
    (hstays : ∀ step ∈ rest, step.node = peer → step.operation ≠ .membership .localJoined)
    (hnode : repeated.node = notice.node) (hoperation : repeated.operation = notice.operation) :
    ((course.run (notice :: rest)).cluster.perform repeated.env repeated.node
      repeated.operation).trace.effects = [] := by
  obtain ⟨hlawfulRest, hallows, -⟩ := lawful_append.mp hlawful
  have hsound := h.run hroutes hlawfulRest
  have habsent := (hlawfulRest.1.of_remoteLeft hleft).2
  have hdeparted : ¬ (course.after notice).Joined peer :=
    h.not_joined_after hlawfulRest.1 habsent fun _ => by simp [hleft]
  have hheard := (Sound.heard_run (h.after (hroutes notice (by simp)) hlawfulRest.1)
    (fun step hmem => hroutes step (by simp [hmem])) hlawfulRest.2 hdeparted
    (heard_of_notice hpresent hleft) hstays).2
  rw [← hnode] at hheard
  exact hsound.effects_heard hallows (hoperation.trans hleft) hheard

/-- In every lawful course without evictions, when a clustered node departs and a member that stays
hears of it, the member routes one unavailable presence for each pair that the store of the departed
node held for a handler served at the member, and nothing else. Until the departed node joins again,
notices of its departure make the member route nothing more. -/
theorem departure_compensated (host : Address → NodeId) (serves : NodeId → Address → Bool)
    (hubName : String) {members : List (Server × Settings)}
    (hmembers : ∀ p ∈ members, p.1.shuttingDown = false ∧ p.2.includeValues = true)
    {before later again : List Step} {departure notice : Step}
    (hroutes : ∀ step ∈ before ++ departure :: later ++ notice :: again,
      ∀ node, (step.env node).routes.isLocal = serves node)
    (hkept : ∀ step ∈ before ++ departure :: later ++ notice :: again, ¬ step.Evicts)
    (hlawful : (start hubName members).Lawful host
      (before ++ departure :: later ++ notice :: again))
    (hwatched : ((start hubName members).run before).Watched departure later notice)
    {seat : Seat}
    (hseat : ((start hubName members).run before).cluster.seat? departure.node = some seat) :
    (∃ pairs : List (Address × Address), pairs.Nodup ∧
      (∀ sender receiver, (sender, receiver) ∈ pairs ↔
        seat.node.store.Reaches (serves notice.node) sender receiver) ∧
      (((start hubName members).run (before ++ departure :: later)).cluster.perform
          notice.env notice.node notice.operation).trace.effects =
        pairs.map (ReverseIndex.retraction (notice.env notice.node).router)) ∧
    ∀ (rest : List Step) (repeated : Step) (more : List Step),
      again = rest ++ repeated :: more →
      (∀ step ∈ rest, step.node = departure.node → step.operation ≠ .membership .localJoined) →
      repeated.node = notice.node → repeated.operation = notice.operation →
      (((start hubName members).run
          (before ++ departure :: later ++ notice :: rest)).cluster.perform
        repeated.env repeated.node repeated.operation).trace.effects = [] := by
  obtain ⟨hlawfulLater, hlawfulAgain⟩ := lawful_append.mp hlawful
  obtain ⟨hlawfulBefore, hlawfulDeparture⟩ := lawful_append.mp hlawfulLater
  obtain ⟨hbefore, hagrees⟩ := sound_of_lawful host serves hubName hmembers
    (fun step hmem => hroutes step (by simp [hmem])) hlawfulBefore
    fun step hmem => hkept step (by simp [hmem])
  have hlater : ((start hubName members).run (before ++ departure :: later)).Sound host serves :=
    (sound_start host serves hubName hmembers).run
      (fun step hmem => hroutes step (List.mem_append_left _ hmem)) hlawfulLater
  constructor
  · rw [run_append]
    exact hwatched.compensated hbefore hagrees
      (fun step hmem => hroutes step (List.mem_append_left _ (List.mem_append_right _ hmem)))
      hlawfulDeparture
      (fun step hmem => hkept step (List.mem_append_left _ (List.mem_append_right _ hmem))) hseat
  · rintro rest repeated more rfl hstays hnode hoperation
    rw [run_append]
    refine hlater.effects_repeated ?_ hlawfulAgain ?_ hwatched.notified hstays hnode hoperation
    · intro step hmem
      refine hroutes step (List.mem_append_right _ ?_)
      exact List.mem_append_left (repeated :: more) hmem
    · rw [run_append]
      exact isSome_seat?_run hwatched.present

end Course

namespace Sample

def departure : Step := act "one" (.membership .localLeft)

def notice : Step := act "two" (.membership (.remoteLeft ⟨"one"⟩))

/-- The sample run goes on with the departure, and with two notices of it. -/
theorem lawful_departure : (Course.start "hub" members).Lawful host
    (steps ++ departure :: [] ++ notice :: [notice]) := by
  obtain ⟨hlawful, halive, -⟩ := lawful_steps
  have hdeparted : ∀ node,
      ¬ ((Course.start "hub" members).run (steps ++ [departure])).crashed node := by
    rw [Course.run_append]
    show ∀ node, ¬ (((Course.start "hub" members).run steps).after departure).crashed node
    rwa [Course.crashed_after (by simp [departure, act])]
  have hheard : ∀ node,
      ¬ (((Course.start "hub" members).run (steps ++ [departure])).after notice).crashed node := by
    rwa [Course.crashed_after (by simp [notice, act])]
  have habsent : ¬ ((Course.start "hub" members).run (steps ++ [departure])).Joined ⟨"one"⟩ ∧
      ¬ (((Course.start "hub" members).run (steps ++ [departure])).after notice).Joined
        ⟨"one"⟩ := by
    decide +kernel
  have hordinary : departure.Ordinary host ∧ notice.Ordinary host :=
    ⟨.membership rfl rfl, .membership rfl rfl⟩
  refine Course.lawful_append.mpr ⟨Course.lawful_append.mpr ⟨hlawful, ?_, trivial⟩, ?_, ?_, trivial⟩
  · refine .act hordinary.1 (halive _) ?_ ?_
    · rintro ⟨⟩
    · rintro peer ⟨⟩
  · refine .act hordinary.2 (hdeparted _) ?_ ?_
    · rintro ⟨⟩
    · rintro peer ⟨⟩
      exact habsent.1
  · refine .act hordinary.2 (hheard _) ?_ ?_
    · rintro ⟨⟩
    · rintro peer ⟨⟩
      exact habsent.2

theorem departure_served : ∀ step ∈ steps ++ departure :: [] ++ notice :: [notice],
    (∀ node, (step.env node).routes.isLocal = fun _ => true) ∧ ¬ step.Evicts := by
  intro step hmem
  simp only [steps, List.mem_append, List.mem_cons, List.not_mem_nil, or_false] at hmem
  rcases hmem with ((rfl | rfl | rfl) | rfl) | rfl | rfl
    <;> exact ⟨fun _ => rfl, by simp [Step.Evicts, departure, notice, act]⟩

theorem watched_departure :
    ((Course.start "hub" members).run steps).Watched departure [] notice := by
  have hphases : ∀ node ∈ [departure.node, notice.node],
      (((Course.start "hub" members).run steps).cluster.seat? node).any
        (fun seat => seat.node.phase = .clustered) = true := by
    decide +kernel
  have hclustered : ∀ node ∈ [departure.node, notice.node],
      ((Course.start "hub" members).run steps).Clustered node := by
    intro node hnode
    obtain ⟨seat, hseat, hphase⟩ := (Option.any_eq_true _ _).mp (hphases node hnode)
    exact ⟨lawful_steps.2.1 node, seat, hseat, of_decide_eq_true hphase⟩
  exact ⟨Or.inl rfl, hclustered _ (by simp), hclustered _ (by simp), by decide,
    fun step hmem => absurd hmem List.not_mem_nil, rfl⟩

/-- The second node takes back, once, what the first one has delivered. -/
theorem departure_compensated_once :
    ∃ pairs : List (Address × Address), pairs.Nodup ∧ (sender, receiver) ∈ pairs ∧
      (((Course.start "hub" members).run (steps ++ [departure])).cluster.perform
          notice.env notice.node notice.operation).trace.effects =
        pairs.map (ReverseIndex.retraction fun _ => none) ∧
      (((Course.start "hub" members).run (steps ++ [departure, notice])).cluster.perform
          notice.env notice.node notice.operation).trace.effects = [] := by
  have hone : (((Course.start "hub" members).run steps).cluster.seat? ⟨"one"⟩).any
      (fun seat => (seat.node.store.get? sender).any fun registry =>
        receiver ∈ registry.receiversWhere fun _ => true) = true := by
    decide +kernel
  obtain ⟨seat, hseat, hstored⟩ := (Option.any_eq_true _ _).mp hone
  obtain ⟨⟨pairs, hdistinct, hpairs, heffects⟩, hrepeated⟩ :=
    Course.departure_compensated host (fun _ _ => true) "hub" members_ready
      (fun step hmem => (departure_served step hmem).1)
      (fun step hmem => (departure_served step hmem).2) lawful_departure watched_departure hseat
  have hreached : seat.node.store.Reaches (fun _ => true) sender receiver := by
    obtain ⟨registry, hregistry, hmem⟩ := (Option.any_eq_true _ _).mp hstored
    exact ⟨registry, hregistry, Registry.mem_receiversWhere.mp (of_decide_eq_true hmem)⟩
  refine ⟨pairs, hdistinct, (hpairs sender receiver).mpr hreached, heffects, ?_⟩
  exact hrepeated [] notice [] rfl (fun step hmem => absurd hmem List.not_mem_nil) rfl rfl

end Sample

end DirectedPresence
