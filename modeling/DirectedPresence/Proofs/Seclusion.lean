import DirectedPresence.Proofs.ClusterRuns
import DirectedPresence.Proofs.MirrorSteps
import DirectedPresence.Proofs.SeatTouches

/-!
A node outside the cluster is secluded. In every run whatsoever, with writes to any cache, losses in
the hub and caches that fail, the listeners of a member feed the member's own index and nobody
listens to a node's own cache (`Cluster.Wired`). So what is done at other nodes, or to the hub,
changes nothing of a node that is out of the hub and has a cache of its own (`Cluster.Secluded`),
and such a node stays so until it joins.
-/

namespace DirectedPresence

namespace Seat

variable {env : Environment} {seat seat' : Seat} {operation : Operation}

/-- What an operation of a node may change, beside the node's own record. -/
structure Confined (operation : Operation) (before after : Seat) : Prop where
  id : after.node.id = before.node.id
  unheard : after.Unheard
  dedicated : after.fabric.hub.Dedicated
  /-- A node enters the hub by joining, and by nothing else. -/
  members : ∀ node, node ∈ after.fabric.hub.members → node ∈ before.fabric.hub.members ∨
    node = before.node.id ∧ operation = .membership .localJoined
  clustered : after.node.cache.isClustered = true → before.node.cache.isClustered = true ∨
    operation = .membership .localJoined
  /-- Outside the hub an index is changed by the node itself, and by nothing but a change of the
  membership. -/
  index : ∀ node, node ∉ before.fabric.hub.members →
    after.fabric.index node = before.fabric.index node ∨
      node = before.node.id ∧ ∃ event, operation = .membership event

private theorem Confined.of_contained (hid : seat'.node.id = seat.node.id)
    (hunheard : seat'.Unheard)
    (hclustered : seat'.node.cache.isClustered = seat.node.cache.isClustered)
    (hcontained : seat.fabric.Contained seat'.fabric) (hdedicated : seat.fabric.hub.Dedicated) :
    Confined operation seat seat' where
  id := hid
  unheard := hunheard
  dedicated := hcontained.dedicated hdedicated
  members := fun node hmem => Or.inl ((hcontained.members node).mp hmem)
  clustered := fun h => Or.inl (hclustered ▸ h)
  index := fun node habsent => Or.inl (hcontained.index hdedicated node habsent)

private theorem Unheard.confined_touches (h : seat.Unheard) (hdedicated : seat.fabric.hub.Dedicated)
    (htouches : Touches env seat seat') : Confined operation seat seat' := by
  obtain ⟨hunheard, hcontained⟩ := h.touches htouches
  have hsame : SameNode seat seat' := Touches.sameNode htouches
  exact .of_contained hsame.id hunheard hsame.isClustered hcontained hdedicated

private theorem dedicated_leave {hub : Hub Feed} (h : hub.Dedicated) (node : NodeId) :
    (hub.leave node).Dedicated := by
  intro other member hmember
  have hfound : (hub.members.erase node)[other]? = some member := hmember
  rw [Std.ExtTreeMap.getElem?_erase] at hfound
  split at hfound
  · cases hfound
  · exact h other member hfound

private theorem mem_of_mem_leave {hub : Hub Feed} {node other : NodeId}
    (h : other ∈ (hub.leave node).members) : other ∈ hub.members :=
  Std.ExtTreeMap.mem_of_mem_erase h

private theorem dedicated_addListener {hub : Hub Feed} (h : hub.Dedicated) (view : View)
    {feed : Feed} (hfeed : feed.node = view.node) (includesValues : Bool) :
    (hub.addListener view feed includesValues).Dedicated := by
  unfold Hub.addListener
  split
  · exact h
  · next member hmember =>
    split
    · intro node found hfound r hr
      simp only [Std.ExtTreeMap.getElem?_insert] at hfound
      split at hfound
      · next heq =>
        cases hfound
        rw [← Std.LawfulEqOrd.eq_of_compare heq]
        rcases List.mem_append.mp hr with hold | hnew
        · exact h view.node member hmember r hold
        · rw [List.mem_singleton.mp hnew]
          exact hfeed
      · exact h node found hfound r hr
    · exact h

/-! ## Changes of membership -/

/-- Seeding changes the index of the node alone. -/
theorem seedIndex_elsewhere (env : Environment) (seat : Seat) : ∃ indexes : NodeMap ReverseIndex,
    (seat.seedIndex env).seat = { seat with fabric := { seat.fabric with indexes } } ∧
      ∀ node, node ≠ seat.node.id → indexes[node]? = seat.fabric.indexes[node]? := by
  unfold seedIndex
  split
  · exact ⟨seat.fabric.indexes, rfl, fun _ _ => rfl⟩
  · refine ⟨_, rfl, ?_⟩
    intro node hne
    have hne' : ¬ seat.node.id = node := fun h => hne h.symm
    simp [Std.ExtTreeMap.getElem?_insert, hne']

private theorem dedicated_entered (h : seat.fabric.hub.Dedicated) :
    (seat.entered env).fabric.hub.Dedicated := by
  intro node member hmember r hr
  have hfound : (seat.fabric.hub.members.insert seat.node.id
      ⟨seat.fabric.hub.joins, {}⟩)[node]? = some member := hmember
  rw [Std.ExtTreeMap.getElem?_insert] at hfound
  split at hfound
  · cases hfound
    cases hr
  · exact h node member hfound r hr

private theorem confined_join (hdedicated : seat.fabric.hub.Dedicated) :
    Confined (.membership .localJoined) seat (seat.join env).seat := by
  have hentered : (seat.entered env).fabric.hub.Dedicated := dedicated_entered hdedicated
  have htouches : Touches env (seat.entered env) (seat.refilled env) := touches_restore _
  have hsame : SameNode (seat.entered env) (seat.refilled env) := Touches.sameNode htouches
  have hid : (seat.refilled env).node.id = seat.node.id := hsame.id
  have hviewed : (seat.entered env).Unheard := by
    rintro cache ⟨⟩
  obtain ⟨-, hcontained⟩ := hviewed.touches htouches
  obtain ⟨indexes, hseed, hothers⟩ := seedIndex_elsewhere env (seat.refilled env)
  rw [seat_join, hseed]
  refine ⟨hid, ?_, dedicated_addListener (hcontained.dedicated hentered) _ hid _, ?_,
    fun _ => Or.inr rfl, ?_⟩
  · intro cache backing
    have hview := (hsame.view (seat.fabric.hub.join seat.node.id).2).mpr rfl
    cases hview.symm.trans backing
  · intro node hmem
    have hrefilled := (hcontained.members node).mp (Hub.mem_members_addListener.mp hmem)
    rcases mem_members_entered.mp hrefilled with heq | hold
    · exact Or.inr ⟨heq, rfl⟩
    · exact Or.inl hold
  · intro node habsent
    by_cases heq : node = seat.node.id
    · exact Or.inr ⟨heq, _, rfl⟩
    · left
      have hout : node ∉ (seat.entered env).fabric.hub.members := by
        rw [mem_members_entered]
        exact fun h => h.elim heq habsent
      have hseeded : indexes[node]? = (seat.refilled env).fabric.indexes[node]? :=
        hothers node (hid ▸ heq)
      exact (congrArg (·.getD {}) hseeded).trans (hcontained.index hentered node hout)

private theorem confined_leave (h : seat.Unheard) (hdedicated : seat.fabric.hub.Dedicated) :
    Confined (.membership .localLeft) seat (seat.leave env).seat := by
  cases hshutting : seat.node.server.shuttingDown with
  | true =>
    simp only [leave, hshutting, if_true]
    exact ⟨rfl, h, dedicated_leave hdedicated _, fun _ hmem => Or.inl (mem_of_mem_leave hmem),
      Or.inl, fun _ _ => Or.inl rfl⟩
  | false =>
    have hdetached : seat.detached.fabric.hub.Dedicated := dedicated_leave hdedicated _
    have htouches : Touches env seat.detached (seat.recovered env) := touches_restore _
    have hsame : SameNode seat.detached (seat.recovered env) := Touches.sameNode htouches
    have hid : (seat.recovered env).node.id = seat.node.id := hsame.id
    have halone : seat.detached.Unheard := by
      rintro cache ⟨rfl⟩
      rfl
    obtain ⟨hunheard, hcontained⟩ := halone.touches htouches
    rw [seat_leave env hshutting]
    refine ⟨hid, hunheard, hcontained.dedicated hdetached, ?_, ?_, ?_⟩
    · exact fun node hmem => Or.inl (mem_of_mem_leave ((hcontained.members node).mp hmem))
    · intro hclustered
      cases hsame.isClustered.symm.trans hclustered
    · intro node habsent
      by_cases heq : node = seat.node.id
      · exact Or.inr ⟨heq, _, rfl⟩
      · left
        have hout : node ∉ seat.detached.fabric.hub.members :=
          fun hmem => habsent (mem_of_mem_leave hmem)
        have hne : ¬ (seat.recovered env).node.id = node := fun h => heq (h.symm.trans hid)
        refine Eq.trans ?_ (hcontained.index hdetached node hout)
        exact (Fabric.index_setIndex _ _ _ _).trans (if_neg hne)

/-- What is done to the hub changes no node's record. -/
theorem node_of_isHub (hhub : operation.isHub = true) :
    (seat.perform env operation).seat.node = seat.node := by
  cases operation with
  | hubLeave | hubEvict | hubEvictNode | hubClear => rfl
  | _ => cases hhub

/-- What an operation of a node may change is the same whatever the operation is about, and whatever
fails meanwhile. -/
theorem Unheard.confined (h : seat.Unheard) (hdedicated : seat.fabric.hub.Dedicated)
    (operation : Operation) : Confined operation seat (seat.perform env operation).seat := by
  cases operation with
  | membership event =>
    cases event with
    | localJoined => exact confined_join hdedicated
    | localLeft => exact confined_leave h hdedicated
    | remoteJoined peer => exact .of_contained rfl h rfl (.refl _) hdedicated
    | remoteLeft peer =>
      refine ⟨rfl, h, hdedicated, fun _ => Or.inl, Or.inl, ?_⟩
      intro node _
      by_cases heq : node = seat.node.id
      · exact Or.inr ⟨heq, _, rfl⟩
      · left
        have hne : ¬ seat.node.id = node := fun h => heq h.symm
        exact (Fabric.index_setIndex _ _ _ _).trans (if_neg hne)
  | shutdown => exact .of_contained rfl h rfl (.refl _) hdedicated
  | failCache faults => exact .of_contained rfl h rfl (.refl _) hdedicated
  | hubLeave peer =>
    exact ⟨rfl, h, dedicated_leave hdedicated peer, fun _ hmem => Or.inl (mem_of_mem_leave hmem),
      Or.inl, fun _ _ => Or.inl rfl⟩
  | hubEvict key =>
    exact .of_contained rfl h rfl (Hub.contained_takeOut key _ _) hdedicated
  | hubEvictNode peer =>
    exact .of_contained rfl h rfl (Hub.contained_evictNode peer) hdedicated
  | hubClear peer => exact .of_contained rfl h rfl (Hub.contained_clear peer) hdedicated
  | _ => exact h.confined_touches hdedicated (touches_perform rfl)

end Seat

namespace Cluster

/-- No listener is anywhere but at the feed of a member. -/
structure Wired (c : Cluster) : Prop where
  named : ∀ id seat, c.seat? id = some seat → seat.node.id = id
  dedicated : c.fabric.hub.Dedicated
  unheard : ∀ id seat, c.seat? id = some seat → seat.Unheard

/-- The node is out of the hub and has a cache of its own. -/
structure Secluded (c : Cluster) (node : NodeId) : Prop where
  absent : node ∉ c.fabric.hub.members
  alone : ∀ seat, c.seat? node = some seat → seat.node.cache.isClustered = false

variable {c : Cluster} {node : NodeId} {seat : Seat} {step : Step} {steps : List Step}

theorem wired_start (hubName : String) (members : List (Server × Settings)) :
    (start hubName members).Wired where
  named := fun _ _ hseat => (seat?_ofNodes hseat).2.1
  dedicated := by
    intro node member hmember
    simp [start, ofNodes] at hmember
  unheard := by
    intro id seat hseat cache backing
    obtain ⟨hnode, -, -⟩ := seat?_ofNodes hseat
    obtain ⟨p, -, hstart⟩ := List.mem_map.mp hnode
    rw [← hstart] at backing
    cases backing
    rfl

/-- An operation of a node keeps the wiring, and is confined. -/
theorem Wired.confined (h : c.Wired) (hseat : c.seat? step.node = some seat) :
    Seat.Confined step.operation seat (seat.perform step.env step.operation).seat := by
  have hdedicated : seat.fabric.hub.Dedicated := fabric_of_seat? hseat ▸ h.dedicated
  exact (h.unheard step.node seat hseat).confined hdedicated step.operation

theorem Wired.after (h : c.Wired) (step : Step) : (c.after step).Wired := by
  cases hseat : c.seat? step.node with
  | none =>
    rw [after_of_none hseat]
    exact h
  | some seat =>
    have hconfined := h.confined hseat
    rw [after_of_seat? hseat]
    refine ⟨?_, hconfined.dedicated, ?_⟩
    · exact forall_node_setSeat (P := fun id node => node.id = id) h.named
        (hconfined.id.trans (h.named step.node seat hseat))
    · intro id other hother
      rcases seat?_setSeat_cases hother with ⟨-, rfl⟩ | ⟨-, old, hold, rfl⟩
      · exact hconfined.unheard
      · exact h.unheard id old hold

/-- Every run keeps the wiring. -/
theorem Wired.run (h : c.Wired) (steps : List Step) : (c.run steps).Wired := by
  induction steps generalizing c with
  | nil => exact h
  | cons step steps ih => exact ih (h.after step)

/-! ## Secluded nodes -/

theorem Wired.secluded_after (h : c.Wired) (hsecluded : c.Secluded node)
    (hstays : step.node = node → step.operation ≠ .membership .localJoined) :
    (c.after step).Secluded node := by
  cases hseat : c.seat? step.node with
  | none =>
    rw [after_of_none hseat]
    exact hsecluded
  | some seat =>
    have hconfined := h.confined hseat
    have hid : seat.node.id = step.node := h.named step.node seat hseat
    have hfabric : seat.fabric = c.fabric := fabric_of_seat? hseat
    rw [after_of_seat? hseat]
    constructor
    · intro hmem
      rcases hconfined.members node hmem with hold | ⟨hnode, hjoined⟩
      · exact hsecluded.absent (hfabric ▸ hold)
      · exact hstays (hid.symm.trans hnode.symm) hjoined
    · intro other hother
      rcases seat?_setSeat_cases hother with ⟨hnode, rfl⟩ | ⟨-, old, hold, rfl⟩
      · rw [Bool.eq_false_iff]
        intro hclustered
        rcases hconfined.clustered hclustered with hbefore | hjoined
        · rw [hsecluded.alone seat (hnode ▸ hseat)] at hbefore
          cases hbefore
        · exact hstays hnode.symm hjoined
      · exact hsecluded.alone old hold

theorem Wired.secluded_run (h : c.Wired) (hsecluded : c.Secluded node)
    (hstays : ∀ step ∈ steps, step.node = node → step.operation ≠ .membership .localJoined) :
    (c.run steps).Secluded node := by
  induction steps generalizing c with
  | nil => exact hsecluded
  | cons step steps ih =>
    refine ih (h.after step) (h.secluded_after hsecluded (hstays step (by simp))) ?_
    exact fun other hmem => hstays other (by simp [hmem])

/-- A node puts back what it has taken. -/
theorem setSeat_eq_self (hseat : c.seat? node = some seat) : c.setSeat node seat = c := by
  obtain ⟨found, hfound, rfl⟩ := Option.map_eq_some_iff.mp hseat
  rw [setSeat, NodeMap.insert_eq_self hfound]

/-- What another node does, or what is done to the hub, changes neither the record of a secluded
node, with its store and its cache, nor its index. -/
theorem Wired.undisturbed (h : c.Wired) (hsecluded : c.Secluded node)
    (hforeign : step.node ≠ node ∨ step.operation.isHub = true) :
    (c.after step).nodes[node]? = c.nodes[node]? ∧
      (c.after step).fabric.index node = c.fabric.index node := by
  cases hseat : c.seat? step.node with
  | none =>
    rw [after_of_none hseat]
    exact ⟨rfl, rfl⟩
  | some seat =>
    have hconfined := h.confined hseat
    have hid : seat.node.id = step.node := h.named step.node seat hseat
    have hfabric : seat.fabric = c.fabric := fabric_of_seat? hseat
    rw [after_of_seat? hseat]
    constructor
    · rcases hforeign with hne | hhub
      · simp [setSeat, Std.ExtTreeMap.getElem?_insert, hne]
      · have hkept : (seat.perform step.env step.operation).seat.node = seat.node :=
          Seat.node_of_isHub hhub
        show (c.nodes.insert step.node _)[node]? = _
        rw [hkept]
        exact congrArg (·.nodes[node]?) (setSeat_eq_self hseat)
    · rcases hconfined.index node (hfabric ▸ hsecluded.absent) with hsame | ⟨hnode, event, hevent⟩
      · exact hsame.trans (congrArg (Fabric.index · node) hfabric)
      · rcases hforeign with hne | hhub
        · exact absurd (hid.symm.trans hnode.symm) hne
        · rw [hevent] at hhub
          cases hhub

end Cluster

end DirectedPresence
