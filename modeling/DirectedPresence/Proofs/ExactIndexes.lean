import DirectedPresence.Proofs.RecordedSenders
import DirectedPresence.Proofs.SessionGreetings

/-!
The indexes are exact. In every run whatsoever, with senders that are written by several nodes and
with whatever is done to the hub meanwhile, no index holds anything under its own node, nor a node
without senders or a sender without receivers (`ReverseIndex.Exact`). So there is something to
retract whenever a node departs of which an index knows. What is retracted is listed, and what is
listed under a node has been recorded by that node, so a node takes nothing back for a sender that
it alone has recorded (`Cluster.indexes_exact`).
-/

namespace DirectedPresence

/-! ## Indexes without shells -/

namespace ReverseIndex

variable {node peer : NodeId} {index : ReverseIndex}

def Lists (index : ReverseIndex) (peer : NodeId) (sender receiver : Address) : Prop :=
  ∃ receivers, index.receivers? peer sender = some receivers ∧ receiver ∈ receivers

/-- The index of a node holds nothing of that node and no shells, so it tells exactly of which nodes
it lists something, and whether it lists anything. -/
structure Exact (node : NodeId) (index : ReverseIndex) : Prop where
  foreign : index.nodes[node]? = none
  /-- No node is without senders. -/
  compact : index.Compact
  /-- No sender is without receivers. -/
  occupied : ∀ (peer : NodeId) (senders : SenderMap), index.nodes[peer]? = some senders →
    ∀ (sender : Address) (receivers : AddressSet), senders[sender]? = some receivers →
      receivers.isEmpty = false
  nodup_nodeIds : index.nodeIds.Nodup
  mem_nodeIds : ∀ peer, peer ∈ index.nodeIds ↔ ∃ sender receiver, index.Lists peer sender receiver
  isEmpty_iff : index.isEmpty = true ↔ ∀ peer sender receiver, ¬ index.Lists peer sender receiver

private theorem isEmpty_iff_nodeIds : index.isEmpty = true ↔ ∀ peer, peer ∉ index.nodeIds := by
  rw [isEmpty, nodeIds, ← Std.ExtTreeMap.isEmpty_keys, List.isEmpty_iff,
    List.eq_nil_iff_forall_not_mem]

/-- An index is exact if it is compact and what it lists is of other nodes and has receivers. -/
theorem Compact.exact (h : index.Compact)
    (hlisted : ∀ peer sender receivers, index.receivers? peer sender = some receivers →
      receivers.isEmpty = false ∧ peer ≠ node) : index.Exact node := by
  have hknown : ∀ peer, peer ∈ index.nodeIds ↔
      ∃ sender receiver, index.Lists peer sender receiver := by
    intro peer
    rw [h.mem_nodeIds]
    constructor
    · rintro ⟨sender, receivers, hfound⟩
      obtain ⟨receiver, hmem⟩ := AddressSet.exists_mem (hlisted peer sender receivers hfound).1
      exact ⟨sender, receiver, receivers, hfound, hmem⟩
    · rintro ⟨sender, receiver, receivers, hfound, -⟩
      exact ⟨sender, receivers, hfound⟩
  refine ⟨?_, h, ?_, Std.ExtTreeMap.nodup_keys, hknown, ?_⟩
  · have habsent : node ∉ index.nodeIds := by
      intro hown
      obtain ⟨sender, receivers, hfound⟩ := h.mem_nodeIds.mp hown
      exact (hlisted node sender receivers hfound).2 rfl
    rw [nodeIds, Std.ExtTreeMap.mem_keys] at habsent
    exact Std.ExtTreeMap.getElem?_eq_none habsent
  · intro peer senders hsenders sender receivers hfound
    have hshown : index.receivers? peer sender = some receivers := by
      rw [receivers?, ReverseIndex.senders, hsenders]
      exact hfound
    exact (hlisted peer sender receivers hshown).1
  · simp only [isEmpty_iff_nodeIds, hknown, not_exists]

end ReverseIndex

/-! ## What is taken back for others -/

namespace Seat

variable {seat : Seat}

/-- Whatever is listed under a node is retracted when that node departs. -/
theorem retraction_mem_peerLeft (env : Environment) {peer : NodeId} {sender receiver : Address}
    (hlisted : seat.index.Lists peer sender receiver) :
    ReverseIndex.retraction (seat.services env).router (sender, receiver) ∈
      (seat.peerLeft env peer).trace.effects := by
  have heffects : (seat.peerLeft env peer).trace.effects =
      (ReverseIndex.pairsOf (seat.index.senders peer)).map
        (ReverseIndex.retraction (seat.services env).router) :=
    ReverseIndex.effects_retractions _ peer _
  rw [heffects]
  exact List.mem_map_of_mem (ReverseIndex.mem_pairsOf.mpr hlisted)

end Seat

namespace Cluster

variable {c : Cluster} {node : NodeId} {seat : Seat}

/-- At some point of the run the hub held an entry of the sender that the node wrote last or
recorded. -/
def Recorded (c : Cluster) (steps : List Step) (node : NodeId) (sender : Address) : Prop :=
  ∃ earlier, earlier <+: steps ∧ (c.run earlier).fabric.hub.RecordedBy node sender

/-- The index of the node is exact, and what the node retracts on a change of membership is what the
index lists of the senders of others. -/
structure RetractsForOthers (c : Cluster) (steps : List Step) (node : NodeId) : Prop where
  exact : ((c.run steps).fabric.index node).Exact node
  /-- What is listed has been recorded by the node that it is listed under. -/
  recorded : ∀ peer sender receiver, ((c.run steps).fabric.index node).Lists peer sender receiver →
    c.Recorded steps peer sender
  /-- If a node departs of which the index knows, something is retracted. -/
  attempted : ∀ seat, (c.run steps).seat? node = some seat → ∀ env,
    ∀ peer ∈ ((c.run steps).fabric.index node).nodeIds, ∃ sender receiver,
      ((c.run steps).fabric.index node).Lists peer sender receiver ∧
        ReverseIndex.retraction (env node).router (sender, receiver) ∈
          ((c.run steps).outcome ⟨env, node, .membership (.remoteLeft peer)⟩).trace.effects
  /-- Nothing is called for but to retract what is listed under another node. -/
  listed : ∀ env event,
    ∀ e ∈ ((c.run steps).outcome ⟨env, node, .membership event⟩).trace.effects,
      ∃ peer sender receiver, peer ≠ node ∧
        ((c.run steps).fabric.index node).Lists peer sender receiver ∧
        e = ReverseIndex.retraction (env node).router (sender, receiver)
  /-- Nothing is retracted for a sender that no other node has recorded. -/
  spared : ∀ sender, (∀ peer, c.Recorded steps peer sender → peer = node) →
    ∀ env event receiver failure, .route (.presence (.unavailable sender receiver)) failure ∉
      ((c.run steps).outcome ⟨env, node, .membership event⟩).trace.effects

private theorem exact_of_run (hubName : String) (members : List (Server × Settings))
    (steps : List Step) (node : NodeId) :
    (((start hubName members).run steps).fabric.index node).Exact node := by
  have hcalm : ((start hubName members).run steps).Calm := (calm_start hubName members).run steps
  refine (hcalm.compact node).exact ?_
  intro peer sender receivers hlisted
  obtain ⟨hsome, earlier, -, hother, -⟩ := recorded_of_run hubName members steps hlisted
  exact ⟨hsome, hother⟩

/-- What comes of a change of membership at a node of the cluster. -/
theorem trace_membership (hseat : c.seat? node = some seat) (env : Environment)
    (event : MembershipEvent) :
    (c.outcome ⟨env, node, .membership event⟩).trace = (seat.handle env event).trace := by
  simp only [outcome, perform, hseat, Seat.perform, Outcome.trace_map]

private theorem Wired.index_eq (h : c.Wired) (hseat : c.seat? node = some seat) :
    seat.index = c.fabric.index node := by
  rw [Seat.index, h.named node seat hseat, fabric_of_seat? hseat]

/-- All that a change of membership calls for is to retract what the index of the node lists. -/
theorem Wired.exists_listed_of_membership (h : c.Wired) {env : Environment}
    {event : MembershipEvent} {e : Effect}
    (he : e ∈ (c.outcome ⟨env, node, .membership event⟩).trace.effects) :
    ∃ peer sender receiver, (c.fabric.index node).Lists peer sender receiver ∧
      e = ReverseIndex.retraction (env node).router (sender, receiver) := by
  cases hseat : c.seat? node with
  | none =>
    simp only [outcome, perform, hseat] at he
    cases he
  | some seat =>
    rw [trace_membership hseat] at he
    obtain ⟨⟨peer, sender, receiver⟩, htriple, rfl⟩ := Seat.retraction_of_mem_handle he
    rw [h.index_eq hseat] at htriple
    rw [Seat.services, h.named node seat hseat]
    exact ⟨peer, sender, receiver, ReverseIndex.mem_triples.mp htriple, rfl⟩

/-- In every run whatsoever the index of every node is exact, each departure of a node of which it
knows is compensated for, and nothing is taken back for a sender that no other node has
recorded. -/
theorem indexes_exact (hubName : String) (members : List (Server × Settings)) (steps : List Step)
    (node : NodeId) : (start hubName members).RetractsForOthers steps node := by
  have hwired : ((start hubName members).run steps).Wired := (wired_start hubName members).run steps
  have hexact := exact_of_run hubName members steps node
  have hrecorded : ∀ peer sender receiver,
      (((start hubName members).run steps).fabric.index node).Lists peer sender receiver →
        peer ≠ node ∧ (start hubName members).Recorded steps peer sender := by
    rintro peer sender receiver ⟨receivers, hlisted, -⟩
    obtain ⟨-, earlier, hprefix, hother, hheld⟩ := recorded_of_run hubName members steps hlisted
    exact ⟨hother, earlier, hprefix, hheld⟩
  refine
    { exact := hexact
      recorded := fun _ _ _ hlists => (hrecorded _ _ _ hlists).2
      attempted := ?attempted
      listed := ?listed
      spared := ?spared }
  case attempted =>
    intro seat hseat env peer hmem
    obtain ⟨sender, receiver, hlists⟩ := (hexact.mem_nodeIds peer).mp hmem
    have hattempted := Seat.retraction_mem_peerLeft env (hwired.index_eq hseat ▸ hlists)
    rw [Seat.services, hwired.named node seat hseat] at hattempted
    rw [trace_membership hseat]
    exact ⟨sender, receiver, hlists, hattempted⟩
  case listed =>
    intro env event e he
    obtain ⟨peer, sender, receiver, hlists, rfl⟩ := hwired.exists_listed_of_membership he
    exact ⟨peer, sender, receiver, (hrecorded _ _ _ hlists).1, hlists, rfl⟩
  case spared =>
    intro sender halone env event receiver failure he
    obtain ⟨peer, other, shown, hlists, heq⟩ := hwired.exists_listed_of_membership he
    obtain ⟨hother, hrecorded⟩ := hrecorded peer other shown hlists
    cases heq
    exact hother (halone peer hrecorded)

end Cluster

namespace Sample

/-- The sender of the sample run is used on the second node as well. -/
def sharing : List Step :=
  steps ++ [act "two" (.directedSent (.available sender) handler receiver)]

/-- Each node lists the shared sender under the other one and takes it back when that one leaves. -/
theorem sharing_retracted :
    let c := (Cluster.start "hub" members).run sharing
    ((Cluster.start "hub" members).RetractsForOthers sharing ⟨"one"⟩ ∧
        (c.fabric.index ⟨"one"⟩).nodeIds = [⟨"two"⟩]) ∧
      (Cluster.start "hub" members).RetractsForOthers sharing ⟨"two"⟩ ∧
        (c.fabric.index ⟨"two"⟩).nodeIds = [⟨"one"⟩] := by
  refine ⟨⟨Cluster.indexes_exact "hub" members sharing ⟨"one"⟩, ?_⟩,
    Cluster.indexes_exact "hub" members sharing ⟨"two"⟩, ?_⟩
  · decide +kernel
  · decide +kernel

end Sample

end DirectedPresence
