import DirectedPresence.Proofs.MirrorSteps

/-!
Departures keep the mirrors. A node that leaves, or that crashes, is forgotten by the hub together
with all it had there, and every other member is owed a notice; when the notice reaches a member,
the member forgets what it mirrored of the departed node. A node that leaves also clears its own
index.
-/

namespace DirectedPresence

namespace Notices

/-- The notices after a member has departed: every other member has to learn what it had. -/
def depart {L : Type} (notices : Notices) (hub : Hub L) (node : NodeId) : Notices :=
  fun peer watcher =>
    if watcher = node then none
    else if peer = node ∧ node ∈ hub.members ∧ watcher ∈ hub.members then some (hub.estate node)
    else notices peer watcher

/-- The notices after one has reached a member. -/
def hear (notices : Notices) (peer node : NodeId) : Notices := fun other watcher =>
  if other = peer ∧ watcher = node then none else notices other watcher

/-- The notices after everything of a node was evicted. -/
def evict (notices : Notices) (node : NodeId) : Notices := fun peer watcher =>
  if peer = node then (notices peer watcher).map fun _ _ => none else notices peer watcher

variable {L : Type} {notices : Notices} {hub : Hub L} {node peer watcher : NodeId}

/-- Of a node that is no member nothing new is owed. -/
theorem depart_of_absent (habsent : peer ∉ hub.members) (hne : watcher ≠ node) :
    notices.depart hub node peer watcher = notices peer watcher := by
  have hother : ¬ (peer = node ∧ node ∈ hub.members ∧ watcher ∈ hub.members) := by
    rintro ⟨rfl, hmember, -⟩
    exact habsent hmember
  simp only [depart, hne, hother, if_false]

theorem depart_self : notices.depart hub node peer node = none := by
  simp only [depart, if_true]

end Notices

namespace Hub

variable {host : Address → NodeId} {hub : Hub Feed} {notices : Notices}
  {node watcher peer : NodeId}

theorem mem_members_leave {id : NodeId} :
    id ∈ (hub.leave node).members ↔ id ≠ node ∧ id ∈ hub.members := by
  rw [ne_comm]
  simp only [leave, Std.ExtTreeMap.mem_erase, ne_eq, Std.LawfulEqOrd.compare_eq_iff_eq]

/-- The members that stay go on to listen. -/
theorem listening_leave (h : ∀ other ∈ hub.members, hub.Listens other) :
    ∀ other ∈ (hub.leave node).members, (hub.leave node).Listens other := by
  intro other hmember
  obtain ⟨hne, hold⟩ := mem_members_leave.mp hmember
  have hne' : ¬ node = other := fun heq => hne heq.symm
  apply (h other hold).congr
  simp [leave, Std.ExtTreeMap.getElem?_erase, hne']

/-- No member has crashed, even if the one that leaves has. -/
theorem gone_leave {crashed crashed' : NodeId → Prop}
    (h : ∀ other, crashed other → other ∉ hub.members)
    (hcrashed : ∀ other, crashed' other ↔ crashed other ∨ other = node) :
    ∀ other, crashed' other → other ∉ (hub.leave node).members := by
  intro other hother hmember
  obtain ⟨hne, hold⟩ := mem_members_leave.mp hmember
  rcases (hcrashed other).mp hother with hbefore | heq
  · exact h other hbefore hold
  · exact hne heq

theorem estate_leave (hub : Hub Feed) (node peer : NodeId) (sender : Address) :
    (hub.leave node).estate peer sender =
      if node = peer then none else hub.estate peer sender :=
  estate_withoutOwner node peer sender

/-- What the other members have to show stays the same when a node departs. -/
theorem Held.claims_leave (h : hub.Held host)
    (hunnoticed : node ∈ hub.members → notices node watcher = none) (hne : watcher ≠ node)
    (sender : Address) :
    (hub.leave node).claims (notices.depart hub node) watcher peer sender =
      hub.claims notices watcher peer sender := by
  have hmember : watcher ∈ (hub.leave node).members ↔ watcher ∈ hub.members := by
    rw [mem_members_leave]
    simp [hne]
  by_cases hin : watcher ∈ hub.members
  · by_cases hpeer : peer = node
    · subst hpeer
      by_cases hpresent : peer ∈ hub.members
      · have hnotice : notices.depart hub peer peer watcher = some (hub.estate peer) := by
          simp only [Notices.depart, hne, hpresent, hin, and_self, if_true, if_false]
        rw [claims_of_notice (hmember.mpr hin) (fun heq => hne heq.symm) hnotice,
          claims_of_heard hub hin (fun heq => hne heq.symm) (hunnoticed hpresent)]
      · apply claims_congr hmember
        · simp only [Notices.depart, hne, hpresent, false_and, and_false, if_false]
        · rw [estate_leave, if_pos rfl, h.estate_of_absent hpresent]
    · apply claims_congr hmember
      · simp only [Notices.depart, hne, hpeer, false_and, if_false]
      · rw [estate_leave, if_neg fun heq => hpeer heq.symm]
  · rw [claims_of_absent hin, claims_of_absent fun hmem => hin (hmember.mp hmem)]

end Hub

namespace ReverseIndex

variable {index : ReverseIndex} {router : Router} {nodes : List NodeId}

theorem Compact.nodesDown (h : index.Compact) : (nodesDown router nodes index).1.Compact := by
  induction nodes generalizing index with
  | nil => exact h
  | cons node nodes ih => exact ih (h.clearNode node)

private theorem receivers?_nodesDown (peer : NodeId) (sender : Address) :
    (nodesDown router nodes index).1.receivers? peer sender =
      if peer ∈ nodes then none else index.receivers? peer sender := by
  induction nodes generalizing index with
  | nil => simp [nodesDown]
  | cons node nodes ih =>
    have hstep : (nodesDown router (node :: nodes) index).1 =
        (nodesDown router nodes (index.clearNode node)).1 := rfl
    rw [hstep, ih, receivers?_clearNode]
    by_cases heq : node = peer
    · simp [heq]
    · have hne : ¬ peer = node := fun h => heq h.symm
      simp [heq, hne]

theorem receivers?_of_not_mem_nodeIds {peer : NodeId} (h : peer ∉ index.nodeIds)
    (sender : Address) : index.receivers? peer sender = none := by
  have hnone : index.nodes[peer]? = none := by
    rw [nodeIds, Std.ExtTreeMap.mem_keys] at h
    exact Std.ExtTreeMap.getElem?_eq_none h
  simp [receivers?, senders, hnone]

/-- An index that has let all of its nodes depart shows nothing. -/
theorem receivers?_nodesDown_nodeIds (peer : NodeId) (sender : Address) :
    (nodesDown router index.nodeIds index).1.receivers? peer sender = none := by
  rw [receivers?_nodesDown]
  split
  · rfl
  · next hmem => exact receivers?_of_not_mem_nodeIds hmem sender

end ReverseIndex

namespace Fabric.Mirrored

variable {host : Address → NodeId} {serves : NodeId → Address → Bool} {notices : Notices}
  {crashed crashed' : NodeId → Prop} {fabric after : Fabric} {node : NodeId}

/-- The hub forgets a node; what becomes of the node's own index is not said. -/
theorem depart (h : fabric.Mirrored serves notices crashed) (hheld : fabric.hub.Held host)
    (hhub : after.hub = fabric.hub.leave node)
    (hindex : ∀ other, after.index other = fabric.index other)
    (hcrashed : ∀ other, crashed' other ↔ crashed other ∨ other = node) :
    after.Mirrored serves (notices.depart fabric.hub node) crashed' := by
  refine ⟨hhub ▸ Hub.listening_leave h.listening, ?_, hhub ▸ Hub.gone_leave h.gone hcrashed,
    ?_, ?_⟩
  · intro peer watcher estate hnotice
    rw [hhub, Hub.mem_members_leave, Hub.mem_members_leave]
    unfold Notices.depart at hnotice
    split at hnotice
    · cases hnotice
    · next hwatcher =>
      split at hnotice
      · next hdeparted => exact ⟨fun hmem => hmem.1 hdeparted.1, hwatcher, hdeparted.2.2⟩
      · obtain ⟨hpeer, hmember⟩ := h.noticed peer watcher estate hnotice
        exact ⟨fun hmem => hpeer hmem.2, hwatcher, hmember⟩
  · intro other
    rw [hindex]
    exact h.compact other
  · intro other hother
    have hne : other ≠ node := fun heq => hother ((hcrashed other).mpr (Or.inr heq))
    have halive : ¬ crashed other := fun hc => hother ((hcrashed other).mpr (Or.inl hc))
    rw [hindex, hhub]
    exact (h.mirrors other halive).congr fun peer sender =>
      hheld.claims_leave (fun hmem => h.unnoticed hmem other) hne sender

/-- A node that is not in the hub clears its index. -/
theorem clear (h : fabric.Mirrored serves notices fun other => crashed other ∨ other = node)
    (habsent : node ∉ fabric.hub.members) {index : ReverseIndex} (hcompact : index.Compact)
    (hblank : ∀ peer sender, index.receivers? peer sender = none) :
    (fabric.setIndex node index).Mirrored serves notices crashed := by
  refine ⟨h.listening, h.noticed, fun other hc => h.gone other (Or.inl hc), ?_, ?_⟩
  · intro other
    rw [index_setIndex]
    split
    · exact hcompact
    · exact h.compact other
  · intro other halive
    rw [index_setIndex]
    split
    · next heq =>
      subst heq
      intro peer sender
      have hnone : (fabric.setIndex node index).hub.claims notices node peer sender = none :=
        Hub.claims_of_absent habsent sender
      rw [hblank, hnone]
      rfl
    · next hne =>
      apply h.mirrors other
      rintro (hc | heq)
      · exact halive hc
      · exact hne heq.symm

/-- The notice of a departure has reached a node. -/
theorem hear (h : fabric.Mirrored serves notices crashed) (hheld : fabric.hub.Held host)
    {peer : NodeId} (hdeparted : peer ∉ fabric.hub.members) :
    (fabric.setIndex node ((fabric.index node).clearNode peer)).Mirrored serves
      (notices.hear peer node) crashed := by
  refine ⟨h.listening, ?_, h.gone, ?_, ?_⟩
  · intro other watcher estate hnotice
    unfold Notices.hear at hnotice
    split at hnotice
    · cases hnotice
    · exact h.noticed other watcher estate hnotice
  · intro other
    rw [index_setIndex]
    split
    · exact (h.compact node).clearNode peer
    · exact h.compact other
  · intro other halive
    have hold := h.mirrors other halive
    rw [index_setIndex]
    split
    · next heq =>
      subst heq
      intro source sender
      rw [ReverseIndex.receivers?_clearNode]
      split
      · next hsource =>
        subst hsource
        have hnone : (fabric.setIndex node ((fabric.index node).clearNode peer)).hub.claims
            (notices.hear peer node) node peer sender = none := by
          simp only [Hub.claims, Notices.hear, and_self, if_true, Option.getD_none]
          split
          · exact hheld.estate_of_absent hdeparted sender
          · rfl
        rw [hnone]
        rfl
      · next hsource =>
        have hne : ¬ source = peer := fun heq => hsource heq.symm
        rw [hold source sender]
        congr 1
        refine (Hub.claims_congr Iff.rfl ?_ rfl).symm
        simp only [Notices.hear, hne, false_and, if_false]
    · next hne =>
      refine hold.congr fun source sender => Hub.claims_congr Iff.rfl ?_ rfl
      have hne' : ¬ other = node := fun heq => hne heq.symm
      simp only [Notices.hear, hne', and_false, if_false]

end Fabric.Mirrored

namespace Seat

variable {host : Address → NodeId} {env : Environment} {serves : NodeId → Address → Bool}
  {notices : Notices} {crashed : NodeId → Prop} {seat : Seat}

/-- A node that leaves is no member any more, and shows nothing in its index. -/
theorem Sound.mirrored_leave (h : seat.Sound host)
    (hm : seat.fabric.Mirrored serves notices crashed)
    (henv : ∀ node, (env node).routes.isLocal = serves node) :
    (seat.leave env).seat.fabric.Mirrored serves
      (notices.depart seat.fabric.hub seat.node.id) crashed := by
  have hedits : Edits env host seat.detached (seat.recovered env) := h.steady.edits_recovered
  have hid : (seat.recovered env).node.id = seat.node.id := (Edits.sameNode hedits).id
  have habsent : seat.node.id ∉ seat.detached.fabric.hub.members :=
    fun hmem => (mem_members_detached.mp hmem).1 rfl
  have hdetached : seat.detached.fabric.Mirrored serves
      (notices.depart seat.fabric.hub seat.node.id)
      fun other => crashed other ∨ other = seat.node.id :=
    hm.depart h.held rfl (fun _ => rfl) fun _ => Iff.rfl
  have hupkeep : Fabric.Upkeep serves (notices.depart seat.fabric.hub seat.node.id)
      (notices.depart seat.fabric.hub seat.node.id) seat.node.id seat.detached.fabric
      (seat.recovered env).fabric :=
    h.detached.upkeep_edits henv (hdetached.heardBy _) (fun hmem => absurd hmem habsent) hedits
  have hrecovered := hdetached.upkeep hupkeep fun _ _ => rfl
  rw [seat_leave env h.awake]
  show (Fabric.setIndex _ (seat.recovered env).node.id _).Mirrored _ _ _
  rw [hid]
  apply hrecovered.clear (by rwa [hupkeep.members])
  · exact ReverseIndex.Compact.nodesDown (hrecovered.compact _)
  · exact fun peer sender => ReverseIndex.receivers?_nodesDown_nodeIds peer sender

/-- A node crashes: the hub forgets it, and nothing is said of its index any more. -/
theorem mirrored_crash (hheld : seat.fabric.hub.Held host)
    (hm : seat.fabric.Mirrored serves notices crashed) (node : NodeId) :
    Fabric.Mirrored serves (notices.depart seat.fabric.hub node)
      (fun other => crashed other ∨ other = node)
      { seat.fabric with hub := seat.fabric.hub.leave node } :=
  hm.depart hheld rfl (fun _ => rfl) fun _ => Iff.rfl

theorem mirrored_peerLeft (env : Environment) (hheld : seat.fabric.hub.Held host)
    (hm : seat.fabric.Mirrored serves notices crashed) {peer : NodeId}
    (hdeparted : peer ∉ seat.fabric.hub.members) :
    (seat.peerLeft env peer).seat.fabric.Mirrored serves (notices.hear peer seat.node.id)
      crashed :=
  hm.hear hheld hdeparted

/-- An eviction keeps the mirrors; what was evicted is nothing to be learnt any more. -/
theorem mirrored_evict (hheld : seat.fabric.hub.Held host)
    (hm : seat.fabric.Mirrored serves notices crashed)
    (henv : ∀ node, (env node).routes.isLocal = serves node) (key : Address) :
    (seat.perform env (.hubEvict key)).seat.fabric.Mirrored serves notices crashed := by
  have howner : ∀ holding, seat.fabric.hub.data[key]? = some holding →
      holding.owner = host key := by
    intro holding hholding
    obtain ⟨-, registry, rfl, -⟩ := hheld key holding hholding
    rfl
  have hupkeep : Fabric.Upkeep serves notices notices (host key) seat.fabric
      (seat.perform env (.hubEvict key)).seat.fabric :=
    hheld.upkeep_takeOut henv (hm.heardBy _) hm.unnoticed howner (fun _ _ _ => rfl)
      fun old _ _ peer sender => ReverseIndex.receivers?_noted_evicted old peer sender
  exact hm.upkeep hupkeep fun _ _ => rfl

theorem mirrored_evictNode (hm : seat.fabric.Mirrored serves notices crashed)
    (henv : ∀ node, (env node).routes.isLocal = serves node) (peer : NodeId) :
    (seat.perform env (.hubEvictNode peer)).seat.fabric.Mirrored serves (notices.evict peer)
      crashed := by
  have hupkeep : Fabric.Upkeep serves notices (notices.evict peer) peer seat.fabric
      (seat.perform env (.hubEvictNode peer)).seat.fabric := by
    apply Hub.upkeep_evictNode henv (hm.heardBy peer)
    · intro node
      simp only [Notices.evict, if_true]
    · intro other node hne
      simp only [Notices.evict, hne, if_false]
  refine hm.upkeep hupkeep fun other watcher => ?_
  unfold Notices.evict
  split
  · rw [Option.isSome_map]
  · rfl

end Seat

end DirectedPresence
