import DirectedPresence.Cluster
import DirectedPresence.Proofs.CacheContents

/-!
What the events of the hub do to the reverse indexes. A node listens if the one registration of its
membership is its own feed and asks for values. An event that comes with its values is refused by no
such feed, so telling it leaves the hub as it is and lets the index of every member but the origin
take note of it once.
-/

namespace DirectedPresence

/-- The receivers of a registry that are served at a node, if there are any. -/
def Registry.localReceivers? (isLocal : Address → Bool) (r : Registry) : Option AddressSet :=
  if (r.receiversWhere isLocal).isEmpty then none else some (r.receiversWhere isLocal)

theorem NodeMap.insert_eq_self {α : Type} {m : NodeMap α} {key : NodeId} {value : α}
    (h : m[key]? = some value) : m.insert key value = m := by
  apply Std.ExtTreeMap.ext_getElem?
  intro other
  rw [Std.ExtTreeMap.getElem?_insert]
  split
  · next heq =>
    have hkey : key = other := Std.LawfulEqOrd.eq_of_compare heq
    rw [← hkey, h]
  · rfl

namespace ReverseIndex

def Compact (index : ReverseIndex) : Prop :=
  ∀ (node : NodeId) (senders : SenderMap), index.nodes[node]? = some senders →
    senders.isEmpty = false

/-- The index after an event, which stays as it is if it refuses the event. -/
def noted (isLocal : Address → Bool) (index : ReverseIndex) (event : CacheEvent) :
    ReverseIndex :=
  match index.observe isLocal event with
  | .ok index => index
  | .error _ => index

variable {isLocal : Address → Bool} {index : ReverseIndex} {node : NodeId} {key : Address}

theorem compact_empty : Compact {} := by
  intro node senders h
  simp at h

private theorem Compact.setSenders (h : index.Compact) (node : NodeId) (senders : SenderMap) :
    (index.setSenders node senders).Compact := by
  intro other found hfound
  by_cases hempty : senders.isEmpty
  · simp only [ReverseIndex.setSenders, hempty, if_true, Std.ExtTreeMap.getElem?_erase] at hfound
    split at hfound
    · cases hfound
    · exact h other found hfound
  · simp only [ReverseIndex.setSenders, hempty, if_false, Std.ExtTreeMap.getElem?_insert,
      Bool.false_eq_true] at hfound
    split at hfound
    · cases hfound
      simpa using hempty
    · exact h other found hfound

theorem Compact.upsert (h : index.Compact) (node : NodeId) (sender : Address)
    (receivers : AddressSet) : (index.upsert node sender receivers).Compact := by
  unfold ReverseIndex.upsert
  split
  · exact h
  · exact h.setSenders node _

private theorem Compact.removeSender (h : index.Compact) (node : NodeId) (sender : Address) :
    (index.removeSender node sender).Compact :=
  h.setSenders node _

theorem Compact.clearNode (h : index.Compact) (node : NodeId) :
    (index.clearNode node).Compact := by
  intro other found hfound
  simp only [ReverseIndex.clearNode, Std.ExtTreeMap.getElem?_erase] at hfound
  split at hfound
  · cases hfound
  · exact h other found hfound

theorem Compact.noted (h : index.Compact) (event : CacheEvent) :
    (index.noted isLocal event).Compact := by
  cases event with
  | added key value node =>
    cases value with
    | none => exact h
    | some registry => exact h.upsert node key _
  | updated key old new node =>
    cases new with
    | none => exact h
    | some registry =>
      simp only [ReverseIndex.noted, observe]
      split
      · exact h.removeSender node key
      · exact h.upsert node key _
  | removed key old node =>
    simp only [ReverseIndex.noted, observe]
    split
    · exact h.removeSender node key
    · exact h
  | evicted key old node =>
    simp only [ReverseIndex.noted, observe]
    split
    · exact h.removeSender node key
    · exact h
  | mapEvicted node => exact h.clearNode node
  | mapCleared node => exact h.clearNode node

/-- A compact index knows exactly the nodes of which it knows receivers. -/
theorem Compact.mem_nodeIds (h : index.Compact) :
    node ∈ index.nodeIds ↔ ∃ sender receivers, index.receivers? node sender = some receivers := by
  rw [nodeIds, Std.ExtTreeMap.mem_keys, Std.ExtTreeMap.mem_iff_isSome_getElem?,
    Option.isSome_iff_exists]
  simp only [receivers?, senders]
  constructor
  · rintro ⟨found, hfound⟩
    have hne : found ≠ ∅ := by
      rintro rfl
      have hempty := h node ∅ hfound
      simp at hempty
    rw [ne_eq, Std.ExtTreeMap.eq_empty_iff_forall_not_mem, Classical.not_forall]
      at hne
    obtain ⟨sender, hsender⟩ := hne
    have hmem : sender ∈ found := Classical.not_not.mp hsender
    rw [Std.ExtTreeMap.mem_iff_isSome_getElem?, Option.isSome_iff_exists] at hmem
    obtain ⟨receivers, hreceivers⟩ := hmem
    exact ⟨sender, receivers, by simp [hfound, hreceivers]⟩
  · rintro ⟨sender, receivers, hreceivers⟩
    cases hfound : index.nodes[node]? with
    | none => simp [hfound] at hreceivers
    | some found => exact ⟨found, rfl⟩

/-- What is known of a sender after a write. What was known of an unknown one stays known if no
receiver is served here. -/
theorem receivers?_noted_write (old : Option Registry) (new : Registry) (peer : NodeId)
    (sender : Address) :
    (index.noted isLocal (.ofWrite key old new node)).receivers? peer sender =
      if node = peer ∧ key = sender then
        (new.localReceivers? isLocal).or
          (if old.isNone then index.receivers? node key else none)
      else index.receivers? peer sender := by
  unfold Registry.localReceivers?
  cases old with
  | none =>
    simp only [CacheEvent.ofWrite, noted, observe, receivers?_upsert]
    by_cases heq : node = peer ∧ key = sender
    · obtain ⟨rfl, rfl⟩ := heq
      cases hempty : (new.receiversWhere isLocal).isEmpty <;> simp
    · simp [heq]
  | some old =>
    simp only [CacheEvent.ofWrite, noted, observe]
    cases hempty : (new.receiversWhere isLocal).isEmpty with
    | false => simp [receivers?_upsert, hempty]
    | true => simp [receivers?_removeSender]

/-- A write replaces what is known of the sender, if nothing was known of an unknown one. -/
theorem receivers?_noted_ofWrite {old : Option Registry} {new : Registry}
    (hunknown : old = none → index.receivers? node key = none) (peer : NodeId)
    (sender : Address) :
    (index.noted isLocal (.ofWrite key old new node)).receivers? peer sender =
      if node = peer ∧ key = sender then new.localReceivers? isLocal
      else index.receivers? peer sender := by
  have hstale : (if old.isNone then index.receivers? node key else none) = none := by
    cases old with
    | none => exact hunknown rfl
    | some old => rfl
  rw [receivers?_noted_write, hstale, Option.or_none]

theorem receivers?_noted_removed (old : Registry) (peer : NodeId) (sender : Address) :
    (index.noted isLocal (.removed key (some old) node)).receivers? peer sender =
      if node = peer ∧ key = sender then none else index.receivers? peer sender :=
  receivers?_removeSender index node peer key sender

theorem receivers?_noted_evicted (old : Registry) (peer : NodeId) (sender : Address) :
    (index.noted isLocal (.evicted key (some old) node)).receivers? peer sender =
      if node = peer ∧ key = sender then none else index.receivers? peer sender :=
  receivers?_removeSender index node peer key sender

theorem receivers?_noted_mapEvicted (peer : NodeId) (sender : Address) :
    (index.noted isLocal (.mapEvicted node)).receivers? peer sender =
      if node = peer then none else index.receivers? peer sender :=
  receivers?_clearNode index node peer sender

end ReverseIndex

/-- No feed that asks for values refuses the event. -/
def CacheEvent.Valued (event : CacheEvent) : Prop :=
  ∀ (isLocal : Address → Bool) (index : ReverseIndex),
    index.observe isLocal event = .ok (index.noted isLocal event)

theorem CacheEvent.valued_ofWrite (key : Address) (old : Option Registry) (new : Registry)
    (node : NodeId) : (ofWrite key old new node).Valued := by
  cases old <;> exact fun _ _ => rfl

namespace Hub

/-- The node is a member, and its one listener is its own feed, which asks for values. -/
def Listens (hub : Hub Feed) (node : NodeId) : Prop :=
  ∃ ticket nextId id name,
    hub.members[node]? = some ⟨ticket, ⟨nextId, [⟨id, ⟨name, node⟩, true⟩]⟩⟩

variable {env : Environment} {event : CacheEvent} {hub : Hub Feed} {node : NodeId}

private theorem tell_of_listens (env : Environment) (h : hub.Listens node) (hvalued : event.Valued)
    (nodes : List NodeId) (indexes : NodeMap ReverseIndex) : ∃ hearings,
    tell (Feed.react env) event (node :: nodes) hub indexes =
      ((tell (Feed.react env) event nodes hub (indexes.insert node
          ((indexes[node]?.getD {}).noted (env node).routes.isLocal event))).1,
        (tell (Feed.react env) event nodes hub (indexes.insert node
          ((indexes[node]?.getD {}).noted (env node).routes.isLocal event))).2.1, hearings) := by
  obtain ⟨ticket, nextId, id, name, hmember⟩ := h
  have hsame := NodeMap.insert_eq_self hmember
  have hobserve := hvalued (env node).routes.isLocal (indexes[node]?.getD {})
  simp only [tell, hmember, Listeners.dispatch, Listeners.deliver, Registration.view, if_true,
    Feed.react, hobserve]
  simp [hsame]

/-- Told to listening nodes, an event changes no listener, and every index takes note of it once. -/
theorem tell_listening (env : Environment) (hvalued : event.Valued) {nodes : List NodeId}
    (hdistinct : nodes.Nodup)
    (hlisten : ∀ node ∈ nodes, hub.Listens node) (indexes : NodeMap ReverseIndex) :
    (tell (Feed.react env) event nodes hub indexes).1 = hub ∧
      ∀ node, (tell (Feed.react env) event nodes hub indexes).2.1[node]?.getD {} =
        if node ∈ nodes then (indexes[node]?.getD {}).noted (env node).routes.isLocal event
        else indexes[node]?.getD {} := by
  induction nodes generalizing indexes with
  | nil => exact ⟨rfl, fun node => by simp [tell]⟩
  | cons first nodes ih =>
    rw [List.nodup_cons] at hdistinct
    have hfirst := hlisten first (by simp)
    obtain ⟨hhub, hindexes⟩ := ih hdistinct.2 (fun node hmem => hlisten node (by simp [hmem]))
      (indexes.insert first ((indexes[first]?.getD {}).noted (env first).routes.isLocal event))
    obtain ⟨hearings, htell⟩ := tell_of_listens env hfirst hvalued nodes indexes
    rw [htell]
    refine ⟨hhub, fun node => ?_⟩
    rw [hindexes node, Std.ExtTreeMap.getElem?_insert]
    by_cases heq : first = node
    · subst heq
      simp [hdistinct.1]
    · have hne : ¬ node = first := fun h => heq h.symm
      simp [heq, hne]

private theorem broadcast_listening (env : Environment) (hub : Hub Feed) (hvalued : event.Valued)
    {origin : NodeId} (hlisten : ∀ node ∈ hub.members, node ≠ origin → hub.Listens node)
    (indexes : NodeMap ReverseIndex) :
    (hub.broadcast (Feed.react env) origin event indexes).1 = hub ∧
      ∀ node, (hub.broadcast (Feed.react env) origin event indexes).2.1[node]?.getD {} =
        if node ∈ hub.members ∧ node ≠ origin then
          (indexes[node]?.getD {}).noted (env node).routes.isLocal event
        else indexes[node]?.getD {} := by
  have hmem : ∀ node, node ∈ hub.memberIds.filter (· ≠ origin) ↔
      node ∈ hub.members ∧ node ≠ origin := by
    intro node
    rw [List.mem_filter, memberIds, Std.ExtTreeMap.mem_keys, decide_eq_true_eq]
  have hdistinct : (hub.memberIds.filter (· ≠ origin)).Nodup :=
    Std.ExtTreeMap.nodup_keys.filter _
  obtain ⟨hhub, hindexes⟩ := tell_listening env hvalued hdistinct
    (fun node hnode => hlisten node ((hmem node).mp hnode).1 ((hmem node).mp hnode).2) indexes
  refine ⟨hhub, fun node => ?_⟩
  have hindex := hindexes node
  simp only [hmem] at hindex
  exact hindex

/-- A write changes the entry, and every other member takes note of it. -/
theorem put_listening (env : Environment) {origin : NodeId} {key : Address} (value : Registry)
    (hget : hub.get key = .ok (hub.lookup key))
    (hlisten : ∀ node ∈ hub.members, node ≠ origin → hub.Listens node)
    (indexes : NodeMap ReverseIndex) :
    (hub.put (Feed.react env) origin key value indexes).cache =
        { hub with data := hub.data.insert key (.of origin value) } ∧
      ∀ node, (hub.put (Feed.react env) origin key value indexes).world[node]?.getD {} =
        if node ∈ hub.members ∧ node ≠ origin then
          (indexes[node]?.getD {}).noted (env node).routes.isLocal
            (.ofWrite key (hub.lookup key) value origin)
        else indexes[node]?.getD {} := by
  have hstored := broadcast_listening env
    { hub with data := hub.data.insert key (.of origin value) }
    (CacheEvent.valued_ofWrite key (hub.lookup key) value origin) hlisten indexes
  unfold put
  rw [hget]
  exact hstored

/-- Taking an entry out tells every member but the origin. -/
theorem takeOut_listening (env : Environment) {key : Address} {origin : Holding → NodeId}
    {event : Registry → NodeId → CacheEvent} {holding : Holding} {old : Registry}
    (hholding : hub.data[key]? = some holding) (hread : holding.registry = .ok old)
    (hvalued : (event old (origin holding)).Valued)
    (hlisten : ∀ node ∈ hub.members, node ≠ origin holding → hub.Listens node)
    (indexes : NodeMap ReverseIndex) :
    (hub.takeOut (Feed.react env) key origin event indexes).cache =
        { hub with data := hub.data.erase key } ∧
      ∀ node, (hub.takeOut (Feed.react env) key origin event indexes).world[node]?.getD {} =
        if node ∈ hub.members ∧ node ≠ origin holding then
          (indexes[node]?.getD {}).noted (env node).routes.isLocal (event old (origin holding))
        else indexes[node]?.getD {} := by
  have htaken := broadcast_listening env { hub with data := hub.data.erase key } hvalued hlisten
    indexes
  simp only [takeOut, hholding, hread]
  exact htaken

theorem remove_listening (env : Environment) {origin : NodeId} {key : Address} {holding : Holding}
    {old : Registry} (hholding : hub.data[key]? = some holding)
    (hread : holding.registry = .ok old)
    (hlisten : ∀ node ∈ hub.members, node ≠ origin → hub.Listens node)
    (indexes : NodeMap ReverseIndex) :
    (hub.remove (Feed.react env) origin key indexes).cache =
        { hub with data := hub.data.erase key } ∧
      ∀ node, (hub.remove (Feed.react env) origin key indexes).world[node]?.getD {} =
        if node ∈ hub.members ∧ node ≠ origin then
          (indexes[node]?.getD {}).noted (env node).routes.isLocal
            (.removed key (some old) origin)
        else indexes[node]?.getD {} :=
  takeOut_listening env hholding hread (fun _ _ => rfl) hlisten indexes

theorem evictNode_listening (env : Environment) {origin : NodeId}
    (hlisten : ∀ node ∈ hub.members, node ≠ origin → hub.Listens node)
    (indexes : NodeMap ReverseIndex) :
    (hub.evictNode (Feed.react env) origin indexes).cache =
        { hub with data := withoutOwner hub.data origin } ∧
      ∀ node, (hub.evictNode (Feed.react env) origin indexes).world[node]?.getD {} =
        if node ∈ hub.members ∧ node ≠ origin then
          (indexes[node]?.getD {}).noted (env node).routes.isLocal (.mapEvicted origin)
        else indexes[node]?.getD {} :=
  broadcast_listening env { hub with data := withoutOwner hub.data origin } (fun _ _ => rfl)
    hlisten indexes

end Hub

end DirectedPresence
