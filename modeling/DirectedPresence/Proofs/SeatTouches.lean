import DirectedPresence.Proofs.Dealings

/-!
What a node can do to others by tracking. Whatever the caches hold and whichever of their operations
fail, a dispatcher call, a sweep and a direct write are sequences of touches: the store is replaced,
or the cache gets or loses an entry (`Seat.Touch`). A touch reaches other nodes only through the
events of the hub, which go to the members; and as long as the listeners of a member feed that
member's own index (`Hub.Dedicated`), a node outside the hub keeps its index (`Fabric.Contained`).
-/

namespace DirectedPresence

/-! ## Events -/

/-- The listeners of every member feed the index of that member. -/
def Hub.Dedicated (hub : Hub Feed) : Prop :=
  ∀ (node : NodeId) (member : Member Feed), hub.members[node]? = some member →
    ∀ r ∈ member.listeners.registrations, r.listener.node = node

namespace Fabric

/-- What a change of the hub leaves alone: who is a member, and the indexes of all others. -/
structure Contained (before after : Fabric) : Prop where
  members : ∀ node, node ∈ after.hub.members ↔ node ∈ before.hub.members
  dedicated : before.hub.Dedicated → after.hub.Dedicated
  index : before.hub.Dedicated → ∀ node, node ∉ before.hub.members →
    after.index node = before.index node

theorem Contained.refl (fabric : Fabric) : Contained fabric fabric :=
  ⟨fun _ => Iff.rfl, fun h => h, fun _ _ _ => rfl⟩

theorem Contained.trans {a b c : Fabric} (hab : Contained a b) (hbc : Contained b c) :
    Contained a c := by
  refine ⟨?_, fun h => hbc.dedicated (hab.dedicated h), ?_⟩
  · exact fun node => (hbc.members node).trans (hab.members node)
  · intro h node habsent
    have hmiddle : node ∉ b.hub.members := fun hmem => habsent ((hab.members node).mp hmem)
    rw [hbc.index (hab.dedicated h) node hmiddle, hab.index h node habsent]

/-- The listeners are not told what the hub holds. -/
theorem contained_data (hub : Hub Feed) (data : AddressMap Holding)
    (indexes : NodeMap ReverseIndex) : Contained ⟨hub, indexes⟩ ⟨{ hub with data }, indexes⟩ :=
  ⟨fun _ => Iff.rfl, fun h => h, fun _ _ _ => rfl⟩

end Fabric

/-- A feed changes no index but that of its node. -/
theorem Feed.react_elsewhere (env : Environment) {feed : Feed} {node : NodeId}
    (hne : feed.node ≠ node) (event : CacheEvent) (indexes : NodeMap ReverseIndex) :
    (Feed.react env feed event indexes).1[node]? = indexes[node]? := by
  unfold Feed.react
  split
  · simp [Std.ExtTreeMap.getElem?_insert, hne]
  · rfl

namespace Listeners

variable {env : Environment} {event : CacheEvent}

theorem deliver_elsewhere {registrations : List (Registration Feed)} {node : NodeId}
    (hne : ∀ r ∈ registrations, r.listener.node ≠ node) (indexes : NodeMap ReverseIndex) :
    (deliver (Feed.react env) event registrations indexes).1[node]? = indexes[node]? := by
  induction registrations generalizing indexes with
  | nil => rfl
  | cons r rs ih =>
    have hfirst : (Feed.react env r.listener (r.view event) indexes).1[node]? = indexes[node]? :=
      Feed.react_elsewhere env (hne r (by simp)) (r.view event) indexes
    simp only [deliver]
    rw [ih (fun other hmem => hne other (by simp [hmem])), hfirst]

/-- Dispatching adds no registration. -/
theorem mem_of_mem_dispatch {L σ : Type} {react : Reaction L σ} {listeners : Listeners L}
    {world : σ} {r : Registration L}
    (h : r ∈ (listeners.dispatch react event world).1.registrations) :
    r ∈ listeners.registrations :=
  List.mem_of_mem_filter h

end Listeners

namespace Hub

variable {env : Environment} {hub : Hub Feed} {indexes : NodeMap ReverseIndex}

private theorem contained_tell (event : CacheEvent) (nodes : List NodeId) :
    Fabric.Contained ⟨hub, indexes⟩ ⟨(tell (Feed.react env) event nodes hub indexes).1,
      (tell (Feed.react env) event nodes hub indexes).2.1⟩ := by
  induction nodes generalizing hub indexes with
  | nil => exact .refl _
  | cons first nodes ih =>
    cases hfirst : hub.members[first]? with
    | none =>
      simp only [tell, hfirst]
      exact ih
    | some member =>
      simp only [tell, hfirst]
      refine Fabric.Contained.trans ?_ ih
      have hmember : first ∈ hub.members :=
        Std.ExtTreeMap.mem_iff_isSome_getElem?.mpr (by simp [hfirst])
      refine ⟨fun node => Hub.mem_members_insert hfirst _, ?_, ?_⟩
      · intro hdedicated node found hfound r hr
        simp only [Std.ExtTreeMap.getElem?_insert] at hfound
        split at hfound
        · next heq =>
          cases hfound
          rw [← Std.LawfulEqOrd.eq_of_compare heq]
          exact hdedicated first member hfirst r (Listeners.mem_of_mem_dispatch hr)
        · exact hdedicated node found hfound r hr
      · intro hdedicated node habsent
        have hne : ∀ r ∈ member.listeners.registrations, r.listener.node ≠ node := by
          intro r hr heq
          rw [hdedicated first member hfirst r hr] at heq
          exact habsent (heq ▸ hmember)
        exact congrArg (·.getD {}) (Listeners.deliver_elsewhere hne indexes)

private theorem contained_broadcast (origin : NodeId) (event : CacheEvent) :
    Fabric.Contained ⟨hub, indexes⟩ ⟨(hub.broadcast (Feed.react env) origin event indexes).1,
      (hub.broadcast (Feed.react env) origin event indexes).2.1⟩ :=
  contained_tell event _

private theorem contained_put (node : NodeId) (key : Address) (value : Registry) :
    Fabric.Contained ⟨hub, indexes⟩
      ⟨(hub.put (Feed.react env) node key value indexes).cache,
        (hub.put (Feed.react env) node key value indexes).world⟩ := by
  unfold put
  split
  · exact Fabric.contained_data hub _ indexes
  · exact (Fabric.contained_data hub _ indexes).trans (contained_broadcast _ _)

theorem contained_takeOut (key : Address) (origin : Holding → NodeId)
    (event : Registry → NodeId → CacheEvent) :
    Fabric.Contained ⟨hub, indexes⟩
      ⟨(hub.takeOut (Feed.react env) key origin event indexes).cache,
        (hub.takeOut (Feed.react env) key origin event indexes).world⟩ := by
  unfold takeOut
  split
  · exact .refl _
  · split
    · exact Fabric.contained_data hub _ indexes
    · exact (Fabric.contained_data hub _ indexes).trans (contained_broadcast _ _)

theorem contained_evictNode (owner : NodeId) :
    Fabric.Contained ⟨hub, indexes⟩
      ⟨(hub.evictNode (Feed.react env) owner indexes).cache,
        (hub.evictNode (Feed.react env) owner indexes).world⟩ :=
  (Fabric.contained_data hub _ indexes).trans (contained_broadcast _ _)

theorem contained_clear (node : NodeId) :
    Fabric.Contained ⟨hub, indexes⟩
      ⟨(hub.clear (Feed.react env) node indexes).cache,
        (hub.clear (Feed.react env) node indexes).world⟩ :=
  (Fabric.contained_data hub _ indexes).trans (contained_broadcast _ _)

end Hub

namespace Seat

variable {env : Environment} {seat seat' : Seat}

/-! ## Touches -/

/-- One write of a node to its store or its cache. -/
inductive Touch (env : Environment) : Seat → Seat → Prop where
  | setStore (seat : Seat) (store : Store) : Touch env seat (seat.setStore store)
  | put (seat : Seat) (key : Address) (value : Registry) :
      Touch env seat (seat.put env key value).seat
  | remove (seat : Seat) (key : Address) : Touch env seat (seat.remove env key).seat

abbrev Touches (env : Environment) : Seat → Seat → Prop :=
  Relation.ReflTransGen (Touch env)

/-- Nobody listens to the cache that the node has of its own, if it has one. -/
def Unheard (seat : Seat) : Prop :=
  ∀ cache, seat.node.cache.backing = .standalone cache → cache.listeners.registrations = []

theorem Touch.sameNode (h : Touch env seat seat') : SameNode seat seat' := by
  cases h with
  | setStore => exact ⟨rfl, rfl, rfl, rfl, fun _ => Iff.rfl⟩
  | put key value => exact sameNode_put seat env key value
  | remove key => exact sameNode_remove seat env key

theorem Touches.sameNode (h : Touches env seat seat') : SameNode seat seat' := by
  induction h with
  | refl => exact SameNode.refl seat
  | tail _ htouch ih => exact ih.trans htouch.sameNode

theorem Unheard.put (h : seat.Unheard) (key : Address) (value : Registry) :
    (seat.put env key value).seat.Unheard ∧
      seat.fabric.Contained (seat.put env key value).seat.fabric := by
  unfold Seat.put
  split
  · exact ⟨h, .refl _⟩
  · split
    · next cache backing =>
      have hunheard : cache.listeners.registrations = [] := h cache backing
      rw [LocalCache.put_unheard (Feed.react env) hunheard]
      refine ⟨?_, .refl _⟩
      rintro _ ⟨rfl⟩
      exact hunheard
    · exact ⟨h, Hub.contained_put _ key value⟩

theorem Unheard.remove (h : seat.Unheard) (key : Address) :
    (seat.remove env key).seat.Unheard ∧
      seat.fabric.Contained (seat.remove env key).seat.fabric := by
  unfold Seat.remove
  split
  · exact ⟨h, .refl _⟩
  · split
    · next cache backing =>
      have hunheard : cache.listeners.registrations = [] := h cache backing
      rw [LocalCache.remove_unheard (Feed.react env) hunheard]
      refine ⟨?_, .refl _⟩
      rintro _ ⟨rfl⟩
      exact hunheard
    · exact ⟨h, Hub.contained_takeOut key _ _⟩

private theorem Unheard.touch (h : seat.Unheard) (htouch : Touch env seat seat') :
    seat'.Unheard ∧ seat.fabric.Contained seat'.fabric := by
  cases htouch with
  | setStore => exact ⟨h, .refl _⟩
  | put key value => exact h.put key value
  | remove key => exact h.remove key

/-- Touches of a node reach no index outside the hub. -/
theorem Unheard.touches (h : seat.Unheard) (htouches : Touches env seat seat') :
    seat'.Unheard ∧ seat.fabric.Contained seat'.fabric := by
  induction htouches with
  | refl => exact ⟨h, .refl _⟩
  | tail _ htouch ih =>
    obtain ⟨hunheard, hcontained⟩ := ih.1.touch htouch
    exact ⟨hunheard, ih.2.trans hcontained⟩

/-! ## Operations -/

/-- One access after another is one touch after another. -/
theorem Deals.touches {α : Type} {server : Server} {who : Address → Prop} {tells : Effect → Prop}
    {known : Seat → Prop} {act : Seat → Outcome α} (h : Deals env server who tells known act)
    (hserver : seat.node.server = server) (hknown : known seat) :
    Touches env seat (act seat).seat := by
  induction h generalizing seat with
  | done => exact .refl
  | note _ _ _ ih => exact ih hserver hknown
  | congr hsame _ ih =>
    rw [hsame seat hserver hknown]
    exact ih hserver hknown
  | get key _ _ ih => exact ih (seat.get key) hserver ⟨hknown, rfl⟩
  | stored key _ _ ih => exact ih (seat.node.store.get? key) hserver ⟨hknown, rfl⟩
  | listed select _ _ ih =>
    exact ih (seat.node.store.toList.filter (select ·.1))
      (fun _ hp => (List.mem_filter.mp hp).2) hserver ⟨hknown, rfl⟩
  | keep key registry _ _ ih =>
    exact (Relation.ReflTransGen.single (.setStore seat _)).trans (ih hserver trivial)
  | forget key _ _ ih =>
    exact (Relation.ReflTransGen.single (.setStore seat _)).trans (ih hserver trivial)
  | put key value _ _ ih =>
    have hafter := (sameNode_put seat env key value).server.trans hserver
    exact (Relation.ReflTransGen.single (.put seat key value)).trans (ih _ hafter trivial)
  | remove key _ _ ih =>
    have hafter := (sameNode_remove seat env key).server.trans hserver
    exact (Relation.ReflTransGen.single (.remove seat key)).trans (ih _ hafter trivial)

theorem touches_restore (registries : List (Address × Registry)) :
    Touches env seat (restore env registries seat).seat := by
  have hdeals : Deals env seat.node.server (fun _ => True) (fun _ => False) (fun _ => True)
      (fun seat => restore env registries seat) := deals_restore fun _ _ => trivial
  exact hdeals.touches rfl trivial

/-- A dispatcher call, a sweep or a direct write touches the seat, whatever it is about. -/
theorem touches_perform {operation : Operation} (hdealing : operation.isDealing = true) :
    Touches env seat (seat.perform env operation).seat := by
  have hdeals := deals_perform env seat.node.server hdealing
  exact hdeals.touches rfl trivial

end Seat

/-- Whether the operation is about the hub itself. -/
def Operation.isHub : Operation → Bool
  | .hubLeave _ | .hubEvict _ | .hubEvictNode _ | .hubClear _ => true
  | _ => false

end DirectedPresence
