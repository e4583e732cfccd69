import DirectedPresence.Proofs.EventFeeds
import DirectedPresence.Proofs.MembershipSteps

/-!
The reverse index of a member mirrors what every other node has in the hub: its estate. When a node
departs its estate leaves the hub at once, while the others still have to learn of it; until the
notice of the departure has reached a member, that member's index mirrors what the departed node
had at its departure. `Hub.claims` says what an index has to mirror, and `Fabric.Upkeep` that an
operation keeps all mirrors.
-/

namespace DirectedPresence

/-- The registries that a node has in the hub. -/
abbrev Estate := Address → Option Registry

/-- The departures of which a member has not heard yet, each with the estate that was lost. -/
abbrev Notices := NodeId → NodeId → Option Estate

namespace Hub

variable {L : Type} {host : Address → NodeId} {hub hub' : Hub L} {node peer watcher : NodeId}
  {sender key : Address} {notices : Notices}

def estate (hub : Hub L) (node : NodeId) : Estate := fun sender =>
  (hub.data[sender]?.filter fun holding => holding.owner = node).bind
    fun holding => holding.registry.toOption

/-- What the index of a node has to show of another one. -/
def claims (hub : Hub L) (notices : Notices) (watcher peer : NodeId) : Estate := fun sender =>
  if watcher ∈ hub.members ∧ peer ≠ watcher then
    ((notices peer watcher).getD (hub.estate peer)) sender
  else none

theorem Held.estate_eq (h : hub.Held host) (node : NodeId) (sender : Address) :
    hub.estate node sender = if host sender = node then hub.lookup sender else none := by
  unfold estate lookup
  cases hholding : hub.data[sender]? with
  | none => simp
  | some holding =>
    obtain ⟨-, registry, rfl, -⟩ := h sender holding hholding
    by_cases heq : host sender = node <;> simp [Option.filter, heq]

/-- Who is no member has nothing in the hub. -/
theorem Held.estate_of_absent (h : hub.Held host) (habsent : node ∉ hub.members)
    (sender : Address) : hub.estate node sender = none := by
  rw [h.estate_eq]
  split
  · next heq =>
    apply lookup_eq_none
    rw [Option.eq_none_iff_forall_not_mem]
    intro holding hholding
    have hmember := (h sender holding hholding).1
    rw [heq] at hmember
    exact habsent hmember
  · rfl

theorem estate_congr (hdata : hub'.data[sender]? = hub.data[sender]?) (node : NodeId) :
    hub'.estate node sender = hub.estate node sender := by
  simp only [estate, hdata]

theorem estate_insert (key : Address) (owner : NodeId) (registry : Registry) (node : NodeId)
    (sender : Address) :
    ({ hub with data := hub.data.insert key (.of owner registry) } : Hub L).estate node sender =
      if key = sender then if owner = node then some registry else none
      else hub.estate node sender := by
  by_cases hkey : key = sender
  · by_cases howner : owner = node <;> simp [estate, hkey, Option.filter, howner, Except.toOption]
  · simp [estate, Std.ExtTreeMap.getElem?_insert, hkey]

theorem estate_erase (key : Address) (node : NodeId) (sender : Address) :
    ({ hub with data := hub.data.erase key } : Hub L).estate node sender =
      if key = sender then none else hub.estate node sender := by
  by_cases hkey : key = sender <;> simp [estate, Std.ExtTreeMap.getElem?_erase, hkey]

theorem estate_withoutOwner {data : AddressMap Holding} (owner node : NodeId)
    (sender : Address) :
    ({ hub with data := withoutOwner data owner } : Hub L).estate node sender =
      if owner = node then none else ({ hub with data } : Hub L).estate node sender := by
  simp only [estate, getElem?_withoutOwner]
  cases data[sender]? with
  | none => simp
  | some holding =>
    by_cases howner : holding.owner = owner
    · by_cases hnode : owner = node
      · simp [Option.filter, howner, hnode]
      · simp [Option.filter, howner, hnode]
    · by_cases hnode : owner = node
      · have hne : ¬ holding.owner = node := fun h => howner (h.trans hnode.symm)
        simp [Option.filter, hnode, hne]
      · simp [Option.filter, howner, hnode]

theorem claims_of_absent (habsent : watcher ∉ hub.members) (sender : Address) :
    hub.claims notices watcher peer sender = none := by
  simp only [claims, habsent, false_and, if_false]

theorem claims_self (sender : Address) : hub.claims notices watcher watcher sender = none := by
  simp only [claims, ne_eq, not_true_eq_false, and_false, if_false]

theorem claims_of_notice {estate : Estate} (hmember : watcher ∈ hub.members)
    (hne : peer ≠ watcher) (hnotice : notices peer watcher = some estate) (sender : Address) :
    hub.claims notices watcher peer sender = estate sender := by
  simp only [claims, hmember, hne, ne_eq, not_false_eq_true, and_self, if_true, hnotice,
    Option.getD_some]

theorem claims_of_heard (hub : Hub L) (hmember : watcher ∈ hub.members) (hne : peer ≠ watcher)
    (hnotice : notices peer watcher = none) (sender : Address) :
    hub.claims notices watcher peer sender = hub.estate peer sender := by
  simp only [claims, hmember, hne, ne_eq, not_false_eq_true, and_self, if_true, hnotice,
    Option.getD_none]

/-- The claims of a peer stay as they are with its estate and its notices. -/
theorem claims_congr {notices' : Notices}
    (hmember : watcher ∈ hub'.members ↔ watcher ∈ hub.members)
    (hnotice : notices' peer watcher = notices peer watcher)
    (hestate : hub'.estate peer sender = hub.estate peer sender) :
    hub'.claims notices' watcher peer sender = hub.claims notices watcher peer sender := by
  simp only [claims, hmember, hnotice]
  cases notices peer watcher with
  | none => simp only [Option.getD_none, hestate]
  | some estate => rfl

end Hub

/-- The index shows, of every node, the local receivers of what is claimed. -/
def ReverseIndex.Mirrors (isLocal : Address → Bool) (index : ReverseIndex)
    (claims : NodeId → Estate) : Prop :=
  ∀ peer sender, index.receivers? peer sender =
    (claims peer sender).bind (·.localReceivers? isLocal)

theorem ReverseIndex.Mirrors.congr {isLocal : Address → Bool} {index : ReverseIndex}
    {claims claims' : NodeId → Estate} (h : index.Mirrors isLocal claims)
    (hclaims : ∀ peer sender, claims' peer sender = claims peer sender) :
    index.Mirrors isLocal claims' := by
  intro peer sender
  rw [hclaims, h peer sender]

/-- What an operation with an origin keeps: who is a member, the index of the origin, and that the
indexes are compact and mirror their claims. -/
structure Fabric.Upkeep (serves : NodeId → Address → Bool) (notices notices' : Notices)
    (origin : NodeId) (before after : Fabric) : Prop where
  members : after.hub.members = before.hub.members
  own : after.index origin = before.index origin
  compact : ∀ node, (before.index node).Compact → (after.index node).Compact
  mirrors : ∀ node,
    (before.index node).Mirrors (serves node) (before.hub.claims notices node) →
      (after.index node).Mirrors (serves node) (after.hub.claims notices' node)

namespace Fabric.Upkeep

variable {serves : NodeId → Address → Bool} {notices notices' : Notices} {origin : NodeId}
  {before after : Fabric}

theorem refl (fabric : Fabric) : Upkeep serves notices notices origin fabric fabric :=
  ⟨rfl, rfl, fun _ h => h, fun _ h => h⟩

theorem trans {a b c : Fabric} (hab : Upkeep serves notices notices origin a b)
    (hbc : Upkeep serves notices notices origin b c) :
    Upkeep serves notices notices origin a c :=
  ⟨hbc.members.trans hab.members, hbc.own.trans hab.own,
    fun node h => hbc.compact node (hab.compact node h),
    fun node h => hbc.mirrors node (hab.mirrors node h)⟩

/-- An event that is about the estate of its origin alone, and is noted by all other members. -/
theorem of_event (event : CacheEvent) (hmembers : after.hub.members = before.hub.members)
    (hindex : ∀ node, after.index node =
      if node ∈ before.hub.members ∧ node ≠ origin then
        (before.index node).noted (serves node) event
      else before.index node)
    (hestates : ∀ peer sender, peer ≠ origin →
      after.hub.estate peer sender = before.hub.estate peer sender)
    (hnotices : ∀ peer node, peer ≠ origin → notices' peer node = notices peer node)
    (hevent : ∀ node ∈ before.hub.members, node ≠ origin →
      (before.index node).Mirrors (serves node) (before.hub.claims notices node) →
      ∀ peer sender, ((before.index node).noted (serves node) event).receivers? peer sender =
        if origin = peer then
          (after.hub.claims notices' node origin sender).bind (·.localReceivers? (serves node))
        else (before.index node).receivers? peer sender) :
    Upkeep serves notices notices' origin before after where
  members := hmembers
  own := by simp [hindex]
  compact := by
    intro node h
    rw [hindex]
    split
    · exact h.noted event
    · exact h
  mirrors := by
    intro node h
    have hothers : ∀ peer sender, peer ≠ origin →
        after.hub.claims notices' node peer sender =
          before.hub.claims notices node peer sender := by
      intro peer sender hne
      exact Hub.claims_congr (by rw [hmembers]) (hnotices peer node hne) (hestates peer sender hne)
    rw [hindex]
    by_cases hmember : node ∈ before.hub.members
    · by_cases hne : node = origin
      · subst hne
        rw [if_neg (by simp)]
        refine h.congr fun peer sender => ?_
        by_cases hpeer : peer = node
        · rw [hpeer, Hub.claims_self, Hub.claims_self]
        · exact hothers peer sender hpeer
      · rw [if_pos ⟨hmember, hne⟩]
        intro peer sender
        rw [hevent node hmember hne h]
        split
        · next heq => rw [heq]
        · next heq => rw [h peer sender, hothers peer sender fun hp => heq hp.symm]
    · rw [if_neg (by simp [hmember])]
      refine h.congr fun peer sender => ?_
      rw [Hub.claims_of_absent hmember, Hub.claims_of_absent (by rwa [hmembers])]

end Fabric.Upkeep

/-! ## Changes of the hub -/

namespace Hub

variable {host : Address → NodeId} {env : Environment} {serves : NodeId → Address → Bool}
  {notices notices' : Notices} {hub : Hub Feed} {indexes : NodeMap ReverseIndex}
  {origin : NodeId} {key : Address}

/-- The members other than the origin of a change listen. -/
abbrev HeardBy (hub : Hub Feed) (origin : NodeId) : Prop :=
  ∀ node ∈ hub.members, node ≠ origin → hub.Listens node

/-- A host writes the registry of one of its senders. -/
theorem Held.upkeep_put (h : hub.Held host)
    (henv : ∀ node, (env node).routes.isLocal = serves node) (hlisten : hub.HeardBy origin)
    (hheard : ∀ node, notices origin node = none) (hosted : host key = origin)
    (value : Registry) :
    Fabric.Upkeep serves notices notices origin ⟨hub, indexes⟩
      ⟨(hub.put (Feed.react env) origin key value indexes).cache,
        (hub.put (Feed.react env) origin key value indexes).world⟩ := by
  obtain ⟨hcache, hindexes⟩ :=
    put_listening env value (h.legible.get key) hlisten indexes
  rw [hcache]
  refine .of_event (.ofWrite key (hub.lookup key) value origin) rfl ?_ ?_
    (fun _ _ _ => rfl) ?_
  · intro node
    rw [← henv]
    exact hindexes node
  · intro peer sender hne
    rw [estate_insert]
    split
    · next heq =>
      rw [if_neg fun hp => hne hp.symm, h.estate_eq, if_neg]
      rw [← heq, hosted]
      exact fun hp => hne hp.symm
    · rfl
  · intro node hmember hne hmirrors peer sender
    have hbefore : ∀ sender, (Fabric.index ⟨hub, indexes⟩ node).receivers? origin sender =
        (hub.estate origin sender).bind (·.localReceivers? (serves node)) := by
      intro sender
      rw [hmirrors origin sender, claims_of_heard hub hmember (fun hp => hne hp.symm) (hheard node)]
    rw [ReverseIndex.receivers?_noted_ofWrite]
    · by_cases hpeer : origin = peer
      · subst hpeer
        have hafter := claims_of_heard { hub with data := hub.data.insert key (.of origin value) }
          hmember (fun hp => hne hp.symm) (hheard node) sender
        rw [if_pos rfl, hafter, estate_insert, hbefore]
        by_cases hkey : key = sender <;> simp [hkey]
      · simp [hpeer]
    · intro hnone
      rw [hbefore, h.estate_eq, if_pos hosted, hnone]
      rfl

/-- An entry is taken out in the name of the host of its sender. -/
theorem Held.upkeep_takeOut (h : hub.Held host)
    (henv : ∀ node, (env node).routes.isLocal = serves node)
    (hlisten : hub.HeardBy (host key))
    (hunnoticed : host key ∈ hub.members → ∀ node, notices (host key) node = none)
    {origin : Holding → NodeId} {event : Registry → NodeId → CacheEvent}
    (horigin : ∀ holding, hub.data[key]? = some holding → origin holding = host key)
    (hvalued : ∀ old, (event old (host key)).Valued)
    (hevent : ∀ old isLocal (index : ReverseIndex) peer sender,
      (index.noted isLocal (event old (host key))).receivers? peer sender =
        if host key = peer ∧ key = sender then none else index.receivers? peer sender) :
    Fabric.Upkeep serves notices notices (host key) ⟨hub, indexes⟩
      ⟨(hub.takeOut (Feed.react env) key origin event indexes).cache,
        (hub.takeOut (Feed.react env) key origin event indexes).world⟩ := by
  cases hholding : hub.data[key]? with
  | none =>
    simp only [takeOut, hholding]
    exact .refl _
  | some holding =>
    obtain ⟨old, hread⟩ := h.legible key holding hholding
    have hsame := horigin holding hholding
    have hheard := hunnoticed (h key holding hholding).1
    obtain ⟨hcache, hindexes⟩ := takeOut_listening env hholding hread
      (hsame ▸ hvalued old) (hsame ▸ hlisten) indexes
    rw [hcache]
    rw [hsame] at hindexes
    refine .of_event (event old (host key)) rfl ?_ ?_ (fun _ _ _ => rfl) ?_
    · intro node
      rw [← henv]
      exact hindexes node
    · intro peer sender hne
      rw [estate_erase]
      split
      · next heq =>
        rw [h.estate_eq, if_neg]
        rw [← heq]
        exact fun hp => hne hp.symm
      · rfl
    · intro node hmember hne hmirrors peer sender
      rw [hevent]
      by_cases hpeer : host key = peer
      · subst hpeer
        have hafter := claims_of_heard { hub with data := hub.data.erase key } hmember
          (fun hp => hne hp.symm) (hheard node) sender
        rw [if_pos rfl, hafter, estate_erase, hmirrors,
          claims_of_heard hub hmember (fun hp => hne hp.symm) (hheard node)]
        by_cases hkey : key = sender <;> simp [hkey]
      · simp [hpeer]

/-- All entries of a node are evicted, and with them what was to be learnt of its departure. -/
theorem upkeep_evictNode (henv : ∀ node, (env node).routes.isLocal = serves node)
    (hlisten : hub.HeardBy origin)
    (hlost : ∀ node, notices' origin node = (notices origin node).map fun _ _ => none)
    (hnotices : ∀ peer node, peer ≠ origin → notices' peer node = notices peer node) :
    Fabric.Upkeep serves notices notices' origin ⟨hub, indexes⟩
      ⟨(hub.evictNode (Feed.react env) origin indexes).cache,
        (hub.evictNode (Feed.react env) origin indexes).world⟩ := by
  obtain ⟨hcache, hindexes⟩ := evictNode_listening env hlisten indexes
  rw [hcache]
  refine .of_event (.mapEvicted origin) rfl ?_ ?_ hnotices ?_
  · intro node
    rw [← henv]
    exact hindexes node
  · intro peer sender hne
    rw [estate_withoutOwner, if_neg fun hp => hne hp.symm]
  · intro node hmember hne hmirrors peer sender
    rw [ReverseIndex.receivers?_noted_mapEvicted]
    by_cases hpeer : origin = peer
    · rw [if_pos hpeer, if_pos hpeer]
      have hnothing : claims { hub with data := withoutOwner hub.data origin } notices' node
          origin sender = none := by
        simp only [claims, hlost]
        split
        · cases notices origin node with
          | none => simp [estate_withoutOwner]
          | some estate => rfl
        · rfl
      rw [hnothing]
      rfl
    · rw [if_neg hpeer, if_neg hpeer]

end Hub

end DirectedPresence
