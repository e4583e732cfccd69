import DirectedPresence.Proofs.CommutingCalls
import DirectedPresence.Proofs.SweptSeats

/-!
Where an index has its senders from. An index takes note of the writes of other nodes that are told
to its own, and when its node joins it is seeded with what others have recorded in the hub. So
whatever is done in one step, a sender that is listed after it under a node was listed there before,
or the hub holds an entry of the sender now that this node owns or has recorded, and it is another
node than that of the index (`Cluster.Calm.grows_after`). That the entry is still there at the end
of the step takes the feed to hear of the removals as well: a feed that gets no values hears of
neither, and one that gets them stays registered.
-/

namespace DirectedPresence

/-- The event tells that the node has recorded the sender. -/
def CacheEvent.Records (peer : NodeId) (sender : Address) : CacheEvent → Prop
  | added key _ node | updated key _ _ node => node = peer ∧ key = sender
  | removed .. | evicted .. | mapEvicted _ | mapCleared _ => False

private theorem CacheEvent.records_withoutValues {peer : NodeId} {sender : Address}
    {event : CacheEvent} : event.withoutValues.Records peer sender ↔ event.Records peer sender := by
  cases event <;> rfl

/-! ## What an index gains -/

namespace ReverseIndex

variable {isLocal : Address → Bool} {self node : NodeId} {news news' : NodeId → Address → Prop}
  {before middle after index : ReverseIndex}

/-- What the later index lists the earlier one lists as well, but for senders of which there is
news; these have receivers. -/
def Grows (news : NodeId → Address → Prop) (before after : ReverseIndex) : Prop :=
  ∀ (peer : NodeId) (sender : Address) (receivers : AddressSet),
    after.receivers? peer sender = some receivers →
      before.receivers? peer sender = some receivers ∨
        receivers.isEmpty = false ∧ news peer sender

theorem Grows.refl (news : NodeId → Address → Prop) (index : ReverseIndex) :
    Grows news index index :=
  fun _ _ _ hlisted => .inl hlisted

theorem Grows.trans (h : Grows news before middle) (h' : Grows news middle after) :
    Grows news before after := by
  intro peer sender receivers hlisted
  rcases h' peer sender receivers hlisted with hmiddle | hnews
  · exact h peer sender receivers hmiddle
  · exact .inr hnews

theorem Grows.mono (h : Grows news before after)
    (hnews : ∀ peer sender, news peer sender → news' peer sender) : Grows news' before after :=
  fun peer sender receivers hlisted =>
    (h peer sender receivers hlisted).imp_right fun ⟨hsome, hfirst⟩ => ⟨hsome, hnews _ _ hfirst⟩

private theorem receivers?_empty (peer : NodeId) (sender : Address) :
    ({} : ReverseIndex).receivers? peer sender = none := by
  simp [receivers?, senders]

private theorem grows_upsert (index : ReverseIndex) (node : NodeId) (key : Address)
    (receivers : AddressSet) :
    Grows (fun peer sender => node = peer ∧ key = sender) index
      (index.upsert node key receivers) := by
  intro peer sender found hlisted
  rw [receivers?_upsert] at hlisted
  split at hlisted
  · next hnew =>
    cases hlisted
    exact .inr hnew
  · exact .inl hlisted

private theorem grows_removeSender (news : NodeId → Address → Prop) (index : ReverseIndex)
    (node : NodeId) (key : Address) : Grows news index (index.removeSender node key) := by
  intro peer sender receivers hlisted
  rw [receivers?_removeSender] at hlisted
  split at hlisted
  · cases hlisted
  · exact .inl hlisted

private theorem grows_clearNode (news : NodeId → Address → Prop) (index : ReverseIndex)
    (node : NodeId) : Grows news index (index.clearNode node) := by
  intro peer sender receivers hlisted
  rw [receivers?_clearNode] at hlisted
  split at hlisted
  · cases hlisted
  · exact .inl hlisted

/-- An index gains what the event records, at most. -/
theorem grows_noted (isLocal : Address → Bool) (index : ReverseIndex) (event : CacheEvent) :
    Grows (fun peer sender => event.Records peer sender) index (index.noted isLocal event) := by
  cases event with
  | added key value node =>
    cases value with
    | none => exact .refl _ _
    | some registry => exact grows_upsert index node key _
  | updated key old new node =>
    cases new with
    | none => exact .refl _ _
    | some registry =>
      simp only [noted, observe]
      split
      · exact grows_removeSender _ index node key
      · exact grows_upsert index node key _
  | removed key old node | evicted key old node =>
    simp only [noted, observe]
    split
    · exact grows_removeSender _ index node key
    · exact .refl _ _
  | mapEvicted node | mapCleared node => exact grows_clearNode _ index node

/-- An index is seeded with what others have recorded. -/
theorem grows_seed (isLocal : Address → Bool) (self : NodeId)
    (entries : List (Address × Registry)) (index : ReverseIndex) :
    Grows (fun peer sender => peer ≠ self ∧
      ∃ registry, (sender, registry) ∈ entries ∧ registry.origin? = some peer) index
      (seed isLocal self entries index) := by
  induction entries generalizing index with
  | nil => exact .refl _ _
  | cons p rest ih =>
    obtain ⟨key, registry⟩ := p
    have hrest := ih (seed isLocal self [(key, registry)] index)
    rw [seed_cons]
    refine Grows.trans ?_ (hrest.mono ?_)
    case refine_2 =>
      rintro peer sender ⟨hne, other, hmem, horigin⟩
      exact ⟨hne, other, List.mem_cons_of_mem _ hmem, horigin⟩
    simp only [seed]
    split
    · exact .refl _ _
    · next origin horigin =>
      split
      · exact .refl _ _
      · next hne =>
        refine (grows_upsert index origin key _).mono ?_
        rintro peer sender ⟨rfl, rfl⟩
        exact ⟨hne, registry, List.mem_cons_self, horigin⟩

end ReverseIndex

namespace Feed

open ReverseIndex

variable {env : Environment} {node : NodeId} {news : NodeId → Address → Prop}
  {events : List CacheEvent}

private theorem grows_follow (env : Environment) (node : NodeId) (index : ReverseIndex)
    (hnews : ∀ event ∈ events, ∀ peer sender, event.Records peer sender → news peer sender) :
    Grows news index (follow env node index events) := by
  induction events generalizing index with
  | nil => exact .refl _ _
  | cons event events ih =>
    have hfirst : Grows news index (index.noted (env node).routes.isLocal event) :=
      (grows_noted _ index event).mono (hnews event List.mem_cons_self)
    exact hfirst.trans (ih _ fun later hmem => hnews later (List.mem_cons_of_mem event hmem))

/-- Events that record nothing leave in an index what was there, at most. -/
theorem receivers?_of_follow {index : ReverseIndex} {peer : NodeId} {sender : Address}
    {receivers : AddressSet}
    (hnone : ∀ event ∈ events, ∀ peer sender, ¬ event.Records peer sender)
    (hlisted : (follow env node index events).receivers? peer sender = some receivers) :
    index.receivers? peer sender = some receivers := by
  have hshrinks : Grows (fun _ _ => False) index (follow env node index events) :=
    grows_follow env node index hnone
  exact (hshrinks peer sender receivers hlisted).resolve_right fun hnews => hnews.2

/-- A removal that is heard takes the sender off the index, however often it is heard. -/
theorem receivers?_follow_removed (index : ReverseIndex) (key : Address) (old : Registry)
    (owner : NodeId) {times : Nat} (hheard : times ≠ 0) :
    (follow env node index
      (List.replicate times (.removed key (some old) owner))).receivers? owner key = none := by
  obtain ⟨times, rfl⟩ := Nat.exists_eq_succ_of_ne_zero hheard
  rw [List.replicate_succ', follow_append]
  have hlast : ((follow env node index (List.replicate times (.removed key (some old) owner))).noted
      (env node).routes.isLocal (.removed key (some old) owner)).receivers? owner key = none := by
    rw [receivers?_noted_removed, if_pos ⟨rfl, rfl⟩]
  exact hlast

end Feed

/-! ## Calls on the hub -/

namespace Contents

variable {contents : Contents} {node : NodeId} {key sender : Address}

/-- The node owns the entry of the sender. -/
def Owns (contents : Contents) (node : NodeId) (sender : Address) : Prop :=
  ∃ kept, contents[sender]? = some kept ∧ kept.owner = node

/-- Of the entries that a caller owns another node may have been told, if some of its listeners get
values. -/
def Told (contents : Contents) (ears : Nat) (caller node peer : NodeId) (sender : Address) : Prop :=
  peer = caller ∧ caller ≠ node ∧ ears ≠ 0 ∧ contents.Owns caller sender

private theorem owns_insert (contents : Contents) (node : NodeId) (key : Address)
    (value : Registry) : Owns (contents.insert key ⟨value, node⟩) node key :=
  ⟨⟨value, node⟩, Std.ExtTreeMap.getElem?_insert_self, rfl⟩

private theorem Owns.insert (h : contents.Owns node sender) (key : Address) (value : Registry) :
    Owns (contents.insert key ⟨value, node⟩) node sender := by
  by_cases heq : key = sender
  · exact heq ▸ owns_insert contents node key value
  · obtain ⟨kept, hkept, howner⟩ := h
    refine ⟨kept, ?_, howner⟩
    simpa [Std.ExtTreeMap.getElem?_insert, heq] using hkept

private theorem Owns.erase (h : contents.Owns node sender) (hne : key ≠ sender) :
    Owns (contents.erase key) node sender := by
  obtain ⟨kept, hkept, howner⟩ := h
  refine ⟨kept, ?_, howner⟩
  simpa [Std.ExtTreeMap.getElem?_erase, hne] using hkept

private theorem Owns.getElem?_registries_ne (h : contents.Owns node sender) :
    contents.registries[sender]? ≠ none := by
  obtain ⟨kept, hkept, -⟩ := h
  simp [getElem?_registries, hkept]

end Contents

private theorem CacheEvent.records_ofWrite {key sender : Address} {old : Option Registry}
    {new : Registry} {node peer : NodeId} :
    (ofWrite key old new node).Records peer sender ↔ node = peer ∧ key = sender := by
  cases old <;> rfl

namespace Fabric

open ReverseIndex

variable {env : Environment} {f : Fabric} {contents : Contents} {node : NodeId} {view : View}
  {start : ReverseIndex}

/-- What an index has gained from the calls of one node is still in the hub after another call of
that node, since the index gains what is written and loses what is removed. -/
theorem Calm.grows_call (h : f.Calm) (hholds : f.hub.Holds contents) (env : Environment)
    (request : CacheCall)
    (hgrows : Grows (contents.Told (f.hub.ears node) view.node node) start (f.index node)) :
    Grows (Contents.Told (request.effect view.node contents) (f.hub.ears node) view.node node) start
      ((f.call env view request).index node) := by
  cases request with
  | get key | entries => exact hgrows
  | put key value =>
    rw [h.index_call hholds env view rfl]
    refine (hgrows.mono ?_).trans (Feed.grows_follow env node _ ?_)
    · rintro peer sender ⟨hpeer, hother, hears, howns⟩
      exact ⟨hpeer, hother, hears, howns.insert key value⟩
    · intro event hmem peer sender hrecords
      obtain ⟨htold, rfl⟩ := List.mem_replicate.mp hmem
      obtain ⟨rfl, rfl⟩ := CacheEvent.records_ofWrite.mp hrecords
      rw [ne_eq, ite_eq_left_iff, Classical.not_imp] at htold
      exact ⟨rfl, Ne.symm htold.1, htold.2, contents.owns_insert view.node key value⟩
  | remove key =>
    rw [h.index_call hholds env view rfl]
    cases hold : contents.registries[key]? with
    | none =>
      simp only [CacheCall.event?, hold, Option.map_none, Option.elim_none]
      refine hgrows.mono ?_
      rintro peer sender ⟨hpeer, hother, hears, howns⟩
      refine ⟨hpeer, hother, hears, howns.erase ?_⟩
      rintro rfl
      exact howns.getElem?_registries_ne hold
    | some old =>
      simp only [CacheCall.event?, hold, Option.map_some, Option.elim_some]
      intro peer sender receivers hlisted
      have hbefore : (f.index node).receivers? peer sender = some receivers := by
        refine Feed.receivers?_of_follow (fun event hmem _ _ => ?_) hlisted
        rw [List.eq_of_mem_replicate hmem]
        exact id
      rcases hgrows peer sender receivers hbefore with hstart | ⟨hsome, hpeer, hother, hears, howns⟩
      · exact .inl hstart
      · refine .inr ⟨hsome, hpeer, hother, hears, howns.erase ?_⟩
        rintro rfl
        rw [hpeer, if_neg (Ne.symm hother), Feed.receivers?_follow_removed _ _ _ _ hears] at hlisted
        cases hlisted

/-- What an index gains from the calls of one node is in the hub in the end. -/
theorem Calm.grows_calls (h : f.Calm) (hholds : f.hub.Holds contents) (env : Environment)
    {acts : List (HubAct Feed)} (hcalls : ∀ act ∈ acts, ∃ request, act = .call view request)
    (hgrows : Grows (contents.Told (f.hub.ears node) view.node node) start (f.index node)) :
    Grows (Contents.Told (acts.foldl HubAct.effect contents) (f.hub.ears node) view.node node) start
      ((f.hub.run (Feed.react env) acts f.indexes).world[node]?.getD {}) := by
  induction acts generalizing f contents with
  | nil => exact hgrows
  | cons act acts ih =>
    obtain ⟨request, rfl⟩ := hcalls act List.mem_cons_self
    have hafter := h.grows_call hholds env request hgrows
    rw [← h.ears_call env view request node] at hafter ⊢
    exact ih (h.call env view request)
      (hholds.perform (Feed.react env) (.call view request) f.indexes)
      (fun later hmem => hcalls later (List.mem_cons_of_mem _ hmem)) hafter

end Fabric

/-! ## Entries of others -/

namespace Hub

variable {hub : Hub Feed} {contents : Contents} {self node peer : NodeId} {sender : Address}

/-- The hub holds an entry of the sender that the node wrote last, or that it recorded. -/
def RecordedBy {L : Type} (hub : Hub L) (node : NodeId) (sender : Address) : Prop :=
  ∃ holding, hub.data[sender]? = some holding ∧ (holding.owner = node ∨
    ∃ registry, holding.registry = .ok registry ∧ registry.origin? = some node)

/-- The hub holds an entry of the sender that another node than this one wrote last or recorded. -/
def RecordedElsewhere {L : Type} (hub : Hub L) (self node : NodeId) (sender : Address) : Prop :=
  node ≠ self ∧ hub.RecordedBy node sender

private theorem Holds.recordedElsewhere_of_told (h : hub.Holds contents) {ears : Nat}
    {caller : NodeId} (htold : contents.Told ears caller self peer sender) :
    hub.RecordedElsewhere self peer sender := by
  obtain ⟨rfl, hother, -, kept, hkept, howner⟩ := htold
  refine ⟨hother, .of kept.owner kept.registry, ?_, .inl ?_⟩
  · rw [h.getElem?, hkept, Option.map_some]
  · rw [Holding.owner_of, howner]

private theorem Holds.recordedBy_of_entry (h : hub.Holds contents) {registry : Registry}
    (hentry : contents.registries[sender]? = some registry)
    (horigin : registry.origin? = some peer) : hub.RecordedBy peer sender := by
  rw [Contents.getElem?_registries] at hentry
  obtain ⟨kept, hkept, rfl⟩ := Option.map_eq_some_iff.mp hentry
  refine ⟨.of kept.owner kept.registry, ?_, .inr ⟨kept.registry, ?_, horigin⟩⟩
  · rw [h.getElem?, hkept, Option.map_some]
  · exact Holding.registry_of ..

/-- Acts whose events record nothing leave in an index what was there, at most. -/
theorem Holds.receivers?_of_run (h : hub.Holds contents) {env : Environment}
    {acts : List (HubAct Feed)} {indexes : NodeMap ReverseIndex} {receivers : AddressSet}
    (hquiet : ∀ act ∈ acts, ∀ contents : Contents, ∀ event ∈ act.event? contents,
      ∀ peer sender, ¬ event.Records peer sender)
    (hlisted : ((hub.run (Feed.react env) acts indexes).world[node]?.getD {}).receivers? peer
      sender = some receivers) :
    (indexes[node]?.getD {}).receivers? peer sender = some receivers := by
  rw [h.index_run env node acts indexes] at hlisted
  refine Feed.receivers?_of_follow ?_ hlisted
  intro event hmem
  obtain ⟨hearing, hheard, rfl⟩ := List.mem_map.mp hmem
  obtain ⟨act, hact, before, told, htold, heq⟩ :=
    h.event_of_mem_run (List.mem_filter.mp hheard).1
  have hnone := hquiet act hact before told htold
  intro peer sender hrecords
  rw [heq, Registration.view] at hrecords
  split at hrecords
  · exact hnone peer sender hrecords
  · exact hnone peer sender (CacheEvent.records_withoutValues.mp hrecords)

end Hub

/-- What is done to the hub itself records nothing. -/
theorem Operation.not_records_hubAct {operation : Operation} {act : HubAct Feed}
    (hhub : operation.hubAct? = some act) (contents : Contents) :
    ∀ event ∈ act.event? contents, ∀ peer sender, ¬ event.Records peer sender := by
  cases operation with
  | hubLeave =>
    cases hhub
    exact nofun
  | hubEvictNode | hubClear =>
    cases hhub
    rintro event ⟨⟩
    exact fun _ _ => id
  | hubEvict key =>
    cases hhub
    intro event hevent
    obtain ⟨kept, -, rfl⟩ := Option.map_eq_some_iff.mp hevent
    exact fun _ _ => id
  | _ => cases hhub

private theorem Operation.not_accesses_of_hubAct? {operation : Operation} {act : HubAct Feed}
    (hhub : operation.hubAct? = some act) (key : Address) : ¬ operation.Accesses key := by
  cases operation with
  | hubLeave | hubEvict | hubEvictNode | hubClear => exact id
  | _ => cases hhub

namespace Seat

open ReverseIndex

variable {env : Environment} {seat : Seat} {node : NodeId}

/-- What an index gains while a node enters the hub and refills its part of it. -/
theorem grows_refilled (env : Environment) (hcalm : seat.fabric.Calm) (node : NodeId) :
    ∃ contents, (seat.refilled env).fabric.hub.Holds contents ∧ ∃ ears,
      Grows (contents.Told ears seat.node.id node) (seat.fabric.index node)
        ((seat.refilled env).fabric.index node) := by
  obtain ⟨before, hholds⟩ := hcalm.holds
  obtain ⟨calls, hcalls, hcomes, -⟩ := wrote_refilled env seat
  have hkeeps : (HubAct.join seat.node.id).Keeps Hub.Owned := nofun
  have hentered : (seat.entered env).fabric.Calm := hcalm.perform env hkeeps
  have hheld : (seat.entered env).fabric.hub.Holds before := hholds
  refine ⟨calls.foldl HubAct.effect before, ?_, (seat.entered env).fabric.hub.ears node, ?_⟩
  · rw [refilled, hcomes.hub]
    exact hheld.run (Feed.react env) seat.fabric.indexes calls
  · have hindex : (seat.refilled env).fabric.index node = ((seat.entered env).fabric.hub.run
        (Feed.react env) calls seat.fabric.indexes).world[node]?.getD {} := by
      rw [Fabric.index, refilled, hcomes.indexes]
      rfl
    rw [hindex]
    exact hentered.grows_calls hheld env hcalls (.refl _ _)

/-- What a view lists is what the hub holds. -/
theorem mem_entries_of_view {contents : Contents} (hholds : seat.fabric.hub.Holds contents)
    {view : View} (hbacking : seat.node.cache.backing = .clustered view)
    {entries : List (Address × Registry)} (hentries : seat.entries = .ok entries) {sender : Address}
    {registry : Registry} (hmem : (sender, registry) ∈ entries) :
    contents.registries[sender]? = some registry := by
  simp only [Seat.entries, hbacking, hholds.entries] at hentries
  split at hentries
  · cases hentries
  · cases hentries
    exact Std.ExtTreeMap.mem_toList_iff_getElem?_eq_some.mp hmem

/-- A node that joins lists what others have recorded; every other index gains from its writes. -/
theorem grows_join (env : Environment) (hcalm : seat.fabric.Calm) (node : NodeId) :
    Grows ((seat.join env).seat.fabric.hub.RecordedElsewhere node) (seat.fabric.index node)
      ((seat.join env).seat.fabric.index node) := by
  obtain ⟨contents, hholds, ears, hgrows⟩ := grows_refilled env hcalm node
  obtain ⟨-, -, -, hsame⟩ := wrote_refilled env seat
  obtain ⟨indexes, hseed, helsewhere⟩ := seedIndex_elsewhere env (seat.refilled env)
  have hid : (seat.refilled env).node.id = seat.node.id := hsame.id
  have hafter : (seat.join env).seat.fabric.hub.Holds contents := by
    rw [seat_join, hseed]
    exact (Hub.data_addListener ..).trans hholds
  have hrefilled : Grows ((seat.join env).seat.fabric.hub.RecordedElsewhere node)
      (seat.fabric.index node) ((seat.refilled env).fabric.index node) :=
    hgrows.mono fun _ _ => hafter.recordedElsewhere_of_told
  refine hrefilled.trans ?_
  by_cases hown : node = seat.node.id
  · subst hown
    have hindex : (seat.join env).seat.fabric.index seat.node.id =
        ((seat.refilled env).seedIndex env).seat.fabric.index seat.node.id := rfl
    have hbacking := (hsame.view (seat.fabric.hub.join seat.node.id).2).mpr rfl
    rw [hindex, seedIndex]
    split
    · exact .refl _ _
    · next entries hentries =>
      rw [Fabric.index_setIndex, if_pos hid, hid]
      refine (grows_seed _ _ entries _).mono ?_
      rintro peer sender ⟨hne, registry, hmem, horigin⟩
      have hentry := mem_entries_of_view hholds hbacking hentries hmem
      exact ⟨hne, hafter.recordedBy_of_entry hentry horigin⟩
  · have hindex : (seat.join env).seat.fabric.index node =
        (seat.refilled env).fabric.index node := by
      rw [seat_join, hseed]
      exact congrArg (·.getD {}) (helsewhere node (hid ▸ hown))
    rw [hindex]
    exact .refl _ _

/-- A node that leaves lists nothing any more, or what it listed before; so does every other one. -/
theorem grows_leave (env : Environment) (news : NodeId → Address → Prop) (node : NodeId) :
    Grows news (seat.fabric.index node) ((seat.leave env).seat.fabric.index node) := by
  by_cases hown : node = seat.node.id
  · subst hown
    cases hshutting : seat.node.server.shuttingDown with
    | true =>
      simp only [leave, hshutting, if_true]
      exact .refl _ _
    | false =>
      rw [leave_of_awake env hshutting]
      show Grows news _ ((Fabric.setIndex _ seat.node.id _).index _)
      rw [Fabric.index_setIndex, if_pos rfl]
      intro peer sender receivers hlisted
      rw [receivers?_empty] at hlisted
      cases hlisted
  · rw [(enacts_leave env seat).index node hown]
    exact .refl _ _

/-- A change of membership at some node. -/
theorem grows_handle (env : Environment) (hcalm : seat.fabric.Calm) (event : MembershipEvent)
    (node : NodeId) : Grows ((seat.handle env event).seat.fabric.hub.RecordedElsewhere node)
      (seat.fabric.index node) ((seat.handle env event).seat.fabric.index node) := by
  cases event with
  | localJoined => exact grows_join env hcalm node
  | localLeft => exact grows_leave env _ node
  | remoteJoined peer => exact .refl _ _
  | remoteLeft peer =>
    show Grows _ _ ((Fabric.setIndex _ seat.node.id _).index node)
    rw [Fabric.index_setIndex]
    split
    · next heq => exact heq ▸ grows_clearNode _ _ peer
    · exact .refl _ _

/-- What an index gains by whatever happens at whatever node is about other nodes than its own, and
the hub holds what they have recorded. -/
theorem Unheard.grows_perform (h : seat.Unheard) (hcalm : seat.fabric.Calm) (env : Environment)
    (operation : Operation) (node : NodeId) :
    Grows ((seat.perform env operation).seat.fabric.hub.RecordedElsewhere node)
      (seat.fabric.index node) ((seat.perform env operation).seat.fabric.index node) := by
  by_cases hmember : ∃ event, operation = .membership event
  · obtain ⟨event, rfl⟩ := hmember
    exact grows_handle env hcalm event node
  · have hplain : ∀ event, operation ≠ .membership event := not_exists.mp hmember
    obtain ⟨contents, hholds⟩ := hcalm.holds
    obtain ⟨acts, hacts, -, hcomes⟩ := h.enacts_perform env (hplain _) (hplain _)
    obtain ⟨hhub, hindexes, -⟩ := hcomes hplain
    have hafter : (seat.perform env operation).seat.fabric.hub.Holds
        (acts.foldl HubAct.effect contents) :=
      hhub ▸ hholds.run (Feed.react env) seat.fabric.indexes acts
    rw [show (seat.perform env operation).seat.fabric.index node = _ from
      congrArg (fun indexes : NodeMap ReverseIndex => indexes[node]?.getD {}) hindexes]
    cases hhubAct : operation.hubAct? with
    | some hubAct =>
      intro peer sender receivers hlisted
      refine .inl (hholds.receivers?_of_run (fun act hact => ?_) hlisted)
      rcases hacts act hact with ⟨-, -, key, -, -, -, hkey⟩ | hthis
      · exact absurd hkey (Operation.not_accesses_of_hubAct? hhubAct key)
      · exact Operation.not_records_hubAct hthis
    | none =>
      have hwrites : ∀ act ∈ acts, seat.Writes operation.Accesses act := fun act hact =>
        (hacts act hact).resolve_right (by simp [hhubAct])
      cases hbacking : seat.node.cache.backing with
      | standalone cache =>
        have hnone : acts = [] := List.eq_nil_iff_forall_not_mem.mpr fun act hact => by
          obtain ⟨view, -, -, hview, -⟩ := hwrites act hact
          cases hbacking.symm.trans hview
        subst hnone
        exact .refl _ _
      | clustered view =>
        have hcalls : ∀ act ∈ acts, ∃ request, act = .call view request := by
          intro act hact
          obtain ⟨other, request, -, hview, rfl, -⟩ := hwrites act hact
          cases hbacking.symm.trans hview
          exact ⟨request, rfl⟩
        have hgrows := hcalm.grows_calls hholds env hcalls (.refl _ (seat.fabric.index node))
        exact hgrows.mono fun _ _ => hafter.recordedElsewhere_of_told

end Seat

namespace Cluster

open ReverseIndex

variable {c : Cluster} {node : NodeId}

/-- What an index gains in a step is about other nodes than its own, and after the step the hub
holds what they have recorded. -/
theorem Calm.grows_after (h : c.Calm) (step : Step) (node : NodeId) :
    Grows ((c.after step).fabric.hub.RecordedElsewhere node) (c.fabric.index node)
      ((c.after step).fabric.index node) := by
  cases hseat : c.seat? step.node with
  | none =>
    rw [after_of_none hseat]
    exact .refl _ _
  | some seat =>
    have hcalm := h.at_seat hseat
    have hgrows := hcalm.unheard.grows_perform hcalm.fabric step.env step.operation node
    rw [after_of_seat? hseat, ← fabric_of_seat? hseat]
    exact hgrows

/-- In every run whatsoever: of the senders that an index lists some receiver is listed, the node
that they are listed under is another one than that of the index, and at some point of the run the
hub held an entry of the sender that this node wrote last or recorded. -/
theorem recorded_of_run (hubName : String) (members : List (Server × Settings)) (steps : List Step)
    {peer : NodeId} {sender : Address} {receivers : AddressSet}
    (hlisted : (((start hubName members).run steps).fabric.index node).receivers? peer sender =
      some receivers) :
    receivers.isEmpty = false ∧ ∃ earlier, earlier <+: steps ∧
      ((start hubName members).run earlier).fabric.hub.RecordedElsewhere node peer sender := by
  induction steps using List.reverseRecOn with
  | nil =>
    have hempty : ((start hubName members).run []).fabric.index node = {} := by
      simp [run, start, ofNodes, Fabric.index]
    rw [hempty, receivers?_empty] at hlisted
    cases hlisted
  | append_singleton steps step ih =>
    have hcalm := (calm_start hubName members).run steps
    rw [run_concat] at hlisted
    rcases hcalm.grows_after step node peer sender receivers hlisted with hbefore | ⟨hsome, hnews⟩
    · obtain ⟨hsome, earlier, hprefix, hrecorded⟩ := ih hbefore
      exact ⟨hsome, earlier, hprefix.trans (List.prefix_append _ _), hrecorded⟩
    · rw [← run_concat] at hnews
      exact ⟨hsome, _, List.prefix_refl _, hnews⟩

end Cluster

end DirectedPresence
