import DirectedPresence.Proofs.HubActs
import DirectedPresence.Proofs.Retractions

/-!
What is known of a sender, and what is not about any sender. The store and the cache of a node, the
hub, and every reverse index keep something for each sender; besides there is the rest of a node's
record, and the listeners of the hub (`Seat.Alike`). Whoever deals with certain senders changes
nothing that is known of others, and does the same wherever the same is known of those senders
(`Seat.Deals.elsewhere`, `Seat.Deals.alike`). An event of one sender changes in an index nothing but
what is known of this sender, whoever else is listed there, and a feed that refuses an event had
nothing to note of it; so it does not matter which feeds have refused events before.
-/

namespace DirectedPresence

/-! ## Events of one sender -/

/-- The event tells that a registry of the sender was written or removed. -/
inductive CacheEvent.Concerns (key : Address) : CacheEvent → Prop where
  | write (old : Option Registry) (new : Registry) (node : NodeId) :
      Concerns key (.ofWrite key old new node)
  | removal (old : Registry) (node : NodeId) : Concerns key (.removed key (some old) node)

/-- What a call changes is told by an event of its target. -/
theorem CacheCall.concerns_event? {request : CacheCall} {key : Address}
    (htarget : request.target? = some key) {node : NodeId} {registries : AddressMap Registry}
    {event : CacheEvent} (hevent : event ∈ request.event? node registries) :
    event.Concerns key := by
  cases request with
  | get | entries => cases htarget
  | put other value =>
    cases htarget
    cases hevent
    exact .write _ _ _
  | remove other =>
    cases htarget
    obtain ⟨old, -, rfl⟩ := Option.map_eq_some_iff.mp hevent
    exact .removal old node

/-- What a call leaves of its target does not depend on what was there. -/
theorem CacheCall.getElem?_effect_target {request : CacheCall} {key : Address}
    (htarget : request.target? = some key) {node : NodeId} {contents contents' : Contents} :
    (request.effect node contents')[key]? = (request.effect node contents)[key]? := by
  cases request with
  | get | entries => cases htarget
  | put other value | remove other =>
    cases htarget
    simp [effect]

/-- The event of a call depends on what is there of its target. -/
theorem CacheCall.event?_congr {request : CacheCall} {key : Address}
    (htarget : request.target? = some key) {node : NodeId}
    {registries registries' : AddressMap Registry} (hread : registries'[key]? = registries[key]?) :
    request.event? node registries' = request.event? node registries := by
  cases request with
  | get | entries => cases htarget
  | put other value | remove other =>
    cases htarget
    simp only [event?, hread]

/-- A call writes its target, whatever was there, and nothing else. -/
theorem CacheCall.getElem?_write_target {request : CacheCall} {key : Address}
    (htarget : request.target? = some key) {registries registries' : AddressMap Registry} :
    (request.write registries')[key]? = (request.write registries)[key]? := by
  cases request with
  | get | entries => cases htarget
  | put target value | remove target =>
    cases htarget
    simp [write]

private theorem CacheCall.getElem?_write_of_ne {request : CacheCall} {key other : Address}
    (htarget : request.target? = some key) (hne : other ≠ key) (registries : AddressMap Registry) :
    (request.write registries)[other]? = registries[other]? := by
  cases request with
  | get | entries => cases htarget
  | put target value =>
    cases htarget
    simp [write, Std.ExtTreeMap.getElem?_insert, hne.symm]
  | remove target =>
    cases htarget
    simp [write, Std.ExtTreeMap.getElem?_erase, hne.symm]

namespace CacheEvent.Concerns

variable {key : Address} {event : CacheEvent} {isLocal : Address → Bool}
  {index index' : ReverseIndex}

/-- Of an event that comes without its values an index takes no note. -/
theorem noted_withoutValues (h : event.Concerns key) :
    index.noted isLocal event.withoutValues = index := by
  cases h with
  | write old new node => cases old <;> rfl
  | removal old node => rfl

/-- An index takes no note of anything but the sender that the event concerns. -/
theorem receivers?_noted_of_ne (h : event.Concerns key) {other : Address} (hne : other ≠ key)
    (peer : NodeId) :
    (index.noted isLocal event).receivers? peer other = index.receivers? peer other := by
  cases h with
  | write old new node =>
    rw [ReverseIndex.receivers?_noted_write, if_neg fun heq => hne heq.2.symm]
  | removal old node =>
    rw [ReverseIndex.receivers?_noted_removed, if_neg fun heq => hne heq.2.symm]

/-- Indexes that know the same of a sender know the same of it after an event. -/
theorem receivers?_noted_congr (h : event.Concerns key) {sender : Address}
    (hagree : ∀ peer, index'.receivers? peer sender = index.receivers? peer sender)
    (peer : NodeId) : (index'.noted isLocal event).receivers? peer sender =
      (index.noted isLocal event).receivers? peer sender := by
  cases h with
  | write old new node =>
    rw [ReverseIndex.receivers?_noted_write, ReverseIndex.receivers?_noted_write]
    split
    · next heq => rw [heq.2, hagree]
    · exact hagree peer
  | removal old node =>
    rw [ReverseIndex.receivers?_noted_removed, ReverseIndex.receivers?_noted_removed, hagree]

end CacheEvent.Concerns

namespace Feed

variable {env : Environment} {node : NodeId} {key : Address} {event : CacheEvent}
  {index index' : ReverseIndex}

/-- Among the registrations of a feed those that get values count. -/
theorem follow_views (h : event.Concerns key) (registrations : List (Registration Feed))
    (index : ReverseIndex) :
    follow env node index (registrations.map (·.view event)) =
      follow env node index
        (List.replicate (registrations.countP (·.includesValues)) event) := by
  induction registrations generalizing index with
  | nil => rfl
  | cons r rs ih =>
    cases hvalues : r.includesValues with
    | true =>
      simp only [List.map_cons, Registration.view, hvalues, if_true, List.countP_cons_of_pos,
        List.replicate_succ]
      exact ih _
    | false =>
      have hquiet : follow env node index (r.view event :: rs.map (·.view event)) =
          follow env node index (rs.map (·.view event)) := by
        rw [Registration.view, hvalues]
        exact congrArg (fun index => follow env node index (rs.map (·.view event)))
          h.noted_withoutValues
      rw [List.map_cons, hquiet, ih]
      simp [hvalues]

private theorem receivers?_follow_of_ne (h : event.Concerns key) {other : Address}
    (hne : other ≠ key) (times : Nat) (peer : NodeId) :
    (follow env node index (List.replicate times event)).receivers? peer other =
      index.receivers? peer other := by
  induction times generalizing index with
  | zero => rfl
  | succ times ih => exact ih.trans (h.receivers?_noted_of_ne hne peer)

private theorem receivers?_follow_congr (h : event.Concerns key) {sender : Address}
    (hagree : ∀ peer, index'.receivers? peer sender = index.receivers? peer sender) (times : Nat)
    (peer : NodeId) :
    (follow env node index' (List.replicate times event)).receivers? peer sender =
      (follow env node index (List.replicate times event)).receivers? peer sender := by
  induction times generalizing index index' with
  | zero => exact hagree peer
  | succ times ih => exact ih fun peer => h.receivers?_noted_congr hagree peer

end Feed

/-! ## Listeners that get values -/

/-- No listener that gets values is dropped over an event that comes with them. -/
theorem Listeners.countP_dispatch (env : Environment) {event : CacheEvent} (hvalued : event.Valued)
    {t : Listeners Feed} (htidy : t.Tidy) (indexes : NodeMap ReverseIndex) :
    (t.dispatch (Feed.react env) event indexes).1.registrations.countP (·.includesValues) =
      t.registrations.countP (·.includesValues) := by
  simp only [Listeners.dispatch]
  rw [List.countP_filter]
  refine List.countP_congr fun r hr => ?_
  rw [Bool.and_eq_true, and_iff_left_iff_imp]
  refine fun hvalues => decide_eq_true fun hrefused => ?_
  obtain ⟨hearing, hmem, hid⟩ := List.mem_map.mp hrefused
  obtain ⟨hheard, hrefusal⟩ := List.mem_filter.mp hmem
  obtain ⟨hregistered, before, hreact⟩ := exists_refusal (Feed.react env) event indexes hheard
  have hsame : hearing.registration = r :=
    List.inj_on_of_nodup_map htidy.nodup hregistered hr hid
  rw [hsame, Registration.view, if_pos hvalues, Feed.react, hvalued] at hreact
  rw [← hreact] at hrefusal
  cases hrefusal

namespace Hub

variable {env : Environment} {hub : Hub Feed} {node : NodeId} {event : CacheEvent} {key : Address}

def Owned (node : NodeId) (t : Listeners Feed) : Prop :=
  ∀ r ∈ t.registrations, r.listener.node = node

/-- How many listeners of a node get values. -/
def ears (hub : Hub Feed) (node : NodeId) : Nat :=
  (hub.members[node]?.map fun member =>
    member.listeners.registrations.countP (·.includesValues)).getD 0

private theorem ears_insert {first : NodeId} (member : Member Feed) :
    ({ hub with members := hub.members.insert first member } : Hub Feed).ears node =
      if first = node then member.listeners.registrations.countP (·.includesValues)
      else hub.ears node := by
  by_cases heq : first = node <;> simp [ears, Std.ExtTreeMap.getElem?_insert, heq]

/-- The members that are told an event keep their listeners that get values. -/
theorem ears_tell (env : Environment) (htidy : hub.EachTable fun _ t => t.Tidy)
    (hvalued : event.Valued) (nodes : List NodeId) (indexes : NodeMap ReverseIndex) :
    (tell (Feed.react env) event nodes hub indexes).1.ears node = hub.ears node := by
  induction nodes generalizing hub indexes with
  | nil => rfl
  | cons first nodes ih =>
    unfold tell
    split
    · exact ih htidy indexes
    · next member hmember =>
      have htable : member.listeners.Tidy := htidy first member hmember
      refine (ih (htidy.seat (htable.dispatch (Feed.react env) event indexes)) _).trans ?_
      rw [ears_insert]
      split
      · next heq =>
        rw [ears, ← heq, hmember]
        exact Listeners.countP_dispatch env hvalued htable indexes
      · rfl

/-- Of an event that concerns a sender the index of a node that is told takes note as often as the
node has listeners that get values. -/
theorem index_tell_ears (env : Environment) (hdedicated : hub.Dedicated)
    (hconcerns : event.Concerns key) {nodes : List NodeId} (hdistinct : nodes.Nodup)
    (indexes : NodeMap ReverseIndex) :
    (tell (Feed.react env) event nodes hub indexes).2.1[node]?.getD {} =
      Feed.follow env node (indexes[node]?.getD {})
        (List.replicate (if node ∈ nodes then hub.ears node else 0) event) := by
  induction nodes generalizing hub indexes with
  | nil => rfl
  | cons first nodes ih =>
    rw [List.nodup_cons] at hdistinct
    unfold tell
    split
    · next hnone =>
      rw [ih hdedicated hdistinct.2]
      by_cases heq : node = first
      · subst heq
        simp [hdistinct.1, ears, hnone]
      · simp [heq]
    · next member hmember =>
      have howners := hdedicated first member hmember
      have hafter : ({ hub with members := hub.members.insert first { member with
          listeners := (member.listeners.dispatch (Feed.react env) event indexes).1 } } :
          Hub Feed).Dedicated :=
        EachTable.seat (P := Owned) hdedicated fun r hr =>
          howners r (Listeners.mem_of_mem_dispatch hr)
      have hheard : (member.listeners.dispatch (Feed.react env) event indexes).2.1[node]?.getD {} =
          Feed.follow env node (indexes[node]?.getD {})
            (List.replicate (if node = first then hub.ears first else 0) event) := by
        refine (Listeners.index_deliver env node event _ indexes).trans ?_
        rw [Listeners.heard_deliver]
        by_cases heq : node = first
        · have hall : member.listeners.registrations.filter (fun r => Feed.isOf node r.listener) =
              member.listeners.registrations :=
            List.filter_eq_self.mpr fun r hr => decide_eq_true ((howners r hr).trans heq.symm)
          rw [hall, Feed.follow_views hconcerns, if_pos heq, ears, hmember]
          rfl
        · have hnone : member.listeners.registrations.filter
              (fun r => Feed.isOf node r.listener) = [] :=
            List.filter_eq_nil_iff.mpr fun r hr => by
              simpa [Feed.isOf, howners r hr] using Ne.symm heq
          rw [hnone, if_neg heq]
          rfl
      refine (ih hafter hdistinct.2 _).trans ?_
      rw [hheard, ears_insert]
      by_cases heq : node = first
      · subst heq
        simp [hdistinct.1, Feed.follow]
      · simp [heq, Ne.symm heq, Feed.follow]

end Hub

/-! ## The fabric -/

namespace Fabric

variable {env : Environment} {f f' f'' : Fabric} {who who' : Address → Prop} {view : View}
  {request : CacheCall} {key : Address}

def call (env : Environment) (f : Fabric) (view : View) (request : CacheCall) : Fabric :=
  ⟨(f.hub.perform (Feed.react env) (.call view request) f.indexes).cache,
    (f.hub.perform (Feed.react env) (.call view request) f.indexes).world⟩

/-- The hub can be read, and the listeners of every member are told apart and feed the index of the
member. -/
structure Calm (f : Fabric) : Prop where
  dedicated : f.hub.Dedicated
  tidy : f.hub.EachTable fun _ t => t.Tidy
  holds : ∃ contents, f.hub.Holds contents

/-- Two fabrics have as many listeners that get values at every node, and in both the same is known
of certain senders. -/
structure Alike (who : Address → Prop) (f f' : Fabric) : Prop where
  ears : ∀ node, f'.hub.ears node = f.hub.ears node
  held : ∀ key, who key → f'.hub.data[key]? = f.hub.data[key]?
  listed : ∀ key, who key → ∀ node peer,
    (f'.index node).receivers? peer key = (f.index node).receivers? peer key

theorem Alike.refl (who : Address → Prop) (f : Fabric) : Alike who f f :=
  ⟨fun _ => rfl, fun _ _ => rfl, fun _ _ _ _ => rfl⟩

theorem Alike.symm (h : f.Alike who f') : f'.Alike who f :=
  ⟨fun node => (h.ears node).symm, fun key hkey => (h.held key hkey).symm,
    fun key hkey node peer => (h.listed key hkey node peer).symm⟩

theorem Alike.trans (h : f.Alike who f') (h' : f'.Alike who f'') : f.Alike who f'' :=
  ⟨fun node => (h'.ears node).trans (h.ears node),
    fun key hkey => (h'.held key hkey).trans (h.held key hkey),
    fun key hkey node peer => (h'.listed key hkey node peer).trans (h.listed key hkey node peer)⟩

/-- What is known of the senders of both kinds is known of all of them. -/
theorem Alike.cover (h : f.Alike who f') (h' : f.Alike who' f') {all : Address → Prop}
    (hall : ∀ key, all key → who key ∨ who' key) : f.Alike all f' :=
  ⟨h.ears, fun key hkey => (hall key hkey).elim (h.held key) (h'.held key),
    fun key hkey => (hall key hkey).elim (h.listed key) (h'.listed key)⟩

/-- An act leaves a calm fabric calm, if whoever it registers feeds the index of the member. -/
theorem Calm.perform (h : f.Calm) (env : Environment) {act : HubAct Feed}
    (howned : act.Keeps Hub.Owned) :
    Calm ⟨(f.hub.perform (Feed.react env) act f.indexes).cache,
      (f.hub.perform (Feed.react env) act f.indexes).world⟩ := by
  obtain ⟨contents, hholds⟩ := h.holds
  have htidy : act.Keeps fun _ t => t.Tidy := by
    cases act with
    | join node => exact Listeners.tidy_empty
    | listen view listener includesValues => exact fun _ ht => ht.add listener includesValues
    | _ => trivial
  refine ⟨?_, ?_, _, hholds.perform (Feed.react env) act f.indexes⟩
  · exact Hub.EachTable.perform (P := Hub.Owned) (Feed.react env) f.indexes h.dedicated hholds
      howned fun event _ node t world ht r hr => ht r (Listeners.mem_of_mem_dispatch hr)
  · exact Hub.EachTable.perform (Feed.react env) f.indexes h.tidy hholds htidy
      fun event _ node t world ht => ht.dispatch (Feed.react env) event world

theorem Calm.call (h : f.Calm) (env : Environment) (view : View) (request : CacheCall) :
    (f.call env view request).Calm :=
  h.perform env trivial

theorem Calm.ears_call (h : f.Calm) (env : Environment) (view : View) (request : CacheCall)
    (node : NodeId) : (f.call env view request).hub.ears node = f.hub.ears node := by
  obtain ⟨contents, hholds⟩ := h.holds
  have htidy : (f.hub.holding (request.effect view.node contents)).EachTable fun _ t => t.Tidy :=
    h.tidy
  rw [Fabric.call, hholds.perform_eq]
  cases hevent : (HubAct.call (L := Feed) view request).event? contents with
  | none => rfl
  | some event =>
    have hvalued : event.Valued := HubAct.valued_event? event hevent
    exact Hub.ears_tell env htidy hvalued _ f.indexes

/-- Of a call the index of a node takes note as often as the node has listeners that get values,
unless the call is its own. -/
theorem Calm.index_call (h : f.Calm) {contents : Contents} (hholds : f.hub.Holds contents)
    (env : Environment) (view : View) (htarget : request.target? = some key) (node : NodeId) :
    (f.call env view request).index node = Feed.follow env node (f.index node)
      ((request.event? view.node contents.registries).elim []
        (List.replicate (if node = view.node then 0 else f.hub.ears node))) := by
  have hdedicated : (f.hub.holding (request.effect view.node contents)).Dedicated := h.dedicated
  rw [Fabric.call, hholds.perform_eq]
  cases hevent : request.event? view.node contents.registries with
  | none =>
    have hnone : (HubAct.call (L := Feed) view request).event? contents = none := hevent
    simp only [hnone, Hub.announce, Option.elim_none]
    rfl
  | some event =>
    have hsome : (HubAct.call (L := Feed) view request).event? contents = some event := hevent
    have hconcerns : event.Concerns key := CacheCall.concerns_event? htarget hevent
    have hnode : event.node = view.node := CacheCall.node_event? hevent
    have hdistinct : (f.hub.memberIds.filter (· ≠ event.node)).Nodup :=
      Std.ExtTreeMap.nodup_keys.filter _
    have htold : (if node ∈ f.hub.memberIds.filter (· ≠ event.node) then f.hub.ears node else 0) =
        if node = view.node then 0 else f.hub.ears node := by
      by_cases hmember : node ∈ f.hub.memberIds
      · by_cases heq : node = view.node <;> simp [hmember, heq, hnode]
      · have hdeaf : f.hub.ears node = 0 := by
          have hnone : f.hub.members[node]? = none := by
            simpa [Hub.memberIds, Std.ExtTreeMap.mem_keys] using hmember
          rw [Hub.ears, hnone]
          rfl
        simp [hmember, hdeaf]
    simp only [hsome, Hub.announce, Option.elim_some]
    rw [← htold]
    exact Hub.index_tell_ears env hdedicated hconcerns hdistinct f.indexes

/-- A call changes nothing that is known of others than its target. -/
theorem Calm.call_elsewhere (h : f.Calm) (env : Environment) (view : View)
    (htarget : request.target? = some key) : f.Alike (· ≠ key) (f.call env view request) := by
  obtain ⟨contents, hholds⟩ := h.holds
  refine ⟨h.ears_call env view request, fun other hne => ?_, fun other hne node peer => ?_⟩
  · have hother : request.target? ≠ some other := fun heq => hne (Option.some.inj (heq ▸ htarget))
    have hafter := hholds.perform (Feed.react env) (.call view request) f.indexes
    rw [Fabric.call, hafter.getElem?, hholds.getElem?]
    exact congrArg _ (Contents.getElem?_effect_of_ne hother)
  · rw [h.index_call hholds env view htarget]
    cases hevent : request.event? view.node contents.registries with
    | none => rfl
    | some event =>
      exact Feed.receivers?_follow_of_ne (CacheCall.concerns_event? htarget hevent) hne _ peer

/-- What a call makes of its target depends on what is known of the target. -/
theorem Calm.call_alike (h : f.Calm) (h' : f'.Calm) (env : Environment) (view : View)
    (htarget : request.target? = some key) (halike : f.Alike (· = key) f') :
    (f.call env view request).Alike (· = key) (f'.call env view request) := by
  obtain ⟨contents, hholds⟩ := h.holds
  obtain ⟨contents', hholds'⟩ := h'.holds
  have hdata : f'.hub.data[key]? = f.hub.data[key]? := halike.held key rfl
  refine ⟨fun node => ?_, ?_, ?_⟩
  · rw [h.ears_call, h'.ears_call, halike.ears]
  · intro other heq
    obtain rfl : key = other := heq.symm
    have hafter := hholds.perform (Feed.react env) (.call view request) f.indexes
    have hafter' := hholds'.perform (Feed.react env) (.call view request) f'.indexes
    rw [Fabric.call, Fabric.call, hafter.getElem?, hafter'.getElem?]
    exact congrArg _ (CacheCall.getElem?_effect_target htarget)
  · intro other heq node peer
    obtain rfl : key = other := heq.symm
    have hread : contents'.registries[key]? = contents.registries[key]? := by
      have hget : f'.hub.get key = f.hub.get key := by rw [Hub.get, Hub.get, hdata]
      rw [hholds.get, hholds'.get] at hget
      exact Except.ok.inj hget
    rw [h.index_call hholds env view htarget, h'.index_call hholds' env view htarget, halike.ears,
      CacheCall.event?_congr htarget hread]
    cases hevent : request.event? view.node contents.registries with
    | none => exact halike.listed key rfl node peer
    | some event =>
      exact Feed.receivers?_follow_congr (CacheCall.concerns_event? htarget hevent)
        (halike.listed key rfl node) _ peer

end Fabric

/-! ## Nodes -/

/-- The cache without what the node keeps in a cache of its own. -/
def NodeCache.shell (c : NodeCache) : NodeCache :=
  { c with backing := match c.backing with
      | .standalone cache => .standalone { cache with data := ∅ }
      | .clustered view => .clustered view }

/-- What the node keeps of a sender in a cache of its own. -/
def NodeCache.own? (c : NodeCache) (key : Address) : Option Registry :=
  match c.backing with
  | .standalone cache => cache.get? key
  | .clustered _ => none

/-- The node without what it knows of senders. -/
def Node.shell (n : Node) : Node :=
  { n with store := {}, cache := n.cache.shell }

private theorem Node.shell_setCache {n n' : Node} {cache cache' : NodeCache}
    (h : n'.shell = n.shell) (hcache : cache'.shell = cache.shell) :
    Node.shell { n' with cache := cache' } = Node.shell { n with cache } := by
  have hsame := congrArg (fun n : Node => { n with cache := cache.shell }) h
  exact (congrArg (fun c : NodeCache => { n'.shell with cache := c }) hcache).trans hsame

/-- Caches that are alike but for what they keep have the same faults and the same backing. -/
theorem NodeCache.backing_of_shell {c c' : NodeCache} (h : c'.shell = c.shell) :
    c'.faults = c.faults ∧
      ((∃ view, c.backing = .clustered view ∧ c'.backing = .clustered view) ∨
        ∃ cache data, c.backing = .standalone cache ∧
          c'.backing = .standalone { cache with data }) := by
  obtain ⟨backing, faults⟩ := c
  obtain ⟨backing', faults'⟩ := c'
  obtain ⟨hbacking, hfaults⟩ := NodeCache.mk.inj h
  refine ⟨hfaults, ?_⟩
  cases backing with
  | clustered view =>
    cases backing' with
    | clustered view' => exact .inl ⟨view, rfl, hbacking⟩
    | standalone cache' => cases hbacking
  | standalone cache =>
    cases backing' with
    | clustered view' => cases hbacking
    | standalone cache' =>
      refine .inr ⟨cache, cache'.data, rfl, congrArg Backing.standalone ?_⟩
      exact congrArg ({ · with data := cache'.data }) (Backing.standalone.inj hbacking)

/-- Two nodes are alike but for what they know of senders, and know the same of certain senders. -/
structure Node.Alike (who : Address → Prop) (n n' : Node) : Prop where
  shell : n'.shell = n.shell
  stored : ∀ key, who key → n'.store.get? key = n.store.get? key
  own : ∀ key, who key → n'.cache.own? key = n.cache.own? key

namespace Node.Alike

variable {who who' : Address → Prop} {n n' n'' : Node}

theorem refl (who : Address → Prop) (n : Node) : n.Alike who n :=
  ⟨rfl, fun _ _ => rfl, fun _ _ => rfl⟩

theorem symm (h : n.Alike who n') : n'.Alike who n :=
  ⟨h.shell.symm, fun key hkey => (h.stored key hkey).symm, fun key hkey => (h.own key hkey).symm⟩

theorem trans (h : n.Alike who n') (h' : n'.Alike who n'') : n.Alike who n'' :=
  ⟨h'.shell.trans h.shell, fun key hkey => (h'.stored key hkey).trans (h.stored key hkey),
    fun key hkey => (h'.own key hkey).trans (h.own key hkey)⟩

theorem cover (h : n.Alike who n') (h' : n.Alike who' n') {all : Address → Prop}
    (hall : ∀ key, all key → who key ∨ who' key) : n.Alike all n' :=
  ⟨h.shell, fun key hkey => (hall key hkey).elim (h.stored key) (h'.stored key),
    fun key hkey => (hall key hkey).elim (h.own key) (h'.own key)⟩

/-- Nodes that know the same of all senders are the same. -/
theorem eq (h : n.Alike (fun _ => True) n') : n' = n := by
  obtain ⟨hserver, hsettings, -, hcache, hphase⟩ := Node.mk.inj h.shell
  have hstore : n'.store = n.store := Store.ext_get? fun key => h.stored key trivial
  have hsame : n'.cache = n.cache := by
    obtain ⟨hfaults, ⟨view, hview, hview'⟩ | ⟨cache, data, hown, hown'⟩⟩ :=
      NodeCache.backing_of_shell hcache
    · exact congrArg₂ NodeCache.mk (hview'.trans hview.symm) hfaults
    · have hdata : data = cache.data := by
        apply Std.ExtTreeMap.ext_getElem?
        intro key
        simpa [NodeCache.own?, hown, hown', LocalCache.get?] using h.own key trivial
      rw [hdata] at hown'
      exact congrArg₂ NodeCache.mk (hown'.trans hown.symm) hfaults
  obtain ⟨server, settings, store, cache, phase⟩ := n
  obtain ⟨server', settings', store', cache', phase'⟩ := n'
  cases hserver
  cases hsettings
  cases hstore
  cases hsame
  cases hphase
  rfl

end Node.Alike

/-! ## Seats -/

/-- The faults that make a call fail. -/
def CacheCall.fails (faults : Faults) : CacheCall → Bool
  | .get _ => faults.get
  | .put .. => faults.put
  | .remove _ => faults.remove
  | .entries => faults.entries

namespace Seat

variable {env : Environment} {seat seat' seat'' : Seat} {who who' : Address → Prop}
  {request : CacheCall} {key : Address}

/-- What the cache answers about a sender, unless it is made to fail. -/
def answer (seat : Seat) (key : Address) : Except CacheError (Option Registry) :=
  match seat.node.cache.backing with
  | .standalone cache => .ok (cache.get? key)
  | .clustered _ => seat.fabric.hub.get key

def call (env : Environment) (seat : Seat) (request : CacheCall) : Seat :=
  if request.fails seat.node.cache.faults then seat
  else
    match seat.node.cache.backing with
    | .standalone cache =>
      seat.setCache ⟨.standalone { cache with data := request.write cache.data },
        seat.node.cache.faults⟩
    | .clustered view => { seat with fabric := seat.fabric.call env view request }

private theorem get_eq (seat : Seat) (key : Address) : seat.get key =
    if seat.node.cache.faults.get then .error (.decode "get fault") else seat.answer key := by
  unfold get answer
  split
  · rfl
  · cases seat.node.cache.backing <;> rfl

private theorem answer_put (env : Environment) (seat : Seat) (key : Address) (value : Registry) :
    (seat.put env key value).answer =
      if seat.node.cache.faults.put then .error (.encode "put fault") else seat.answer key := by
  unfold put answer
  split
  · rfl
  · cases seat.node.cache.backing with
    | standalone cache => rfl
    | clustered view => exact Hub.answer_put (Feed.react env) _ _ key value _

private theorem answer_remove (env : Environment) (seat : Seat) (key : Address) :
    (seat.remove env key).answer =
      if seat.node.cache.faults.remove then .error (.decode "remove fault")
      else seat.answer key := by
  unfold remove answer
  split
  · rfl
  · cases seat.node.cache.backing with
    | standalone cache =>
      exact congrArg Except.ok (LocalCache.answer_remove (Feed.react env) cache key _)
    | clustered view => exact Hub.answer_takeOut (Feed.react env) _ key _ _ _

private theorem effects_put (env : Environment) (seat : Seat) (key : Address) (value : Registry) :
    (seat.put env key value).trace.effects = [] := by
  unfold put
  split
  · rfl
  · split <;> rfl

private theorem Unheard.seat_put (h : seat.Unheard) (env : Environment) (key : Address)
    (value : Registry) : (seat.put env key value).seat = seat.call env (.put key value) := by
  unfold Seat.put Seat.call CacheCall.fails
  split
  · rfl
  · cases hbacking : seat.node.cache.backing with
    | standalone cache =>
      simp only [cache.put_unheard (Feed.react env) (h cache hbacking)]
      rfl
    | clustered view => rfl

private theorem Unheard.seat_remove (h : seat.Unheard) (env : Environment) (key : Address) :
    (seat.remove env key).seat = seat.call env (.remove key) := by
  unfold Seat.remove Seat.call CacheCall.fails
  split
  · rfl
  · cases hbacking : seat.node.cache.backing with
    | standalone cache =>
      simp only [cache.remove_unheard (Feed.react env) (h cache hbacking)]
      rfl
    | clustered view => rfl

/-- The fabric is calm and nobody listens to the node's own cache. -/
structure Calm (seat : Seat) : Prop where
  fabric : seat.fabric.Calm
  unheard : seat.Unheard

/-- Two seats are alike but for what is known of senders, and know the same of certain senders. -/
structure Alike (who : Address → Prop) (seat seat' : Seat) : Prop where
  fabric : seat.fabric.Alike who seat'.fabric
  node : seat.node.Alike who seat'.node

namespace Alike

theorem refl (who : Address → Prop) (seat : Seat) : seat.Alike who seat :=
  ⟨.refl who _, .refl who _⟩

theorem symm (h : seat.Alike who seat') : seat'.Alike who seat :=
  ⟨h.fabric.symm, h.node.symm⟩

theorem trans (h : seat.Alike who seat') (h' : seat'.Alike who seat'') : seat.Alike who seat'' :=
  ⟨h.fabric.trans h'.fabric, h.node.trans h'.node⟩

theorem cover (h : seat.Alike who seat') (h' : seat.Alike who' seat') {all : Address → Prop}
    (hall : ∀ key, all key → who key ∨ who' key) : seat.Alike all seat' :=
  ⟨h.fabric.cover h'.fabric hall, h.node.cover h'.node hall⟩

theorem mono (h : seat.Alike who seat') (himp : ∀ key, who' key → who key) :
    seat.Alike who' seat' :=
  h.cover h fun key hkey => .inl (himp key hkey)

private theorem server (h : seat.Alike who seat') : seat'.node.server = seat.node.server :=
  (Node.mk.inj h.node.shell).1

private theorem backing (h : seat.Alike who seat') :
    seat'.node.cache.faults = seat.node.cache.faults ∧
    ((∃ view, seat.node.cache.backing = .clustered view ∧
        seat'.node.cache.backing = .clustered view) ∨
      ∃ cache data, seat.node.cache.backing = .standalone cache ∧
        seat'.node.cache.backing = .standalone { cache with data }) :=
  NodeCache.backing_of_shell (Node.mk.inj h.node.shell).2.2.2.1

private theorem answer (h : seat.Alike who seat') (hkey : who key) :
    seat'.answer key = seat.answer key := by
  obtain ⟨-, ⟨view, hview, hview'⟩ | ⟨cache, data, hown, hown'⟩⟩ := h.backing
  · simp only [Seat.answer, hview, hview', Hub.get, h.fabric.held key hkey]
  · have hsame := h.node.own key hkey
    simp only [NodeCache.own?, hown, hown'] at hsame
    simp only [Seat.answer, hown, hown', hsame]

private theorem get (h : seat.Alike who seat') (hkey : who key) : seat'.get key = seat.get key := by
  rw [get_eq, get_eq, h.backing.1, h.answer hkey]

/-- What is listed of the store by senders is the same. -/
theorem listed (h : seat.Alike who seat') {select : Address → Bool}
    (hselect : ∀ key, select key = true → who key) :
    seat'.node.store.toList.filter (select ·.1) = seat.node.store.toList.filter (select ·.1) := by
  have hfiltered : ∀ store : Store, store.toList.filter (select ·.1) =
      (store.registries.filter fun key _ => select key).toList :=
    fun store => (Std.ExtTreeMap.toList_filter (t := store.registries)
      (f := fun key _ => select key)).symm
  rw [hfiltered, hfiltered]
  refine congrArg Std.ExtTreeMap.toList (Std.ExtTreeMap.ext_getElem? fun key => ?_)
  rw [Std.ExtTreeMap.getElem?_filter', Std.ExtTreeMap.getElem?_filter']
  by_cases hkey : select key = true
  · exact congrArg (Option.filter fun _ => select key) (h.node.stored key (hselect key hkey))
  · simp [hkey]

end Alike

theorem Calm.setStore (h : seat.Calm) (store : Store) : (seat.setStore store).Calm :=
  ⟨h.fabric, h.unheard⟩

private theorem Calm.call (h : seat.Calm) (env : Environment) (request : CacheCall) :
    (seat.call env request).Calm := by
  unfold Seat.call
  split
  · exact h
  · split
    · next cache hbacking =>
      refine ⟨h.fabric, ?_⟩
      rintro _ ⟨rfl⟩
      exact h.unheard cache hbacking
    · exact ⟨h.fabric.call env _ request, h.unheard⟩

/-- A call changes nothing that is known of others than its target. -/
theorem Calm.call_elsewhere (h : seat.Calm) (env : Environment) (request : CacheCall)
    (htarget : request.target? = some key) : seat.Alike (· ≠ key) (seat.call env request) := by
  unfold Seat.call
  split
  · exact .refl _ seat
  · split
    · next cache hbacking =>
      refine ⟨.refl _ _, ?_, fun _ _ => rfl, fun other hne => ?_⟩
      · simp [setCache, Node.shell, NodeCache.shell, hbacking]
      · simp only [setCache, NodeCache.own?, hbacking, LocalCache.get?]
        exact CacheCall.getElem?_write_of_ne htarget hne cache.data
    · exact ⟨h.fabric.call_elsewhere env _ htarget, .refl _ _⟩

/-- What a call makes of its target depends on what is known of the target. -/
theorem Alike.call (halike : seat.Alike who seat') (h : seat.Calm) (h' : seat'.Calm)
    (env : Environment) (htarget : request.target? = some key) (hkey : who key) :
    (seat.call env request).Alike who (seat'.call env request) := by
  have hothers : (seat.call env request).Alike (fun other => who other ∧ other ≠ key)
      (seat'.call env request) := by
    have hbefore := (h.call_elsewhere env request htarget).symm
    have hafter := h'.call_elsewhere env request htarget
    exact (hbefore.mono fun _ h => h.2).trans
      ((halike.mono fun _ h => h.1).trans (hafter.mono fun _ h => h.2))
  have htargeted : (seat.call env request).Alike (· = key) (seat'.call env request) := by
    have hbefore : seat.Alike (· = key) seat' := halike.mono fun _ heq => heq ▸ hkey
    obtain ⟨hfaults, hbacking⟩ := halike.backing
    unfold Seat.call
    rw [hfaults]
    split
    · exact hbefore
    · obtain ⟨view, hview, hview'⟩ | ⟨cache, data, hown, hown'⟩ := hbacking
      · simp only [hview, hview']
        exact ⟨h.fabric.call_alike h'.fabric env view htarget hbefore.fabric, hbefore.node⟩
      · simp only [hown, hown']
        refine ⟨hbefore.fabric, Node.shell_setCache hbefore.node.shell rfl, hbefore.node.stored, ?_⟩
        intro other heq
        obtain rfl : key = other := heq.symm
        exact CacheCall.getElem?_write_target htarget
  exact hothers.cover htargeted fun other hother =>
    (eq_or_ne other key).elim .inr fun hne => .inl ⟨hother, hne⟩

/-! ## Accesses -/

theorem Calm.put (h : seat.Calm) (env : Environment) (key : Address) (value : Registry) :
    (seat.put env key value).seat.Calm :=
  h.unheard.seat_put env key value ▸ h.call env (.put key value)

private theorem Calm.remove (h : seat.Calm) (env : Environment) (key : Address) :
    (seat.remove env key).seat.Calm :=
  h.unheard.seat_remove env key ▸ h.call env (.remove key)

private theorem Calm.put_elsewhere (h : seat.Calm) (env : Environment) (key : Address)
    (value : Registry) : seat.Alike (· ≠ key) (seat.put env key value).seat :=
  h.unheard.seat_put env key value ▸ h.call_elsewhere env (.put key value) rfl

private theorem Calm.remove_elsewhere (h : seat.Calm) (env : Environment) (key : Address) :
    seat.Alike (· ≠ key) (seat.remove env key).seat :=
  h.unheard.seat_remove env key ▸ h.call_elsewhere env (.remove key) rfl

/-- Writing a sender to the store changes nothing that is known of others. -/
theorem keep_elsewhere (seat : Seat) (key : Address) (registry : Registry) :
    seat.Alike (· ≠ key) (seat.setStore (seat.node.store.insert key registry)) := by
  refine ⟨.refl _ _, rfl, fun other hne => ?_, fun _ _ => rfl⟩
  exact (Store.get?_insert _ _ _ _).trans (if_neg fun heq => hne heq.symm)

private theorem forget_elsewhere (seat : Seat) (key : Address) :
    seat.Alike (· ≠ key) (seat.setStore (seat.node.store.remove key)) := by
  refine ⟨.refl _ _, rfl, fun other hne => ?_, fun _ _ => rfl⟩
  exact (Store.get?_remove _ _ _).trans (if_neg fun heq => hne heq.symm)

private theorem Alike.keep (h : seat.Alike who seat') (key : Address) (registry : Registry) :
    (seat.setStore (seat.node.store.insert key registry)).Alike who
      (seat'.setStore (seat'.node.store.insert key registry)) := by
  refine ⟨h.fabric, h.node.shell, fun other hother => ?_, h.node.own⟩
  simp only [setStore, Store.get?_insert, h.node.stored other hother]

private theorem Alike.forget (h : seat.Alike who seat') (key : Address) :
    (seat.setStore (seat.node.store.remove key)).Alike who
      (seat'.setStore (seat'.node.store.remove key)) := by
  refine ⟨h.fabric, h.node.shell, fun other hother => ?_, h.node.own⟩
  simp only [setStore, Store.get?_remove, h.node.stored other hother]

end Seat

/-- Two outcomes with the same answer, the same calls on services, and seats that are alike. -/
structure Outcome.Alike {α : Type} (who : Address → Prop) (o o' : Outcome α) : Prop where
  answer : o'.answer = o.answer
  effects : o'.trace.effects = o.trace.effects
  seat : o.seat.Alike who o'.seat

theorem Outcome.Alike.andThen {α β : Type} {who : Address → Prop} {o o' : Outcome α}
    {next : α → Seat → Outcome β} (h : o.Alike who o')
    (hnext : (next o.answer o.seat).Alike who (next o.answer o'.seat)) :
    (o.andThen next).Alike who (o'.andThen next) := by
  have hlast : (next o.answer o.seat).Alike who (next o'.answer o'.seat) := h.answer ▸ hnext
  exact ⟨hlast.answer, congrArg₂ _ h.effects hlast.effects, hlast.seat⟩

namespace Seat

variable {env : Environment} {seat seat' : Seat} {who : Address → Prop} {key : Address}

private theorem Alike.put (halike : seat.Alike who seat') (h : seat.Calm) (h' : seat'.Calm)
    (env : Environment) (hkey : who key) (value : Registry) :
    (seat.put env key value).Alike who (seat'.put env key value) where
  answer := by rw [answer_put, answer_put, halike.backing.1, halike.answer hkey]
  effects := by rw [effects_put, effects_put]
  seat := by
    rw [h.unheard.seat_put, h'.unheard.seat_put]
    exact halike.call h h' env rfl hkey

private theorem Alike.remove (halike : seat.Alike who seat') (h : seat.Calm) (h' : seat'.Calm)
    (env : Environment) (hkey : who key) :
    (seat.remove env key).Alike who (seat'.remove env key) where
  answer := by rw [answer_remove, answer_remove, halike.backing.1, halike.answer hkey]
  effects := by rw [effects_remove, effects_remove]
  seat := by
    rw [h.unheard.seat_remove, h'.unheard.seat_remove]
    exact halike.call h h' env rfl hkey

/-! ## Dealings -/

variable {α : Type} {server : Server} {tells : Effect → Prop} {known : Seat → Prop}
  {act : Seat → Outcome α}

namespace Deals

/-- Whoever deals with certain senders changes nothing that is known of others. -/
theorem elsewhere (h : Deals env server who tells known act) (hcalm : seat.Calm)
    (hserver : seat.node.server = server) (hknown : known seat) :
    (act seat).seat.Calm ∧ seat.Alike (fun key => ¬ who key) (act seat).seat := by
  have hothers : ∀ key, who key → ∀ other, ¬ who other → other ≠ key :=
    fun key hkey other hother heq => hother (heq ▸ hkey)
  induction h generalizing seat with
  | done answer => exact ⟨hcalm, .refl _ seat⟩
  | note trace _ _ ih => exact ih hcalm hserver hknown
  | congr hsame _ ih =>
    rw [hsame seat hserver hknown]
    exact ih hcalm hserver hknown
  | get key _ _ ih => exact ih (seat.get key) hcalm hserver ⟨hknown, rfl⟩
  | stored key _ _ ih => exact ih (seat.node.store.get? key) hcalm hserver ⟨hknown, rfl⟩
  | listed select _ _ ih =>
    exact ih _ (fun p hp => (List.mem_filter.mp hp).2) hcalm hserver ⟨hknown, rfl⟩
  | keep key registry hkey _ ih =>
    obtain ⟨hafter, hsame⟩ :=
      ih (hcalm.setStore (seat.node.store.insert key registry)) hserver trivial
    exact ⟨hafter, ((seat.keep_elsewhere key registry).mono (hothers key hkey)).trans hsame⟩
  | forget key hkey _ ih =>
    obtain ⟨hafter, hsame⟩ := ih (hcalm.setStore (seat.node.store.remove key)) hserver trivial
    exact ⟨hafter, ((seat.forget_elsewhere key).mono (hothers key hkey)).trans hsame⟩
  | put key value hkey _ ih =>
    have hserver' := (sameNode_put seat env key value).server.trans hserver
    obtain ⟨hafter, hsame⟩ := ih (seat.put env key value).answer (hcalm.put env key value) hserver'
      trivial
    exact ⟨hafter, ((hcalm.put_elsewhere env key value).mono (hothers key hkey)).trans hsame⟩
  | remove key hkey _ ih =>
    have hserver' := (sameNode_remove seat env key).server.trans hserver
    obtain ⟨hafter, hsame⟩ := ih (seat.remove env key).answer (hcalm.remove env key) hserver'
      trivial
    exact ⟨hafter, ((hcalm.remove_elsewhere env key).mono (hothers key hkey)).trans hsame⟩

/-- What an act makes of the senders that it deals with depends on what is known of them: where the
same is known of them it gives the same answer, makes the same calls on services, and leaves the
same to be known of them. -/
theorem alike (h : Deals env server who tells known act) (halike : seat.Alike who seat')
    (hcalm : seat.Calm) (hcalm' : seat'.Calm) (hserver : seat.node.server = server)
    (hknown : known seat) (hknown' : known seat') : (act seat).Alike who (act seat') := by
  induction h generalizing seat seat' with
  | done answer => exact ⟨rfl, rfl, halike⟩
  | note trace _ _ ih =>
    obtain ⟨hanswer, heffects, hafter⟩ := ih halike hcalm hcalm' hserver hknown hknown'
    exact ⟨hanswer, congrArg (trace.effects ++ ·) heffects, hafter⟩
  | congr hsame _ ih =>
    rw [hsame seat hserver hknown, hsame seat' (halike.server.trans hserver) hknown']
    exact ih halike hcalm hcalm' hserver hknown hknown'
  | get key hkey _ ih =>
    exact ih (seat.get key) halike hcalm hcalm' hserver ⟨hknown, rfl⟩ ⟨hknown', halike.get hkey⟩
  | stored key hkey _ ih =>
    exact ih (seat.node.store.get? key) halike hcalm hcalm' hserver ⟨hknown, rfl⟩
      ⟨hknown', halike.node.stored key hkey⟩
  | listed select hselect _ ih =>
    exact ih _ (fun p hp => (List.mem_filter.mp hp).2) halike hcalm hcalm' hserver ⟨hknown, rfl⟩
      ⟨hknown', halike.listed hselect⟩
  | keep key registry _ _ ih =>
    exact ih (halike.keep key registry) (hcalm.setStore _) (hcalm'.setStore _) hserver trivial
      trivial
  | forget key _ _ ih =>
    exact ih (halike.forget key) (hcalm.setStore _) (hcalm'.setStore _) hserver trivial trivial
  | put key value hkey _ ih =>
    have hput := halike.put hcalm hcalm' env hkey value
    have hserver' := (sameNode_put seat env key value).server.trans hserver
    exact hput.andThen (ih (seat.put env key value).answer hput.seat (hcalm.put env key value)
      (hcalm'.put env key value) hserver' trivial trivial)
  | remove key hkey _ ih =>
    have hremove := halike.remove hcalm hcalm' env hkey
    have hserver' := (sameNode_remove seat env key).server.trans hserver
    exact hremove.andThen (ih (seat.remove env key).answer hremove.seat (hcalm.remove env key)
      (hcalm'.remove env key) hserver' trivial trivial)

/-- Services are called on in no other ways. -/
theorem tells_of (h : Deals env server who tells known act) (hserver : seat.node.server = server)
    (hknown : known seat) : ∀ e ∈ (act seat).trace.effects, tells e := by
  induction h generalizing seat with
  | done answer => simp
  | note trace htells _ ih =>
    intro e he
    exact (List.mem_append.mp he).elim (htells e) (ih hserver hknown e)
  | congr hsame _ ih =>
    rw [hsame seat hserver hknown]
    exact ih hserver hknown
  | get key _ _ ih => exact ih (seat.get key) hserver ⟨hknown, rfl⟩
  | stored key _ _ ih => exact ih (seat.node.store.get? key) hserver ⟨hknown, rfl⟩
  | listed select _ _ ih =>
    exact ih _ (fun p hp => (List.mem_filter.mp hp).2) hserver ⟨hknown, rfl⟩
  | keep key registry _ _ ih | forget key _ _ ih => exact ih hserver trivial
  | put key value _ _ ih =>
    have hserver' := (sameNode_put seat env key value).server.trans hserver
    simpa [effects_put] using ih (seat.put env key value).answer hserver' trivial
  | remove key _ _ ih =>
    have hserver' := (sameNode_remove seat env key).server.trans hserver
    simpa [effects_remove] using ih (seat.remove env key).answer hserver' trivial

end Deals

end Seat

end DirectedPresence
