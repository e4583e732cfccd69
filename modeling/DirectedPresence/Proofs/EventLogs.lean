import DirectedPresence.Proofs.ListenerTables

/-!
The events of a cache as a log. To note an event is to repeat on a copy of the contents what was
done to the cache (`Contents.note`). Each act on a hub but a leave has exactly the event that
repeats it, and the event speaks of what is in the contents (`Contents.accounts_act`). A member that
does nothing itself hears all of these events, so from what the hub held when its listener was
registered it can tell at any time what the hub holds (`replayed_from_events`). A local cache tells
its events to all its listeners, whoever calls.
-/

namespace DirectedPresence

/-! ## Events as a log -/

namespace Contents

/-- The contents once an event is noted. -/
def note (contents : Contents) : CacheEvent → Contents
  | .added key (some value) node | .updated key _ (some value) node =>
    contents.insert key ⟨value, node⟩
  | .added _ none _ | .updated _ _ none _ => contents
  | .removed key _ _ | .evicted key _ _ => contents.erase key
  | .mapEvicted node => contents.without node
  | .mapCleared _ => ∅

/-- The contents once several events are noted, one after another. -/
def replay (contents : Contents) (events : List CacheEvent) : Contents :=
  events.foldl note contents

/-- What an event says of the entry before it is so, and a written value comes with it. -/
def Fits (contents : Contents) : CacheEvent → Prop
  | .added key value _ => contents[key]? = none ∧ value.isSome
  | .updated key old new _ =>
    (∃ kept, contents[key]? = some kept ∧ old = some kept.registry) ∧ new.isSome
  | .removed key old _ => ∃ kept, contents[key]? = some kept ∧ old = some kept.registry
  | .evicted key old node =>
    ∃ kept, contents[key]? = some kept ∧ old = some kept.registry ∧ node = kept.owner
  | .mapEvicted _ | .mapCleared _ => True

/-- What each event says of the entry before it is so when the events before it are noted. -/
def Accounts (contents : Contents) : List CacheEvent → Prop
  | [] => True
  | event :: events => contents.Fits event ∧ Accounts (contents.note event) events

variable {contents : Contents}

private theorem replay_append (contents : Contents) (events more : List CacheEvent) :
    contents.replay (events ++ more) = (contents.replay events).replay more :=
  List.foldl_append

private theorem accounts_append {events more : List CacheEvent} :
    contents.Accounts (events ++ more) ↔
      contents.Accounts events ∧ (contents.replay events).Accounts more := by
  induction events generalizing contents with
  | nil => exact ⟨fun h => ⟨trivial, h⟩, fun h => h.2⟩
  | cons event events ih =>
    simp only [List.cons_append, Accounts, ih, and_assoc]
    rfl

/-- The event of a call says what the call does. -/
theorem accounts_call (contents : Contents) (node : NodeId) (request : CacheCall) :
    contents.Accounts (request.event? node contents.registries).toList ∧
      contents.replay (request.event? node contents.registries).toList =
        request.effect node contents := by
  cases request with
  | get key => exact ⟨trivial, rfl⟩
  | put key value =>
    simp only [CacheCall.event?, getElem?_registries, Option.toList_some]
    cases hkept : contents[key]? with
    | none => exact ⟨⟨⟨hkept, rfl⟩, trivial⟩, rfl⟩
    | some kept => exact ⟨⟨⟨⟨kept, hkept, rfl⟩, rfl⟩, trivial⟩, rfl⟩
  | remove key =>
    simp only [CacheCall.event?, getElem?_registries]
    cases hkept : contents[key]? with
    | none => exact ⟨trivial, (AddressMap.erase_eq_self hkept).symm⟩
    | some kept => exact ⟨⟨⟨kept, hkept, rfl⟩, trivial⟩, rfl⟩
  | entries => exact ⟨trivial, rfl⟩

/-- The event of an act says what the act does; only of a leave there is none. -/
theorem accounts_act {L : Type} (contents : Contents) {act : HubAct L}
    (hstays : ∀ node, act ≠ .leave node) : contents.Accounts (act.event? contents).toList ∧
      contents.replay (act.event? contents).toList = act.effect contents := by
  cases act with
  | leave node => exact absurd rfl (hstays node)
  | call view request => exact accounts_call contents view.node request
  | evict key =>
    simp only [HubAct.event?]
    cases hkept : contents[key]? with
    | none => exact ⟨trivial, (AddressMap.erase_eq_self hkept).symm⟩
    | some kept => exact ⟨⟨⟨kept, hkept, rfl, rfl⟩, trivial⟩, rfl⟩
  | join _ | listen _ _ _ => exact ⟨trivial, rfl⟩
  | evictNode _ | clear _ => exact ⟨⟨trivial, trivial⟩, rfl⟩

def Lacks (contents : Contents) (node : NodeId) : Prop :=
  ∀ (key : Address) (kept : Kept), contents[key]? = some kept → kept.owner ≠ node

end Contents

namespace HubAct

variable {L : Type}

/-- The node in whose name an act changes entries, if it is not the owner of the entry. -/
def writer? : HubAct L → Option NodeId
  | .call view (.put ..) | .call view (.remove _) => some view.node
  | .evictNode node | .clear node => some node
  | _ => none

/-- Whether an act spares the listener of a node, changes nothing in the name of the node, and takes
no entry away without an event. -/
def IsForeign (mine : L → Bool) (node : NodeId) (act : HubAct L) : Prop :=
  act.Spares mine node ∧ act.writer? ≠ some node ∧ ∀ other, act ≠ .leave other

variable {contents : Contents} {node : NodeId} {act : HubAct L}

/-- What is changed in the name of others is told in their names. -/
theorem node_event?_ne (hlacks : contents.Lacks node) (hwriter : act.writer? ≠ some node) :
    ∀ event ∈ act.event? contents, event.node ≠ node := by
  intro event hevent
  cases act with
  | call view request =>
    rw [CacheCall.node_event? hevent]
    cases request with
    | put _ _ | remove _ => exact fun heq => hwriter (congrArg some heq)
    | get _ | entries => cases hevent
  | evict key =>
    obtain ⟨kept, hkept, rfl⟩ := Option.map_eq_some_iff.mp hevent
    exact hlacks key kept hkept
  | evictNode _ | clear _ =>
    rw [← Option.some.inj hevent]
    exact fun heq => hwriter (congrArg some heq)
  | join _ | leave _ | listen _ _ _ => cases hevent

/-- The node learns of everything that is changed in the name of others. -/
theorem news_eq_event? (hlacks : contents.Lacks node) (hwriter : act.writer? ≠ some node) :
    act.news node contents = act.event? contents := by
  rw [news]
  cases hevent : act.event? contents with
  | none => rfl
  | some event =>
    have hne := node_event?_ne hlacks hwriter event hevent
    exact Option.filter_some_pos (decide_eq_true hne)

theorem lacks_effect (hlacks : contents.Lacks node) (hwriter : act.writer? ≠ some node) :
    (act.effect contents).Lacks node := by
  have herase (key : Address) : Contents.Lacks (contents.erase key) node := by
    intro other kept hkept
    rw [Std.ExtTreeMap.getElem?_erase] at hkept
    split at hkept
    · cases hkept
    · exact hlacks other kept hkept
  have hwithout (owner : NodeId) : (contents.without owner).Lacks node := by
    intro key kept hkept
    rw [Contents.getElem?_without, Option.filter_eq_some_iff] at hkept
    exact hlacks key kept hkept.1
  cases act with
  | call view request =>
    cases request with
    | put key value =>
      intro other kept hkept
      simp only [effect, CacheCall.effect, Std.ExtTreeMap.getElem?_insert] at hkept
      split at hkept
      · rw [← Option.some.inj hkept]
        exact fun heq => hwriter (congrArg some heq)
      · exact hlacks other kept hkept
    | remove key => exact herase key
    | get _ | entries => exact hlacks
  | evict key => exact herase key
  | evictNode owner | leave owner => exact hwithout owner
  | clear owner =>
    intro key kept hkept
    simp [effect] at hkept
  | join _ | listen _ _ _ => exact hlacks

end HubAct

/-! ## The log of a member -/

section Member

variable {L σ : Type} {mine : L → Bool} {hub : Hub L} {node : NodeId} {contents : Contents}
  {react : Reaction L σ}

/-- While everything is done in the name of others, what the listener hears accounts for what
becomes of the hub. -/
theorem Hub.Attends.replay_run {acts : List (HubAct L)} (h : hub.Attends mine node)
    (hholds : hub.Holds contents) (hlacks : contents.Lacks node)
    (hforeign : ∀ act ∈ acts, act.IsForeign mine node)
    (hkeen : ∀ event, Listeners.Keen mine react event) (world : σ) :
    (hub.run react acts world).cache.Holds
        (contents.replay (heard mine (hub.run react acts world).hearings)) ∧
      contents.Accounts (heard mine (hub.run react acts world).hearings) := by
  induction acts generalizing hub contents world with
  | nil => exact ⟨hholds, trivial⟩
  | cons act acts ih =>
    obtain ⟨hspares, hwriter, hstays⟩ := hforeign act List.mem_cons_self
    have hheard := h.heard_perform hholds hspares (fun event _ => hkeen event) world
    rw [HubAct.news_eq_event? hlacks hwriter] at hheard
    obtain ⟨haccounts, hreplay⟩ := contents.accounts_act hstays
    obtain ⟨hrest, hmore⟩ := ih (h.perform hholds hspares (fun event _ => hkeen event) world)
      (hholds.perform react act world) (HubAct.lacks_effect hlacks hwriter)
      (fun later hmem => hforeign later (List.mem_cons_of_mem _ hmem))
      (hub.perform react act world).world
    simp only [Hub.run, Change.run, heard_append, hheard]
    rw [Contents.replay_append, Contents.accounts_append, hreplay]
    exact ⟨hrest, haccounts, hmore⟩

/-- A listener that is registered at a member while the hub holds nothing of that member hears a
log of the hub. -/
theorem Hub.Unattended.replay_run {acts : List (HubAct L)} (h : hub.Unattended mine)
    (hholds : hub.Holds contents) {view : View} (hview : hub.IsCurrent view)
    (hlacks : contents.Lacks view.node) {listener : L} (hmine : mine listener = true)
    (hforeign : ∀ act ∈ acts, act.IsForeign mine view.node)
    (hkeen : ∀ event, Listeners.Keen mine react event) (world : σ) :
    (Hub.run react acts (hub.addListener view listener true) world).cache.Holds
        (contents.replay (heard mine
          (Hub.run react acts (hub.addListener view listener true) world).hearings)) ∧
      contents.Accounts (heard mine
        (Hub.run react acts (hub.addListener view listener true) world).hearings) :=
  (h.attends hview hmine).replay_run ((Hub.data_addListener hub view listener true).trans hholds)
    hlacks hforeign hkeen world

/-- Taking out what is not there tells nobody anything. -/
theorem Hub.Holds.hearings_of_absent (hholds : hub.Holds contents) (act : HubAct L) (world : σ)
    (hevent : act.event? contents = none) : (hub.perform react act world).hearings = [] := by
  rw [hholds.perform_eq react act world, hevent]
  rfl

end Member

/-! ## The log of a local cache -/

def CacheAct.listener? {L : Type} : CacheAct L → Option L
  | .listen listener _ => some listener
  | .call _ => none

namespace LocalCache

variable {L σ : Type} {mine : L → Bool} {cache : LocalCache L} {contents : Contents}
  {react : Reaction L σ}

/-- The cache holds these contents, all of which are its own. -/
structure Holds (cache : LocalCache L) (contents : Contents) : Prop where
  data : cache.data = contents.registries
  owner : ∀ (key : Address) (kept : Kept), contents[key]? = some kept → kept.owner = cache.node

/-- A local cache holds what it has, all of it in its own name. -/
theorem exists_holds (cache : LocalCache L) : ∃ contents, cache.Holds contents := by
  refine ⟨cache.data.map fun _ registry => ⟨registry, cache.node⟩, ?_, ?_⟩
  · apply Std.ExtTreeMap.ext_getElem?
    intro key
    simp [Contents.registries]
  · intro key kept hkept
    rw [Std.ExtTreeMap.getElem?_map] at hkept
    obtain ⟨registry, -, rfl⟩ := Option.map_eq_some_iff.mp hkept
    rfl

private theorem node_perform (cache : LocalCache L) (act : CacheAct L) (world : σ) :
    (cache.perform react act world).cache.node = cache.node := by
  cases act with
  | listen listener includesValues => rfl
  | call request =>
    rw [perform_call_eq]
    cases request.event? cache.node cache.data <;> rfl

/-- A call has its effect on the contents. -/
theorem Holds.perform_call (h : cache.Holds contents) (request : CacheCall) (world : σ) :
    (cache.perform react (.call request) world).cache.Holds
      (request.effect cache.node contents) := by
  refine ⟨?_, ?_⟩
  · rw [data_perform_call, h.data, Contents.registries_effect]
  · rw [node_perform]
    intro key kept hkept
    cases request with
    | put other value =>
      simp only [CacheCall.effect, Std.ExtTreeMap.getElem?_insert] at hkept
      split at hkept
      · rw [← Option.some.inj hkept]
      · exact h.owner key kept hkept
    | remove other =>
      simp only [CacheCall.effect, Std.ExtTreeMap.getElem?_erase] at hkept
      split at hkept
      · cases hkept
      · exact h.owner key kept hkept
    | get _ | entries => exact h.owner key kept hkept

/-- Every table of the cache's listeners keeps a property that registrations and events keep. -/
theorem perform_keeps {P : Listeners L → Prop} (h : P cache.listeners) {act : CacheAct L}
    (hadd : ∀ listener includesValues, act = .listen listener includesValues →
      P (cache.listeners.add listener includesValues))
    (hdispatch : ∀ event world, P (cache.listeners.dispatch react event world).1) (world : σ) :
    P (cache.perform react act world).cache.listeners := by
  cases act with
  | listen listener includesValues => exact hadd listener includesValues rfl
  | call request =>
    rw [perform_call_eq]
    cases request.event? cache.node cache.data with
    | none => exact h
    | some event => exact hdispatch event world

/-- The listener hears of every call that changes the cache. -/
theorem heard_perform_call (hsingle : cache.listeners.Single mine) (request : CacheCall)
    (world : σ) : heard mine (cache.perform react (.call request) world).hearings =
      (request.event? cache.node cache.data).toList := by
  rw [perform_call_eq]
  cases request.event? cache.node cache.data with
  | none => rfl
  | some event =>
    obtain ⟨r, hr, hvalues⟩ := hsingle
    have hheard := Listeners.heard_dispatch react event world mine cache.listeners
    rw [hr, List.map_singleton, Registration.view, if_pos hvalues] at hheard
    exact hheard

/-- Before any of certain listeners is registered, the table stays tidy. -/
theorem unattended_run (react : Reaction L σ) (cache : LocalCache L) {acts : List (CacheAct L)}
    (htidy : cache.listeners.Tidy)
    (hwithout : cache.listeners.Without mine)
    (hothers : ∀ act ∈ acts, ∀ listener ∈ act.listener?, mine listener = false) (world : σ) :
    (cache.run react acts world).cache.listeners.Tidy ∧
      (cache.run react acts world).cache.listeners.Without mine ∧
      (cache.run react acts world).cache.node = cache.node := by
  induction acts generalizing cache world with
  | nil => exact ⟨htidy, hwithout, rfl⟩
  | cons act acts ih =>
    have hother := hothers act List.mem_cons_self
    have hkept : (cache.perform react act world).cache.listeners.Tidy ∧
        (cache.perform react act world).cache.listeners.Without mine :=
      perform_keeps (P := fun t => t.Tidy ∧ t.Without mine) ⟨htidy, hwithout⟩
        (fun listener includesValues hact => ⟨htidy.add listener includesValues,
          hwithout.add (hother listener (by rw [hact]; rfl)) includesValues⟩)
        (fun event world =>
          ⟨htidy.dispatch react event world, hwithout.dispatch react event world⟩) world
    obtain ⟨htidy', hwithout', hnode⟩ := ih _ hkept.1 hkept.2
      (fun later hmem => hothers later (List.mem_cons_of_mem _ hmem))
      (cache.perform react act world).world
    exact ⟨htidy', hwithout', hnode.trans (node_perform cache act world)⟩

/-- What the listener hears accounts for what becomes of the cache. -/
theorem Holds.replay_run {acts : List (CacheAct L)} (h : cache.Holds contents)
    (htidy : cache.listeners.Tidy) (hsingle : cache.listeners.Single mine)
    (hothers : ∀ act ∈ acts, ∀ listener ∈ act.listener?, mine listener = false)
    (hkeen : ∀ event, Listeners.Keen mine react event) (world : σ) :
    (cache.run react acts world).cache.Holds
        (contents.replay (heard mine (cache.run react acts world).hearings)) ∧
      contents.Accounts (heard mine (cache.run react acts world).hearings) ∧
      ∀ event ∈ heard mine (cache.run react acts world).hearings, event.node = cache.node := by
  induction acts generalizing cache contents world with
  | nil => exact ⟨h, trivial, by simp [Change.run]⟩
  | cons act acts ih =>
    have hother := hothers act List.mem_cons_self
    have htidy' : (cache.perform react act world).cache.listeners.Tidy :=
      perform_keeps htidy (fun listener includesValues _ => htidy.add listener includesValues)
        (fun event world => htidy.dispatch react event world) world
    have hsingle' : (cache.perform react act world).cache.listeners.Single mine :=
      perform_keeps hsingle
        (fun listener includesValues hact =>
          hsingle.add (hother listener (by rw [hact]; rfl)) includesValues)
        (fun event world => hsingle.dispatch react event world htidy (hkeen event)) world
    have hrest : ∀ later ∈ acts, ∀ listener ∈ later.listener?, mine listener = false :=
      fun later hmem => hothers later (List.mem_cons_of_mem _ hmem)
    cases act with
    | listen listener includesValues =>
      have hheld : (cache.addListener listener includesValues).Holds contents := ⟨h.data, h.owner⟩
      exact ih hheld htidy' hsingle' hrest world
    | call request =>
      obtain ⟨hholds, haccounts, hnode⟩ := ih (h.perform_call request world) htidy' hsingle' hrest
        (cache.perform react (.call request) world).world
      obtain ⟨hfits, hreplay⟩ := contents.accounts_call cache.node request
      rw [node_perform] at hnode
      have hheard : heard mine (cache.perform react (.call request) world).hearings =
          (request.event? cache.node contents.registries).toList := by
        rw [heard_perform_call hsingle, h.data]
      simp only [LocalCache.run, Change.run, heard_append, hheard]
      rw [Contents.replay_append, Contents.accounts_append, hreplay]
      refine ⟨hholds, ⟨hfits, haccounts⟩, ?_⟩
      intro event hmem
      rcases List.mem_append.mp hmem with hfirst | hlater
      · exact CacheCall.node_event? (Option.mem_toList.mp hfirst)
      · exact hnode event hlater

end LocalCache

/-! ## Faithful logs -/

/-- Events are a faithful log. A listener that refuses nothing is registered with values at a member
of a hub that holds nothing of this member. However others write, evict and clear from then on, the
events it has heard so far turn what the hub held at first into what the hub holds now, each event
speaks of the entry that is there when the events before it are noted, and taking out what is not
there is not told. The same is so for a listener of a local cache, whatever calls are made; there
all events are in the name of the cache. -/
theorem replayed_from_events {L σ : Type} [DecidableEq L] {react : Reaction L σ} {listener : L}
    (hkeen : ∀ event world, (react listener event world).2 = none) :
    (∀ (name : String) (view : View) (before later : List (HubAct L)) (world : σ),
      (∀ act ∈ before, act.listener? ≠ some listener) →
      (∀ act ∈ later, act.IsForeign (fun other => other = listener) view.node) →
      let start := Hub.run react before { name } world
      start.cache.IsCurrent view →
      (∀ (key : Address) (holding : Holding), start.cache.data[key]? = some holding →
        holding.owner ≠ view.node) →
      let finish := Hub.run react later (start.cache.addListener view listener true) start.world
      let events := heard (fun other => other = listener) finish.hearings
      ∃ contents, start.cache.Holds contents ∧ finish.cache.Holds (contents.replay events) ∧
        contents.Accounts events ∧
        ∀ key, finish.cache.data[key]? = none → ∀ caller world,
          (finish.cache.perform react (.call caller (.remove key)) world).hearings = [] ∧
            (finish.cache.perform react (.evict key) world).hearings = []) ∧
    (∀ (name : String) (node : NodeId) (before later : List (CacheAct L)) (world : σ),
      (∀ act ∈ before ++ later, act.listener? ≠ some listener) →
      let start := LocalCache.run react before { name, node } world
      let finish :=
        LocalCache.run react later (start.cache.addListener listener true) start.world
      let events := heard (fun other => other = listener) finish.hearings
      ∃ contents, start.cache.Holds contents ∧ finish.cache.Holds (contents.replay events) ∧
        contents.Accounts events ∧ (∀ event ∈ events, event.node = node) ∧
        ∀ key, finish.cache.data[key]? = none → ∀ world,
          (finish.cache.perform react (.call (.remove key)) world).hearings = []) := by
  have hmine : ∀ event, Listeners.Keen (fun other => other = listener) react event := by
    intro event other world heq
    rw [of_decide_eq_true heq]
    exact hkeen event world
  have hother {registered : Option L} (hne : registered ≠ some listener) :
      ∀ other ∈ registered, decide (other = listener) = false := by
    intro other hregistered
    exact decide_eq_false fun heq => hne (heq ▸ hregistered)
  constructor
  · intro name view before later world hbefore hlater start hview howners finish events
    have hstart : start.cache.Holds (before.foldl HubAct.effect ∅) :=
      (Hub.holds_empty rfl).run react world before
    have hunattended : start.cache.Unattended fun other => other = listener :=
      (Hub.unattended_start name).run (Hub.holds_empty rfl) fun act hmem =>
        hother (hbefore act hmem)
    have hlacks : Contents.Lacks (before.foldl HubAct.effect ∅) view.node := by
      intro key kept hkept
      exact howners key (.of kept.owner kept.registry) (by rw [hstart.getElem?, hkept]; rfl)
    obtain ⟨hfinish, haccounts⟩ := hunattended.replay_run hstart hview hlacks
      (decide_eq_true rfl) hlater hmine start.world
    refine ⟨_, hstart, hfinish, haccounts, ?_⟩
    intro key hkey caller world
    have habsent := hfinish.getElem?_eq_none hkey
    constructor
    · apply hfinish.hearings_of_absent
      simp [HubAct.event?, CacheCall.event?, Contents.getElem?_registries, habsent]
    · apply hfinish.hearings_of_absent
      simp [HubAct.event?, habsent]
  · intro name node before later world hacts start finish events
    have hothers : ∀ act ∈ before ++ later, ∀ other ∈ act.listener?,
        decide (other = listener) = false := fun act hmem => hother (hacts act hmem)
    obtain ⟨contents, hstart⟩ := start.cache.exists_holds
    obtain ⟨htidy, hwithout, hnode⟩ := LocalCache.unattended_run react { name, node }
      Listeners.tidy_empty Listeners.without_empty
      (fun act hmem => hothers act (List.mem_append_left _ hmem)) world
    have hheld : (start.cache.addListener listener true).Holds contents :=
      ⟨hstart.data, hstart.owner⟩
    obtain ⟨hfinish, haccounts, hnodes⟩ := hheld.replay_run (htidy.add listener true)
      (hwithout.single_add (decide_eq_true rfl))
      (fun act hmem => hothers act (List.mem_append_right _ hmem)) hmine start.world
    refine ⟨contents, hstart, hfinish, haccounts,
      fun event hmem => (hnodes event hmem).trans hnode, ?_⟩
    intro key hkey world
    rw [LocalCache.perform_call_eq]
    simp [CacheCall.event?, hkey, LocalCache.announce]

namespace HubSample

def willing : Reaction String Unit := fun _ _ world => (world, none)

/-- Two nodes join, and the second one writes. -/
def arrivals : List (HubAct String) :=
  [.join ⟨"one"⟩, .join ⟨"two"⟩, .call (view "two" 1) (.put juliet (presence "romeo"))]

/-- The entry is taken over by a third node, lost with it, written again, and removed. -/
def takeover : List (HubAct String) :=
  [.join ⟨"three"⟩, .call (view "three" 2) (.put juliet (presence "nurse")),
    .evictNode ⟨"three"⟩, .evict juliet, .call (view "two" 1) (.put juliet (presence "romeo")),
    .call (view "two" 1) (.remove juliet), .clear ⟨"two"⟩]

/-- The first node hears a log of the takeover, and a local cache tells one of a write. -/
theorem takeover_replayed :
    (let start := Hub.run willing arrivals { name := "hub" } ()
      let finish := Hub.run willing takeover
        (start.cache.addListener (view "one" 0) "log" true) start.world
      let events := heard (fun other => other = "log") finish.hearings
      events = [.updated juliet (some (presence "romeo")) (some (presence "nurse")) ⟨"three"⟩,
        .mapEvicted ⟨"three"⟩, .added juliet (some (presence "romeo")) ⟨"two"⟩,
        .removed juliet (some (presence "romeo")) ⟨"two"⟩, .mapCleared ⟨"two"⟩] ∧
      ∃ contents, start.cache.Holds contents ∧ finish.cache.Holds (contents.replay events) ∧
        contents.Accounts events) ∧
    (let start : LocalCache String := { name := "cache", node := ⟨"one"⟩ }
      let finish := LocalCache.run willing [.call (.put juliet (presence "romeo"))]
        (start.addListener "log" true) ()
      let events := heard (fun other => other = "log") finish.hearings
      ∃ contents, start.Holds contents ∧ finish.cache.Holds (contents.replay events) ∧
        contents.Accounts events ∧ ∀ event ∈ events, event.node = ⟨"one"⟩) := by
  have hbefore : ∀ act ∈ arrivals, act.listener? ≠ some "log" := by decide
  have hlater : ∀ act ∈ takeover, act.IsForeign (fun other => other = "log") ⟨"one"⟩ := by
    simp [takeover, HubAct.IsForeign, HubAct.Spares, HubAct.mover?, HubAct.listener?,
      HubAct.writer?, view]
  have howners : ∀ (key : Address) (holding : Holding),
      (Hub.run willing arrivals { name := "hub" } ()).cache.data[key]? = some holding →
        holding.owner ≠ ⟨"one"⟩ := by
    intro key holding hdata
    have hempty : ({ name := "hub" } : Hub String).Holds ∅ := Hub.holds_empty rfl
    rw [(hempty.run willing () arrivals).getElem?] at hdata
    obtain ⟨kept, hkept, rfl⟩ := Option.map_eq_some_iff.mp hdata
    simp only [arrivals, List.foldl_cons, List.foldl_nil, HubAct.effect, CacheCall.effect,
      Std.ExtTreeMap.getElem?_insert, Std.ExtTreeMap.getElem?_empty] at hkept
    split at hkept
    · rw [← Option.some.inj hkept]
      decide
    · cases hkept
  obtain ⟨hhub, hlocal⟩ := @replayed_from_events String Unit _ willing "log" fun _ _ => rfl
  obtain ⟨contents, hstart, hfinish, haccounts, -⟩ := hhub "hub" (view "one" 0) arrivals takeover ()
    hbefore hlater (by decide +kernel) howners
  obtain ⟨other, hother, hlast, hfits, hnode, -⟩ := hlocal "cache" ⟨"one"⟩ []
    [.call (.put juliet (presence "romeo"))] () (by decide)
  exact ⟨⟨by decide +kernel, contents, hstart, hfinish, haccounts⟩, other, hother, hlast, hfits,
    hnode⟩

end HubSample

end DirectedPresence
