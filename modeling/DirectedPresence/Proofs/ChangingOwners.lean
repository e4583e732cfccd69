import DirectedPresence.Proofs.ClusterRuns
import DirectedPresence.Proofs.EventFeeds
import DirectedPresence.Proofs.ListenerTables

/-!
Senders that change hands. An index keeps the senders of each node apart, and an event speaks of the
node in whose name the change was made. When one node writes or removes what another has written,
the event therefore says nothing of the former owner, and what the index of a third node lists under
the former owner stays listed. This is the only way in which an index can go wrong about a sender:
as long as no listed entry is displaced like this, every index mirrors the entry of the sender under
its owner, and from the first displacement on it lists the sender under a node that does not own it
(`listed_under_owner_iff`). A node that takes over an entry of which nothing is listed does no harm.
-/

namespace DirectedPresence

/-! ## What a feed makes of what it hears -/

namespace Feed

variable {env : Environment} {node : NodeId}

def isOf (node : NodeId) (feed : Feed) : Bool :=
  feed.node = node

def follow (env : Environment) (node : NodeId) (index : ReverseIndex)
    (events : List CacheEvent) : ReverseIndex :=
  events.foldl (fun index event => index.noted (env node).routes.isLocal event) index

theorem follow_append (index : ReverseIndex) (events more : List CacheEvent) :
    follow env node index (events ++ more) =
      follow env node (follow env node index events) more :=
  List.foldl_append

theorem keen {event : CacheEvent} (hvalued : event.Valued) :
    Listeners.Keen (isOf node) (react env) event := by
  intro feed indexes _
  simp [react, hvalued (env feed.node).routes.isLocal (indexes[feed.node]?.getD {})]

/-- A feed changes the index of its own node, and takes note there of what it hears. -/
theorem index_react (feed : Feed) (event : CacheEvent) (indexes : NodeMap ReverseIndex) :
    (react env feed event indexes).1[node]?.getD {} =
      if isOf node feed then
        (indexes[node]?.getD {}).noted (env node).routes.isLocal event
      else indexes[node]?.getD {} := by
  simp only [isOf, decide_eq_true_eq]
  by_cases heq : feed.node = node
  · subst heq
    simp only [react, ReverseIndex.noted, if_true]
    split <;> simp [*]
  · simp only [react, heq, if_false]
    split <;> simp [Std.ExtTreeMap.getElem?_insert, heq]

end Feed

section Index

variable (env : Environment) (node : NodeId)

theorem Listeners.index_deliver (event : CacheEvent) (registrations : List (Registration Feed))
    (indexes : NodeMap ReverseIndex) :
    (deliver (Feed.react env) event registrations indexes).1[node]?.getD {} =
      Feed.follow env node (indexes[node]?.getD {})
        (heard (Feed.isOf node) (deliver (Feed.react env) event registrations indexes).2) := by
  induction registrations generalizing indexes with
  | nil => rfl
  | cons r rs ih =>
    simp only [deliver]
    rw [ih, Feed.index_react]
    cases hmine : Feed.isOf node r.listener <;> simp [heard, hmine, Feed.follow]

private theorem Hub.index_tell (event : CacheEvent) (nodes : List NodeId) (hub : Hub Feed)
    (indexes : NodeMap ReverseIndex) :
    (tell (Feed.react env) event nodes hub indexes).2.1[node]?.getD {} =
      Feed.follow env node (indexes[node]?.getD {})
        (heard (Feed.isOf node) (tell (Feed.react env) event nodes hub indexes).2.2) := by
  induction nodes generalizing hub indexes with
  | nil => rfl
  | cons first nodes ih =>
    unfold tell
    split
    · exact ih hub indexes
    · next member hmember =>
      have hfirst := Listeners.index_deliver env node event member.listeners.registrations indexes
      simp only [Listeners.dispatch, heard_append, Feed.follow_append]
      rw [ih, hfirst]

/-- Every index follows what is heard at its node. -/
theorem Hub.Holds.index_perform {hub : Hub Feed} {contents : Contents} (h : hub.Holds contents)
    (act : HubAct Feed) (indexes : NodeMap ReverseIndex) :
    (hub.perform (Feed.react env) act indexes).world[node]?.getD {} =
      Feed.follow env node (indexes[node]?.getD {})
        (heard (Feed.isOf node) (hub.perform (Feed.react env) act indexes).hearings) := by
  rw [h.perform_eq]
  cases act.event? contents with
  | none => rfl
  | some event => exact Hub.index_tell env node event _ _ indexes

end Index

/-- Every event of a hub comes with its values. -/
theorem HubAct.valued_event? {L : Type} {contents : Contents} {act : HubAct L} :
    ∀ event ∈ act.event? contents, event.Valued := by
  intro event hevent
  cases act with
  | call view request =>
    cases request with
    | put key value =>
      rw [← Option.some.inj hevent]
      exact CacheEvent.valued_ofWrite key _ value view.node
    | remove key =>
      obtain ⟨old, -, rfl⟩ := Option.map_eq_some_iff.mp hevent
      exact fun _ _ => rfl
    | get _ | entries => cases hevent
  | evict key =>
    obtain ⟨kept, -, rfl⟩ := Option.map_eq_some_iff.mp hevent
    exact fun _ _ => rfl
  | evictNode _ | clear _ =>
    rw [← Option.some.inj hevent]
    exact fun _ _ => rfl
  | join _ | leave _ | listen _ _ _ => cases hevent

/-! ## The entry of one sender -/

def CacheCall.target? : CacheCall → Option Address
  | .put key _ | .remove key => some key
  | .get _ | .entries => none

namespace HubAct

variable {L : Type}

/-- Whether an act replaces or removes an entry of the sender that belongs to another node and has
receivers that are served here. -/
def Displaces (isLocal : Address → Bool) (sender : Address) (contents : Contents) :
    HubAct L → Prop
  | .call view request => request.target? = some sender ∧ ∃ kept,
      contents[sender]? = some kept ∧ kept.owner ≠ view.node ∧
        (kept.registry.localReceivers? isLocal).isSome
  | _ => False

/-- Whether an act stores the entry of the sender in the name of the node. -/
def Stores (node : NodeId) (sender : Address) : HubAct L → Prop
  | .call view (.put key _) => view.node = node ∧ key = sender
  | _ => False

def NoneDisplaces (isLocal : Address → Bool) (sender : Address) :
    Contents → List (HubAct L) → Prop
  | _, [] => True
  | contents, act :: acts => ¬ act.Displaces isLocal sender contents ∧
      NoneDisplaces isLocal sender (act.effect contents) acts

end HubAct

/-- What an index should list under a node: the receivers of the sender that are served here, if the
node owns the entry. -/
def Contents.listing? (isLocal : Address → Bool) (contents : Contents) (sender : Address)
    (peer : NodeId) : Option AddressSet :=
  contents[sender]?.bind fun kept =>
    if kept.owner = peer then kept.registry.localReceivers? isLocal else none

/-- The index of a node lists a sender only under the owner of its entry. -/
def Hub.ListsUnderOwner (hub : Hub Feed) (indexes : NodeMap ReverseIndex) (node : NodeId)
    (sender : Address) : Prop :=
  ∀ (peer : NodeId) (receivers : AddressSet),
    (indexes[node]?.getD {}).receivers? peer sender = some receivers →
      ∃ holding, hub.data[sender]? = some holding ∧ holding.owner = peer

/-- The index of a node lists a sender as the contents say, and the node does not own its entry. -/
structure Contents.Listed (isLocal : Address → Bool) (contents : Contents) (index : ReverseIndex)
    (node : NodeId) (sender : Address) : Prop where
  mirrored : ∀ peer, index.receivers? peer sender = contents.listing? isLocal sender peer
  foreign : ∀ kept, contents[sender]? = some kept → kept.owner ≠ node

namespace Contents

variable {env : Environment} {node : NodeId} {sender : Address} {contents : Contents}
  {index : ReverseIndex} {L : Type} {act : HubAct L}

/-- A call of which the node learns concerns what is listed of its target under the node of the
caller, and nothing else. -/
theorem receivers?_follow_call {view : View} {request : CacheCall} {peer : NodeId}
    (hother : request.target? ≠ some sender ∨ view.node ≠ peer) :
    (Feed.follow env node index
      ((HubAct.call (L := L) view request).news node contents).toList).receivers? peer sender =
        index.receivers? peer sender := by
  rw [HubAct.news_call]
  have hne (key : Address) (htarget : request.target? = some key) :
      ¬ (view.node = peer ∧ key = sender) := by
    rintro ⟨rfl, rfl⟩
    exact hother.elim (fun h => h htarget) fun h => h rfl
  split
  · rfl
  · cases request with
    | get _ | entries => rfl
    | put key value =>
      exact (ReverseIndex.receivers?_noted_write _ value peer sender).trans (if_neg (hne key rfl))
    | remove key =>
      rw [CacheCall.event?]
      cases contents.registries[key]? with
      | none => rfl
      | some old =>
        have hnoted := @ReverseIndex.receivers?_noted_removed (env node).routes.isLocal index
          view.node key old peer sender
        exact hnoted.trans (if_neg (hne key rfl))

theorem getElem?_effect_of_ne {request : CacheCall} (hother : request.target? ≠ some sender) :
    (request.effect node contents)[sender]? = contents[sender]? := by
  cases request with
  | get _ | entries => rfl
  | put key value =>
    have hne : key ≠ sender := fun heq => hother (congrArg some heq)
    simp [CacheCall.effect, Std.ExtTreeMap.getElem?_insert, hne]
  | remove key =>
    have hne : key ≠ sender := fun heq => hother (congrArg some heq)
    simp [CacheCall.effect, Std.ExtTreeMap.getElem?_erase, hne]

/-- What is listed under another caller after its call is what the call leaves, unless something
was listed under it of a sender without an entry. -/
theorem receivers?_follow_caller {view : View} {request : CacheCall} (hnode : view.node ≠ node)
    (htarget : request.target? = some sender)
    (hblank : contents[sender]? = none → index.receivers? view.node sender = none) :
    (Feed.follow env node index
      ((HubAct.call (L := L) view request).news node contents).toList).receivers? view.node sender =
        (request.effect view.node contents).listing? (env node).routes.isLocal sender
          view.node := by
  rw [HubAct.news_call, if_neg hnode]
  cases request with
  | get _ | entries => cases htarget
  | put key value =>
    obtain rfl := Option.some.inj htarget
    have hstale : (if (contents.registries[key]?).isNone then index.receivers? view.node key
        else none) = none := by
      rw [getElem?_registries]
      cases hkept : contents[key]? with
      | none => exact hblank hkept
      | some kept => rfl
    have hnoted := @ReverseIndex.receivers?_noted_write (env node).routes.isLocal index view.node
      key contents.registries[key]? value view.node key
    rw [if_pos ⟨rfl, rfl⟩, hstale, Option.or_none] at hnoted
    exact hnoted.trans (by simp [CacheCall.effect, listing?])
  | remove key =>
    obtain rfl := Option.some.inj htarget
    have hnothing : (CacheCall.effect view.node contents (.remove key)).listing?
        (env node).routes.isLocal key view.node = none := by
      simp [CacheCall.effect, listing?]
    rw [hnothing, CacheCall.event?, getElem?_registries]
    cases hkept : contents[key]? with
    | none => exact hblank hkept
    | some kept =>
      have hnoted := @ReverseIndex.receivers?_noted_removed (env node).routes.isLocal index
        view.node key kept.registry view.node key
      exact hnoted.trans (if_pos ⟨rfl, rfl⟩)

/-- An entry that is there after a call for it was written by the caller. -/
theorem put_of_effect {caller : NodeId} {request : CacheCall} {kept : Kept}
    (htarget : request.target? = some sender)
    (hkept : (request.effect caller contents)[sender]? = some kept) :
    kept.owner = caller ∧ ∃ value, request = .put sender value := by
  cases request with
  | get _ | entries => cases htarget
  | put key value =>
    obtain rfl := Option.some.inj htarget
    simp only [CacheCall.effect, Std.ExtTreeMap.getElem?_insert_self, Option.some.injEq] at hkept
    exact ⟨hkept ▸ rfl, value, rfl⟩
  | remove key =>
    obtain rfl := Option.some.inj htarget
    simp [CacheCall.effect] at hkept

private theorem listing?_eq_none {isLocal : Address → Bool} {peer : NodeId}
    (h : ∀ kept, contents[sender]? = some kept → kept.owner ≠ peer) :
    contents.listing? isLocal sender peer = none := by
  rw [listing?, Option.bind_eq_none_iff]
  exact fun kept hkept => if_neg (h kept hkept)

/-- Nothing is listed under others of an entry that a call may change without displacing it. -/
theorem listing?_of_not_displaces {isLocal : Address → Bool} {view : View} {request : CacheCall}
    (htarget : request.target? = some sender)
    (hkeeps : ¬ (HubAct.call (L := L) view request).Displaces isLocal sender contents)
    {peer : NodeId} (hne : view.node ≠ peer) : contents.listing? isLocal sender peer = none := by
  rw [listing?, Option.bind_eq_none_iff]
  intro kept hkept
  split
  · next howner =>
    by_contra hlisted
    rw [← howner] at hne
    exact hkeeps ⟨htarget, kept, hkept, hne.symm, Option.isSome_iff_ne_none.mpr hlisted⟩
  · rfl

/-- Unless a listed entry is displaced, the index goes on to list the sender as the contents say. -/
theorem Listed.step (h : contents.Listed (env node).routes.isLocal index node sender)
    (hplain : act.isPlain) (hstores : ¬ act.Stores node sender)
    (hkeeps : ¬ act.Displaces (env node).routes.isLocal sender contents) :
    (act.effect contents).Listed (env node).routes.isLocal
      (Feed.follow env node index
        (act.news node contents).toList) node sender := by
  cases act with
  | leave _ | evict _ | evictNode _ | clear _ => exact absurd hplain Bool.false_ne_true
  | join _ | listen _ _ _ => exact h
  | call view request =>
    by_cases htarget : request.target? = some sender
    · have hforeign (kept : Kept)
          (hkept : (request.effect view.node contents)[sender]? = some kept) :
          kept.owner ≠ node := by
        obtain ⟨howner, value, rfl⟩ := put_of_effect htarget hkept
        rw [howner]
        exact fun hself => hstores ⟨hself, rfl⟩
      refine ⟨fun peer => ?_, hforeign⟩
      by_cases hpeer : view.node = peer
      · subst hpeer
        by_cases hself : view.node = node
        · have hnothing : (request.effect view.node contents).listing? (env node).routes.isLocal
              sender node = none := listing?_eq_none hforeign
          rw [HubAct.news_call, if_pos hself, hself]
          exact ((h.mirrored node).trans (listing?_eq_none h.foreign)).trans hnothing.symm
        · refine receivers?_follow_caller hself htarget fun hnone => ?_
          rw [h.mirrored, listing?, hnone]
          rfl
      · rw [receivers?_follow_call (Or.inr hpeer), h.mirrored,
          listing?_of_not_displaces htarget hkeeps hpeer]
        refine (listing?_eq_none fun kept hkept => ?_).symm
        rw [(put_of_effect htarget hkept).1]
        exact hpeer
    · have hsame : (request.effect view.node contents)[sender]? = contents[sender]? :=
        getElem?_effect_of_ne htarget
      constructor
      · intro peer
        rw [receivers?_follow_call (Or.inl htarget), h.mirrored, listing?, listing?]
        exact congrArg (Option.bind · _) hsame.symm
      · intro kept hkept
        exact h.foreign kept (hsame.symm.trans hkept)

/-- Once a listed entry is displaced, its former owner is listed on. -/
theorem Listed.displaced (h : contents.Listed (env node).routes.isLocal index node sender)
    (hdisplaces : act.Displaces (env node).routes.isLocal sender contents) :
    ∃ peer receivers, (Feed.follow env node index (act.news node contents).toList).receivers? peer
        sender = some receivers ∧
      ∀ kept, (act.effect contents)[sender]? = some kept → kept.owner ≠ peer := by
  cases act with
  | call view request =>
    obtain ⟨htarget, kept, hkept, howner, hlisted⟩ := hdisplaces
    obtain ⟨receivers, hreceivers⟩ := Option.isSome_iff_exists.mp hlisted
    refine ⟨kept.owner, receivers, ?_, ?_⟩
    · rw [receivers?_follow_call (Or.inr howner.symm), h.mirrored, listing?, hkept]
      simpa using hreceivers
    · intro left hleft
      rw [(put_of_effect htarget hleft).1]
      exact howner.symm
  | join _ | leave _ | listen _ _ _ | evict _ | evictNode _ | clear _ => exact hdisplaces.elim

end Contents

/-! ## Runs -/

namespace Hub

variable {env : Environment} {node : NodeId} {sender : Address} {hub : Hub Feed}
  {contents : Contents} {indexes : NodeMap ReverseIndex}

/-- A hub whose index lists a sender as the contents say lists it under the owner. -/
theorem listsUnderOwner_of_listed (hholds : hub.Holds contents)
    (h : contents.Listed (env node).routes.isLocal (indexes[node]?.getD {}) node sender) :
    hub.ListsUnderOwner indexes node sender := by
  intro peer receivers hreceivers
  rw [h.mirrored, Contents.listing?] at hreceivers
  obtain ⟨kept, hkept, howner⟩ := Option.bind_eq_some_iff.mp hreceivers
  refine ⟨.of kept.owner kept.registry, by rw [hholds.getElem?, hkept]; rfl, ?_⟩
  split at howner
  · next heq => exact heq
  · cases howner

/-- The index goes on to list the sender under its owner if and only if no listed entry of the
sender is displaced. -/
theorem Attends.listsUnderOwner_iff (h : hub.Attends (Feed.isOf node) node)
    (hholds : hub.Holds contents)
    (hlisted : contents.Listed (env node).routes.isLocal (indexes[node]?.getD {}) node sender)
    {acts : List (HubAct Feed)}
    (hacts : ∀ act ∈ acts, act.isPlain ∧ act.Spares (Feed.isOf node) node ∧
      ¬ act.Stores node sender) :
    ((∀ done, done <+: acts → (hub.run (Feed.react env) done indexes).cache.ListsUnderOwner
        (hub.run (Feed.react env) done indexes).world node sender) ↔
      HubAct.NoneDisplaces (env node).routes.isLocal sender contents acts) ∧
    (HubAct.NoneDisplaces (env node).routes.isLocal sender contents acts →
      (acts.foldl HubAct.effect contents).Listed (env node).routes.isLocal
        ((hub.run (Feed.react env) acts indexes).world[node]?.getD {}) node sender) := by
  induction acts generalizing hub contents indexes with
  | nil =>
    refine ⟨⟨fun _ => trivial, ?_⟩, fun _ => hlisted⟩
    rintro - done hdone
    rw [List.prefix_nil.mp hdone]
    exact listsUnderOwner_of_listed hholds hlisted
  | cons act acts ih =>
    obtain ⟨hplain, hspares, hstores⟩ := hacts act List.mem_cons_self
    have hkeen : ∀ event ∈ act.event? contents,
        Listeners.Keen (Feed.isOf node) (Feed.react env) event :=
      fun event hevent => Feed.keen (HubAct.valued_event? event hevent)
    have hindex := hholds.index_perform env node act indexes
    rw [h.heard_perform hholds hspares hkeen indexes] at hindex
    have hafter := hholds.perform (Feed.react env) act indexes
    by_cases hdisplaces : act.Displaces (env node).routes.isLocal sender contents
    · refine ⟨⟨fun hall => ?_, fun hnone => absurd hdisplaces hnone.1⟩,
        fun hnone => absurd hdisplaces hnone.1⟩
      obtain ⟨peer, receivers, hreceivers, howners⟩ := hlisted.displaced hdisplaces
      rw [← hindex] at hreceivers
      obtain ⟨holding, hholding, howner⟩ := hall [act] (by simp) peer receivers hreceivers
      obtain ⟨kept, hkept, rfl⟩ :=
        Option.map_eq_some_iff.mp ((hafter.getElem? sender).symm.trans hholding)
      exact absurd howner (howners kept hkept)
    · have hstep := hlisted.step hplain hstores hdisplaces
      rw [← hindex] at hstep
      obtain ⟨hiff, hend⟩ := ih (h.perform hholds hspares hkeen indexes) hafter hstep
        fun later hmem => hacts later (List.mem_cons_of_mem _ hmem)
      refine ⟨⟨fun hall => ⟨hdisplaces, hiff.mp fun done hdone => ?_⟩, fun hnone done hdone => ?_⟩,
        fun hnone => hend hnone.2⟩
      · exact hall (act :: done) (List.cons_prefix_cons.mpr ⟨rfl, hdone⟩)
      · rcases List.prefix_cons_iff.mp hdone with rfl | ⟨rest, rfl, hrest⟩
        · exact listsUnderOwner_of_listed hholds hlisted
        · exact hiff.mpr hnone.2 rest hrest

end Hub

/-- Senders are listed under their owners, as long as no entry of which something is listed changes
hands. A node registers its feed while the hub is empty, and from then on everyone calls and joins
at will, but the node itself stores no entry of the sender. After every call the index of the node
lists the sender under the owner of its entry only, if and only if no call replaces or removes an
entry of the sender that another node owns and of which the node serves receivers; and then the
index lists exactly the receivers of the entry that the node serves, under its owner. -/
theorem listed_under_owner_iff (env : Environment) (name : String) (view : View) (feed : Feed)
    (sender : Address) {before later : List (HubAct Feed)} {world indexes : NodeMap ReverseIndex}
    (hfeed : feed.node = view.node)
    (hbefore : ∀ act ∈ before, ∀ other ∈ act.listener?, other.node ≠ view.node)
    (hempty : (Hub.run (Feed.react env) before { name } world).cache.data = ∅)
    (hview : (Hub.run (Feed.react env) before { name } world).cache.IsCurrent view)
    (hindex : indexes[view.node]?.getD {} = {})
    (hlater : ∀ act ∈ later, act.isPlain ∧ act.Spares (Feed.isOf view.node) view.node ∧
      ¬ act.Stores view.node sender) :
    let start := (Hub.run (Feed.react env) before { name } world).cache.addListener view feed true
    let isLocal := (env view.node).routes.isLocal
    ((∀ done, done <+: later →
        (start.run (Feed.react env) done indexes).cache.ListsUnderOwner
          (start.run (Feed.react env) done indexes).world view.node sender) ↔
      HubAct.NoneDisplaces isLocal sender ∅ later) ∧
    (HubAct.NoneDisplaces isLocal sender ∅ later →
      (later.foldl HubAct.effect ∅).Listed isLocal
        ((start.run (Feed.react env) later indexes).world[view.node]?.getD {}) view.node
        sender) := by
  have hunattended : (Hub.run (Feed.react env) before { name } world).cache.Unattended
      (Feed.isOf view.node) :=
    (Hub.unattended_start name).run (Hub.holds_empty rfl) fun act hmem other hother =>
      decide_eq_false (hbefore act hmem other hother)
  have hattends := hunattended.attends hview (decide_eq_true hfeed)
  have hholds := Hub.holds_empty ((Hub.data_addListener _ view feed true).trans hempty)
  have hlisted : Contents.Listed (env view.node).routes.isLocal ∅ (indexes[view.node]?.getD {})
      view.node sender := by
    rw [hindex]
    exact ⟨fun peer => by simp [Contents.listing?, ReverseIndex.receivers?, ReverseIndex.senders],
      fun kept hkept => by simp at hkept⟩
  exact hattends.listsUnderOwner_iff hholds hlisted hlater

namespace HubSample

def feed : Feed := ⟨"feed", ⟨"one"⟩⟩

def crowd : List (HubAct Feed) :=
  [.join ⟨"one"⟩, .join ⟨"two"⟩, .join ⟨"three"⟩]

/-- A sender leaves one node before it comes back at another. -/
def orderlyMove : List (HubAct Feed) :=
  [.call (view "two" 1) (.put juliet (presence "romeo")), .call (view "two" 1) (.remove juliet),
    .call (view "three" 2) (.put juliet (presence "nurse"))]

/-- A sender comes back at another node before the first one has noticed that it is gone. -/
def hastyMove : List (HubAct Feed) :=
  [.call (view "two" 1) (.put juliet (presence "romeo")),
    .call (view "three" 2) (.put juliet (presence "nurse"))]

def listening : Hub Feed :=
  (Hub.run (Feed.react fun _ => .agreeable) crowd { name := "hub" } ∅).cache.addListener
    (view "one" 0) feed true

theorem orderly_move_listed :
    let moved := listening.run (Feed.react fun _ => .agreeable) orderlyMove ∅
    moved.cache.ListsUnderOwner moved.world ⟨"one"⟩ juliet ∧
      (orderlyMove.foldl HubAct.effect ∅).Listed (fun _ => true)
        (moved.world[(⟨"one"⟩ : NodeId)]?.getD {}) ⟨"one"⟩ juliet := by
  have hlater : ∀ act ∈ orderlyMove, act.isPlain ∧ act.Spares (Feed.isOf ⟨"one"⟩) ⟨"one"⟩ ∧
      ¬ act.Stores ⟨"one"⟩ juliet := by
    simp [orderlyMove, HubAct.isPlain, HubAct.Spares, HubAct.mover?, HubAct.listener?,
      HubAct.Stores, view]
  have hkept : HubAct.NoneDisplaces (fun _ => true) juliet ∅ orderlyMove := by
    simp [orderlyMove, HubAct.NoneDisplaces, HubAct.Displaces, HubAct.effect, CacheCall.effect,
      CacheCall.target?, view]
  have hmoves := @listed_under_owner_iff (fun _ => .agreeable) "hub" (view "one" 0) feed juliet
    crowd orderlyMove ∅ ∅ rfl (by decide) (by decide +kernel) (by decide +kernel) (by simp) hlater
  exact ⟨hmoves.1.mpr hkept orderlyMove List.prefix_rfl, hmoves.2 hkept⟩

/-- After a hasty move the sender is listed under both nodes, and under the former one even when its
entry is gone. -/
theorem hasty_move_listed_twice :
    let moved := listening.run (Feed.react fun _ => .agreeable) hastyMove ∅
    let gone := moved.cache.perform (Feed.react fun _ => .agreeable)
      (.call (view "three" 2) (.remove juliet)) moved.world
    ¬ moved.cache.ListsUnderOwner moved.world ⟨"one"⟩ juliet ∧
      ¬ gone.cache.ListsUnderOwner gone.world ⟨"one"⟩ juliet := by
  intro moved gone
  have hmoved : ((moved.world[(⟨"one"⟩ : NodeId)]?.getD {}).receivers? ⟨"two"⟩ juliet).isSome ∧
      moved.cache.data[juliet]?.map (·.owner) = some ⟨"three"⟩ := by
    decide +kernel
  have hgone : ((gone.world[(⟨"one"⟩ : NodeId)]?.getD {}).receivers? ⟨"two"⟩ juliet).isSome ∧
      gone.cache.data[juliet]? = none := by
    decide +kernel
  constructor
  · intro hlists
    obtain ⟨receivers, hreceivers⟩ := Option.isSome_iff_exists.mp hmoved.1
    obtain ⟨holding, hholding, howner⟩ := hlists ⟨"two"⟩ receivers hreceivers
    rw [hholding] at hmoved
    exact absurd (howner.symm.trans (Option.some.inj hmoved.2)) (by decide)
  · intro hlists
    obtain ⟨receivers, hreceivers⟩ := Option.isSome_iff_exists.mp hgone.1
    obtain ⟨holding, hholding, -⟩ := hlists ⟨"two"⟩ receivers hreceivers
    rw [hgone.2] at hholding
    cases hholding

end HubSample

end DirectedPresence
