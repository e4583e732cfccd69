import DirectedPresence.Proofs.CacheContents

/-!
Caches as their callers see them. Whoever uses a cache calls it or registers a listener with it; a
hub moreover has members that come and go, and entries that are evicted. What a hub holds is said by
its contents: a registry for each sender, with the node that wrote it last. An act has one effect on
the contents, an answer and an event to tell that depend on nothing but the contents before it, and
then its event is told to every member but the one in whose name it is (`Hub.Holds.perform_eq`).
Listeners and what they refuse therefore have no influence on the contents and the answers. A local
cache follows the same equations without the writers, so callers cannot tell a hub from a local
cache by the answers (`Hub.answers_alone`).
-/

namespace DirectedPresence

inductive CacheCall where
  | get (key : Address)
  | put (key : Address) (value : Registry)
  | remove (key : Address)
  | entries
deriving DecidableEq

/-- What a call on a cache answers: the registry that is or was there, or all entries. -/
inductive CacheReply where
  | registry (value : Option Registry)
  | listing (entries : List (Address × Registry))
deriving DecidableEq

inductive CacheAct (L : Type) where
  | listen (listener : L) (includesValues : Bool)
  | call (call : CacheCall)
deriving DecidableEq

/-- What happens to a hub. Listeners are registered and calls are made through views. -/
inductive HubAct (L : Type) where
  | join (node : NodeId)
  | leave (node : NodeId)
  | listen (view : View) (listener : L) (includesValues : Bool)
  | call (view : View) (call : CacheCall)
  | evict (key : Address)
  | evictNode (node : NodeId)
  | clear (node : NodeId)
deriving DecidableEq

namespace Change

variable {κ : Type → Type} {L σ α β A : Type}

def map (f : α → β) (c : Change κ L σ α) : Change κ L σ β :=
  { c with answer := f c.answer }

@[simp] theorem answer_map (f : α → β) (c : Change κ L σ α) : (c.map f).answer = f c.answer := rfl

/-- What comes of several acts, one after another: the answers that were given, and all that was
heard. -/
def run (perform : κ L → A → σ → Change κ L σ (Option α)) : List A → κ L → σ →
    Change κ L σ (List α)
  | [], cache, world => ⟨[], cache, world, []⟩
  | act :: acts, cache, world =>
    let first := perform cache act world
    let rest := run perform acts first.cache first.world
    ⟨first.answer.toList ++ rest.answer, rest.cache, rest.world, first.hearings ++ rest.hearings⟩

end Change

def LocalCache.perform {L σ : Type} (react : Reaction L σ) (cache : LocalCache L)
    (act : CacheAct L) (world : σ) : Change LocalCache L σ (Option CacheReply) :=
  match act with
  | .listen listener includesValues =>
    ⟨none, cache.addListener listener includesValues, world, []⟩
  | .call (.get key) => ⟨some (.registry (cache.get? key)), cache, world, []⟩
  | .call (.put key value) => (cache.put react key value world).map (some ∘ .registry)
  | .call (.remove key) => (cache.remove react key world).map (some ∘ .registry)
  | .call .entries => ⟨some (.listing cache.entries), cache, world, []⟩

def Hub.perform [Enumerates] {L σ : Type} (react : Reaction L σ) (hub : Hub L) (act : HubAct L)
    (world : σ) : Change Hub L σ (Option (Except CacheError CacheReply)) :=
  match act with
  | .join node => ⟨none, (hub.join node).1, world, []⟩
  | .leave node => ⟨none, hub.leave node, world, []⟩
  | .listen view listener includesValues =>
    ⟨none, hub.addListener view listener includesValues, world, []⟩
  | .call _ (.get key) => ⟨some ((hub.get key).map .registry), hub, world, []⟩
  | .call view (.put key value) =>
    (hub.put react view.node key value world).map fun answer => some (answer.map .registry)
  | .call view (.remove key) =>
    (hub.remove react view.node key world).map fun answer => some (answer.map .registry)
  | .call _ .entries => ⟨some (hub.entries.map .listing), hub, world, []⟩
  | .evict key => (hub.evict react key world).map fun answer => some (answer.map .registry)
  | .evictNode node => (hub.evictNode react node world).map fun _ => none
  | .clear node => (hub.clear react node world).map fun _ => none

abbrev LocalCache.run {L σ : Type} (react : Reaction L σ) :
    List (CacheAct L) → LocalCache L → σ → Change LocalCache L σ (List CacheReply) :=
  Change.run (LocalCache.perform react)

abbrev Hub.run {L σ : Type} (react : Reaction L σ) :
    List (HubAct L) → Hub L → σ → Change Hub L σ (List (Except CacheError CacheReply)) :=
  Change.run (Hub.perform react)

/-! ## Contents -/

structure Kept where
  registry : Registry
  owner : NodeId
deriving DecidableEq

abbrev Contents := AddressMap Kept

namespace Contents

def without (contents : Contents) (node : NodeId) : Contents :=
  contents.filter fun _ kept => kept.owner ≠ node

def registries (contents : Contents) : AddressMap Registry :=
  contents.map fun _ kept => kept.registry

/-- The contents in binary form. -/
def holdings (contents : Contents) : AddressMap Holding :=
  contents.map fun _ kept => .of kept.owner kept.registry

end Contents

namespace CacheCall

def effect (node : NodeId) (contents : Contents) : CacheCall → Contents
  | .put key value => contents.insert key ⟨value, node⟩
  | .remove key => contents.erase key
  | .get _ | .entries => contents

def write (registries : AddressMap Registry) : CacheCall → AddressMap Registry
  | .put key value => registries.insert key value
  | .remove key => registries.erase key
  | .get _ | .entries => registries

def reply (registries : AddressMap Registry) : CacheCall → CacheReply
  | .get key | .put key _ | .remove key => .registry registries[key]?
  | .entries => .listing registries.toList

/-- The event that a call in the name of a node gives rise to. -/
def event? (node : NodeId) (registries : AddressMap Registry) : CacheCall → Option CacheEvent
  | .put key value => some (.ofWrite key registries[key]? value node)
  | .remove key => registries[key]?.map fun old => .removed key (some old) node
  | .get _ | .entries => none

end CacheCall

namespace HubAct

variable {L : Type}

def effect (contents : Contents) : HubAct L → Contents
  | .call view request => request.effect view.node contents
  | .evict key => contents.erase key
  | .evictNode node | .leave node => contents.without node
  | .clear _ => ∅
  | .join _ | .listen .. => contents

def reply? (contents : Contents) : HubAct L → Option CacheReply
  | .call _ request => some (request.reply contents.registries)
  | .evict key => some (.registry contents.registries[key]?)
  | .join _ | .leave _ | .listen .. | .evictNode _ | .clear _ => none

def event? (contents : Contents) : HubAct L → Option CacheEvent
  | .call view request => request.event? view.node contents.registries
  | .evict key => contents[key]?.map fun kept => .evicted key (some kept.registry) kept.owner
  | .evictNode node => some (.mapEvicted node)
  | .clear node => some (.mapCleared node)
  | .join _ | .leave _ | .listen .. => none

/-- Whether the act is a call, a registration or a join. -/
def isPlain : HubAct L → Bool
  | .join _ | .listen .. | .call .. => true
  | .leave _ | .evict _ | .evictNode _ | .clear _ => false

/-- What the act is for a cache that has no members. -/
def alone? : HubAct L → Option (CacheAct L)
  | .listen _ listener includesValues => some (.listen listener includesValues)
  | .call _ request => some (.call request)
  | .join _ | .leave _ | .evict _ | .evictNode _ | .clear _ => none

end HubAct

private theorem CacheEvent.node_ofWrite (key : Address) (old : Option Registry) (new : Registry)
    (node : NodeId) : (ofWrite key old new node).node = node := by
  cases old <;> rfl

/-- The event of a call is in the name of the caller. -/
theorem CacheCall.node_event? {node : NodeId} {registries : AddressMap Registry}
    {request : CacheCall} {event : CacheEvent}
    (hevent : event ∈ request.event? node registries) : event.node = node := by
  cases request with
  | put key value => rw [← Option.some.inj hevent, CacheEvent.node_ofWrite]
  | remove key =>
    obtain ⟨old, -, rfl⟩ := Option.map_eq_some_iff.mp hevent
    rfl
  | get _ | entries => cases hevent

namespace AddressMap

variable {α β : Type} (m : AddressMap α) (key : Address) (value : α) (f : α → β)

private theorem map_empty : (∅ : AddressMap α).map (fun _ => f) = ∅ := by
  apply Std.ExtTreeMap.ext_getElem?
  intro key
  simp

private theorem map_insert :
    (m.insert key value).map (fun _ => f) = (m.map fun _ => f).insert key (f value) := by
  apply Std.ExtTreeMap.ext_getElem?
  intro other
  by_cases heq : key = other <;> simp [Std.ExtTreeMap.getElem?_insert, heq]

private theorem map_erase : (m.erase key).map (fun _ => f) = (m.map fun _ => f).erase key := by
  apply Std.ExtTreeMap.ext_getElem?
  intro other
  by_cases heq : key = other <;> simp [Std.ExtTreeMap.getElem?_erase, heq]

end AddressMap

@[simp] theorem Contents.registries_empty : Contents.registries ∅ = ∅ :=
  AddressMap.map_empty _

theorem Contents.getElem?_registries (contents : Contents) (key : Address) :
    contents.registries[key]? = contents[key]?.map Kept.registry :=
  Std.ExtTreeMap.getElem?_map

theorem Contents.registries_effect (contents : Contents) (node : NodeId) (request : CacheCall) :
    (request.effect node contents).registries = request.write contents.registries := by
  cases request with
  | get key => rfl
  | put key value => exact AddressMap.map_insert contents key ⟨value, node⟩ Kept.registry
  | remove key => exact AddressMap.map_erase contents key Kept.registry
  | entries => rfl

theorem Contents.getElem?_without (contents : Contents) (node : NodeId) (key : Address) :
    (contents.without node)[key]? = contents[key]?.filter (·.owner ≠ node) := by
  simp [Contents.without, Std.ExtTreeMap.getElem?_filter]

private theorem Contents.holdings_without (contents : Contents) (node : NodeId) :
    (contents.without node).holdings = Hub.withoutOwner contents.holdings node := by
  apply Std.ExtTreeMap.ext_getElem?
  intro key
  simp only [Contents.holdings, Hub.getElem?_withoutOwner, Std.ExtTreeMap.getElem?_map,
    Contents.getElem?_without]
  cases contents[key]? with
  | none => rfl
  | some kept =>
    by_cases howner : kept.owner = node <;> simp [Option.filter, howner]

/-! ## The hub -/

namespace Hub

variable {L σ : Type} {hub : Hub L} {contents : Contents}

def Holds (hub : Hub L) (contents : Contents) : Prop :=
  hub.data = contents.holdings

def holding (hub : Hub L) (contents : Contents) : Hub L :=
  { hub with data := contents.holdings }

/-- The hub after an act of which nobody has been told yet. -/
def staged (hub : Hub L) (contents : Contents) : HubAct L → Hub L
  | .join node => (hub.join node).1
  | .leave node => hub.leave node
  | .listen view listener includesValues => hub.addListener view listener includesValues
  | act => hub.holding (act.effect contents)

def announce (react : Reaction L σ) (hub : Hub L) (event? : Option CacheEvent) (world : σ) :
    Hub L × σ × List (Hearing L) :=
  match event? with
  | none => (hub, world, [])
  | some event => hub.broadcast react event.node event world

theorem Holds.getElem? (h : hub.Holds contents) (key : Address) :
    hub.data[key]? = contents[key]?.map fun kept => .of kept.owner kept.registry := by
  rw [h, Contents.holdings, Std.ExtTreeMap.getElem?_map]

theorem Holds.getElem?_eq_none (h : hub.Holds contents) {key : Address}
    (hnone : hub.data[key]? = none) : contents[key]? = none := by
  rw [h.getElem?] at hnone
  exact Option.map_eq_none_iff.mp hnone

/-- What a hub holds is read back. -/
theorem Holds.get (h : hub.Holds contents) (key : Address) :
    hub.get key = .ok contents.registries[key]? := by
  rw [Hub.get, h.getElem?, Contents.getElem?_registries]
  cases contents[key]? with
  | none => rfl
  | some kept => simp [Except.map]

private theorem readAll_map (kept : List (Address × Kept)) :
    readAll (kept.map fun p => (p.1, .of p.2.owner p.2.registry)) =
      .ok (kept.map fun p => (p.1, p.2.registry)) := by
  induction kept with
  | nil => rfl
  | cons p rest ih => simp [readAll, ih]

theorem Holds.entries (h : hub.Holds contents) :
    hub.entries = .ok contents.registries.toList := by
  show readAll hub.data.toList = _
  rw [h, Contents.holdings, Contents.registries, Std.ExtTreeMap.toList_map,
    Std.ExtTreeMap.toList_map, readAll_map]

theorem holds_empty (h : hub.data = ∅) : hub.Holds ∅ := by
  rw [Holds, h, Contents.holdings, AddressMap.map_empty]

private theorem Holds.holding_eq (h : hub.Holds contents) : hub.holding contents = hub := by
  rw [holding, ← h]

private theorem Holds.insert (h : hub.Holds contents) (key : Address) (value : Registry)
    (node : NodeId) : { hub with data := hub.data.insert key ⟨Wire.encode value, node⟩ } =
      hub.holding (contents.insert key ⟨value, node⟩) := by
  rw [holding, Contents.holdings, AddressMap.map_insert, ← Contents.holdings, ← h]
  rfl

private theorem Holds.erase (h : hub.Holds contents) (key : Address) :
    { hub with data := hub.data.erase key } = hub.holding (contents.erase key) := by
  rw [holding, Contents.holdings, AddressMap.map_erase, ← Contents.holdings, ← h]

private theorem Holds.without (h : hub.Holds contents) (node : NodeId) :
    { hub with data := withoutOwner hub.data node } = hub.holding (contents.without node) := by
  rw [holding, Contents.holdings_without, ← h]

variable (react : Reaction L σ) (act : HubAct L) (world : σ)

/-- What becomes of taking an entry out in the name of the origin. -/
theorem Holds.takeOut_eq (h : hub.Holds contents) (key : Address) (origin : Holding → NodeId)
    (event : Registry → NodeId → CacheEvent) (hnode : ∀ old node, (event old node).node = node) :
    hub.takeOut react key origin event world =
      let told := (hub.holding (contents.erase key)).announce react
        (contents[key]?.map fun kept =>
          event kept.registry (origin (.of kept.owner kept.registry))) world
      ⟨.ok contents.registries[key]?, told.1, told.2.1, told.2.2⟩ := by
  unfold takeOut
  rw [h.getElem?, Contents.getElem?_registries]
  cases hkept : contents[key]? with
  | none =>
    rw [AddressMap.erase_eq_self hkept, h.holding_eq]
    rfl
  | some kept =>
    simp only [Option.map_some, Holding.registry_of, announce, hnode, h.erase]

/-- What becomes of an act on a hub. -/
theorem Holds.perform_eq (h : hub.Holds contents) : hub.perform react act world =
    let told := (hub.staged contents act).announce react (act.event? contents) world
    ⟨(act.reply? contents).map .ok, told.1, told.2.1, told.2.2⟩ := by
  cases act with
  | join node => rfl
  | leave node => rfl
  | listen view listener includesValues => rfl
  | call view request =>
    cases request with
    | get key =>
      simp only [Hub.perform, h.get, staged, HubAct.effect, CacheCall.effect, h.holding_eq]
      rfl
    | put key value =>
      have hnode := CacheEvent.node_ofWrite key contents.registries[key]? value view.node
      simp only [Hub.perform, put, h.get, h.insert, HubAct.event?, CacheCall.event?, announce,
        hnode]
      rfl
    | remove key =>
      have htaken := h.takeOut_eq react world key (fun _ => view.node)
        (fun old node => .removed key (some old) node) fun _ _ => rfl
      have hevent : (HubAct.call (L := L) view (.remove key)).event? contents =
          contents[key]?.map fun kept => .removed key (some kept.registry) view.node := by
        rw [HubAct.event?, CacheCall.event?, Contents.getElem?_registries, Option.map_map]
        rfl
      simp only [Hub.perform, remove, htaken, hevent]
      rfl
    | entries =>
      simp only [Hub.perform, h.entries, staged, HubAct.effect, CacheCall.effect, h.holding_eq]
      rfl
  | evict key =>
    have htaken := h.takeOut_eq react world key Holding.owner
      (fun old owner => .evicted key (some old) owner) fun _ _ => rfl
    simp only [Hub.perform, evict, htaken]
    rfl
  | evictNode node =>
    simp only [Hub.perform, evictNode, h.without]
    rfl
  | clear node =>
    have hempty : { hub with data := ∅ } = hub.holding ∅ := by
      rw [holding, Contents.holdings, AddressMap.map_empty]
    simp only [Hub.perform, clear, hempty]
    rfl

private theorem data_announce (event? : Option CacheEvent) (hub : Hub L) :
    (hub.announce react event? world).1.data = hub.data := by
  cases event? with
  | none => rfl
  | some event => exact data_broadcast react hub event.node event world

/-- An act that nobody has been told of yet has its effect all the same. -/
theorem Holds.staged (h : hub.Holds contents) : (hub.staged contents act).Holds
    (act.effect contents) := by
  cases act with
  | join node => exact h
  | leave node => exact congrArg Hub.data (h.without node)
  | listen view listener includesValues =>
    exact (data_addListener hub view listener includesValues).trans h
  | call _ _ | evict _ | evictNode _ | clear _ => rfl

/-- Whatever happens to a hub has its effect on the contents. -/
theorem Holds.perform (h : hub.Holds contents) :
    (hub.perform react act world).cache.Holds (act.effect contents) := by
  rw [h.perform_eq react act world]
  exact (data_announce react world _ _).trans (h.staged act)

/-- Whatever happens to a hub is answered from its contents, and never with a failure. -/
theorem Holds.answer (h : hub.Holds contents) :
    (hub.perform react act world).answer = (act.reply? contents).map .ok := by
  rw [h.perform_eq react act world]

/-- After several acts the hub holds what their effects have made of the contents. -/
theorem Holds.run (h : hub.Holds contents) (acts : List (HubAct L)) :
    (hub.run react acts world).cache.Holds (acts.foldl HubAct.effect contents) := by
  induction acts generalizing hub contents world with
  | nil => exact h
  | cons act acts ih => exact ih _ (h.perform react act world)

end Hub

/-! ## The local cache -/

namespace LocalCache

variable {L σ : Type} (react : Reaction L σ) (cache : LocalCache L) (request : CacheCall)
  (world : σ)

def announce (event? : Option CacheEvent) (world : σ) : LocalCache L × σ × List (Hearing L) :=
  match event? with
  | none => (cache, world, [])
  | some event => cache.tell react event world

/-- What becomes of a call on a local cache. -/
theorem perform_call_eq : cache.perform react (.call request) world =
    let told := announce react { cache with data := request.write cache.data }
      (request.event? cache.node cache.data) world
    ⟨some (request.reply cache.data), told.1, told.2.1, told.2.2⟩ := by
  cases request with
  | get key => rfl
  | put key value => rfl
  | remove key =>
    simp only [LocalCache.perform, remove, get?, CacheCall.event?, CacheCall.reply, CacheCall.write]
    cases hold : cache.data[key]? with
    | none =>
      rw [AddressMap.erase_eq_self hold]
      rfl
    | some old => rfl
  | entries => rfl

private theorem data_announce (event? : Option CacheEvent) (world : σ) :
    (cache.announce react event? world).1.data = cache.data := by
  cases event? <;> rfl

@[simp] theorem data_perform_call :
    (cache.perform react (.call request) world).cache.data = request.write cache.data := by
  rw [perform_call_eq]
  exact data_announce react _ _ world

@[simp] theorem answer_perform_call :
    (cache.perform react (.call request) world).answer = some (request.reply cache.data) := by
  rw [perform_call_eq]

end LocalCache

/-! ## Hub and local cache -/

section Alone

variable {L σ τ : Type} {hub : Hub L} {cache : LocalCache L} {contents : Contents}
  (react : Reaction L σ) (reactAlone : Reaction L τ)

/-- A hub and a local cache with the same registries give the same answers. -/
theorem Hub.Holds.run_alone (h : hub.Holds contents) {acts : List (HubAct L)}
    (hplain : ∀ act ∈ acts, act.isPlain) (hdata : cache.data = contents.registries) (world : σ)
    (worldAlone : τ) : (hub.run react acts world).answer =
      (cache.run reactAlone (acts.filterMap HubAct.alone?) worldAlone).answer.map .ok := by
  induction acts generalizing hub cache contents world worldAlone with
  | nil => rfl
  | cons act acts ih =>
    have hrest : ∀ later ∈ acts, later.isPlain := fun later hmem => hplain later (by simp [hmem])
    have hafter := h.perform react act world
    cases act with
    | join node => exact ih hafter hrest hdata _ _
    | listen view listener includesValues =>
      have hlistening : (cache.addListener listener includesValues).data = contents.registries :=
        hdata
      exact ih hafter hrest hlistening _ _
    | call view request =>
      have hsame : (cache.perform reactAlone (.call request) worldAlone).cache.data =
          (request.effect view.node contents).registries := by
        rw [LocalCache.data_perform_call, hdata, Contents.registries_effect]
      have hreply := h.answer react (.call view request) world
      have halone := LocalCache.answer_perform_call reactAlone cache request worldAlone
      simp only [Change.run, List.filterMap_cons, HubAct.alone?]
      rw [hreply, halone, hdata, ih hafter hrest hsame, List.map_append]
      rfl
    | leave _ | evict _ | evictNode _ | clear _ =>
      exact absurd (hplain _ List.mem_cons_self) Bool.false_ne_true

/-- Callers cannot tell a hub from a local cache: whatever its members call, through any views, and
whoever joins or listens in between, every call is answered as by one local cache. -/
theorem Hub.answers_alone (hubName cacheName : String) (node : NodeId) (acts : List (HubAct L))
    (hplain : ∀ act ∈ acts, act.isPlain) (world : σ) (worldAlone : τ) :
    (Hub.run react acts { name := hubName } world).answer =
      (LocalCache.run reactAlone (acts.filterMap HubAct.alone?)
        { name := cacheName, node } worldAlone).answer.map .ok :=
  (Hub.holds_empty rfl).run_alone react reactAlone hplain Contents.registries_empty.symm world
    worldAlone

end Alone

namespace HubSample

def juliet : Address := .ofParts (some "juliet") "example.org" (some "balcony")

def presence (receiver : String) : Registry :=
  ⟨[⟨.ofDomain "chat.example.org", ⟨"one"⟩, {.ofParts (some receiver) "example.org" none}⟩]⟩

def view (node : String) (ticket : Nat) : View :=
  ⟨⟨node⟩, ticket⟩

/-- A sender that is first written by one node moves to another, and leaves. -/
def visit : List (HubAct Unit) :=
  [.join ⟨"one"⟩, .call (view "one" 0) (.put juliet (presence "romeo")), .join ⟨"two"⟩,
    .listen (view "two" 1) () true, .call (view "two" 1) (.put juliet (presence "nurse")),
    .call (view "one" 0) .entries, .call (view "two" 1) (.remove juliet),
    .call (view "one" 0) (.get juliet)]

def heedless : Reaction Unit Unit := fun _ _ world => (world, none)

theorem visit_answers :
    (∀ act ∈ visit, act.isPlain) ∧
      (Hub.run heedless visit { name := "hub" } ()).answer =
        [.ok (.registry none), .ok (.registry (some (presence "romeo"))),
          .ok (.listing [(juliet, presence "nurse")]), .ok (.registry (some (presence "nurse"))),
          .ok (.registry none)] := by
  have hplain : ∀ act ∈ visit, act.isPlain := by decide
  have halone : (LocalCache.run heedless (visit.filterMap HubAct.alone?)
      { name := "cache", node := ⟨"one"⟩ } ()).answer =
        [.registry none, .registry (some (presence "romeo")),
          .listing [(juliet, presence "nurse")], .registry (some (presence "nurse")),
          .registry none] := by
    decide +kernel
  refine ⟨hplain, ?_⟩
  rw [Hub.answers_alone heedless heedless "hub" "cache" ⟨"one"⟩ visit hplain () (), halone]
  rfl

end HubSample

end DirectedPresence
