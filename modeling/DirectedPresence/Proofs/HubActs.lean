import DirectedPresence.Proofs.ChangingOwners
import DirectedPresence.Proofs.Dealings
import DirectedPresence.Proofs.Seclusion

/-!
What the nodes do to the hub. An operation of a node comes to acts on the hub, and whatever becomes
of the hub and whatever the feeds hear becomes of these acts (`Outcome.Comes`). A node that deals
with its store and its cache calls the hub through its view, if it has one, and nothing else
(`Seat.Unheard.comes_perform`); a node that joins enters, refills its part of the hub, and registers
its feed (`Seat.comes_refilled`, `Seat.hub_join`).
-/

namespace DirectedPresence

theorem Change.run_append {κ : Type → Type} {L σ α A : Type}
    (perform : κ L → A → σ → Change κ L σ (Option α)) (acts more : List A) (cache : κ L)
    (world : σ) :
    Change.run perform (acts ++ more) cache world =
      let first := Change.run perform acts cache world
      let rest := Change.run perform more first.cache first.world
      ⟨first.answer ++ rest.answer, rest.cache, rest.world, first.hearings ++ rest.hearings⟩ := by
  induction acts generalizing cache world with
  | nil => rfl
  | cons act acts ih => simp [Change.run, ih]

namespace Hub

variable {L σ : Type} {hub : Hub L} {node : NodeId} {react : Reaction L σ}

/-- Nobody joins or leaves but by an act of its own. -/
theorem mem_members_perform {act : HubAct L} (hmover : act.mover? ≠ some node) {world : σ} :
    node ∈ (hub.perform react act world).cache.members ↔ node ∈ hub.members := by
  cases act with
  | join other =>
    have hne : other ≠ node := fun heq => hmover (congrArg some heq)
    simp [perform, join, Std.ExtTreeMap.mem_insert, hne]
  | leave other =>
    have hne : other ≠ node := fun heq => hmover (congrArg some heq)
    simp [perform, leave, Std.ExtTreeMap.mem_erase, hne]
  | listen view listener includesValues => exact mem_members_addListener
  | call view request =>
    cases request with
    | get | entries => exact Iff.rfl
    | put key value => exact mem_members_put react
    | remove key => exact mem_members_takeOut react
  | evict key => exact mem_members_takeOut react
  | evictNode owner => exact mem_members_evictNode react
  | clear owner => exact mem_members_broadcast react

theorem mem_members_run {acts : List (HubAct L)} (hmovers : ∀ act ∈ acts, act.mover? ≠ some node)
    {world : σ} : node ∈ (hub.run react acts world).cache.members ↔ node ∈ hub.members := by
  induction acts generalizing hub world with
  | nil => exact Iff.rfl
  | cons act acts ih =>
    exact (ih fun later hmem => hmovers later (List.mem_cons_of_mem act hmem)).trans
      (mem_members_perform (hmovers act List.mem_cons_self))

end Hub

/-- The index of a node follows what is heard at the node. -/
theorem Hub.Holds.index_run (env : Environment) (node : NodeId) {hub : Hub Feed}
    {contents : Contents} (h : hub.Holds contents) (acts : List (HubAct Feed))
    (indexes : NodeMap ReverseIndex) :
    (hub.run (Feed.react env) acts indexes).world[node]?.getD {} =
      Feed.follow env node (indexes[node]?.getD {})
        (heard (Feed.isOf node) (hub.run (Feed.react env) acts indexes).hearings) := by
  induction acts generalizing hub contents indexes with
  | nil => rfl
  | cons act acts ih =>
    simp only [Change.run, heard_append, Feed.follow_append]
    rw [ih (h.perform (Feed.react env) act indexes), h.index_perform env node act indexes]

/-! ## Outcomes -/

/-- For the hub, the feeds and the indexes the outcome is what comes of these acts on the hub. -/
structure Outcome.Comes {α : Type} (env : Environment) (seat : Seat) (acts : List (HubAct Feed))
    (outcome : Outcome α) : Prop where
  hub : outcome.seat.fabric.hub =
    (seat.fabric.hub.run (Feed.react env) acts seat.fabric.indexes).cache
  indexes : outcome.seat.fabric.indexes =
    (seat.fabric.hub.run (Feed.react env) acts seat.fabric.indexes).world
  hearings : outcome.hearings =
    (seat.fabric.hub.run (Feed.react env) acts seat.fabric.indexes).hearings

namespace Outcome

variable {α β : Type} {env : Environment} {seat seat' : Seat} {acts more : List (HubAct Feed)}
  {outcome : Outcome α}

theorem comes_nil {answer : α} {trace : Trace} (hfabric : seat'.fabric = seat.fabric) :
    Comes env seat [] ({ answer, seat := seat', trace } : Outcome α) :=
  ⟨congrArg Fabric.hub hfabric, congrArg Fabric.indexes hfabric, rfl⟩

theorem Comes.andThen {next : α → Seat → Outcome β} (h : outcome.Comes env seat acts)
    (hnext : (next outcome.answer outcome.seat).Comes env outcome.seat more) :
    (outcome.andThen next).Comes env seat (acts ++ more) := by
  obtain ⟨hhub, hindexes, hhearings⟩ := hnext
  rw [h.hub, h.indexes] at hhub hindexes hhearings
  constructor
  · rw [Hub.run, Change.run_append]
    exact hhub
  · rw [Hub.run, Change.run_append]
    exact hindexes
  · rw [Hub.run, Change.run_append, hearings_andThen, h.hearings, hhearings]

theorem Comes.map (h : outcome.Comes env seat acts) (f : α → β) :
    (outcome.map f).Comes env seat acts :=
  ⟨h.hub, h.indexes, h.hearings⟩

/-- Replacing the store does nothing to the fabric. -/
theorem Comes.of_setStore {store : Store} (h : outcome.Comes env (seat.setStore store) acts) :
    outcome.Comes env seat acts :=
  ⟨h.hub, h.indexes, h.hearings⟩

/-- As `Outcome.Comes`, but the node may have changed its own index besides. -/
structure Enacts (env : Environment) (seat : Seat) (acts : List (HubAct Feed))
    (outcome : Outcome α) : Prop where
  hub : outcome.seat.fabric.hub =
    (seat.fabric.hub.run (Feed.react env) acts seat.fabric.indexes).cache
  index : ∀ node, node ≠ seat.node.id → outcome.seat.fabric.index node =
    (seat.fabric.hub.run (Feed.react env) acts seat.fabric.indexes).world[node]?.getD {}
  hearings : outcome.hearings =
    (seat.fabric.hub.run (Feed.react env) acts seat.fabric.indexes).hearings

private theorem Comes.enacts (h : outcome.Comes env seat acts) : outcome.Enacts env seat acts :=
  ⟨h.hub, fun _ _ => by rw [Fabric.index, h.indexes], h.hearings⟩

/-- Where nothing is done to the hub, the fabric stays as it is and nobody hears anything. -/
theorem Comes.idle (h : outcome.Comes env seat []) :
    outcome.seat.fabric = seat.fabric ∧ outcome.hearings = [] := by
  refine ⟨?_, h.hearings⟩
  calc outcome.seat.fabric = ⟨outcome.seat.fabric.hub, outcome.seat.fabric.indexes⟩ := rfl
    _ = seat.fabric := by rw [h.hub, h.indexes]; rfl

end Outcome

/-- What is so of entering, of every call through a view and of registering a listener is so of
everything that a node does to the hub when it joins. -/
theorem HubAct.forall_joining {L : Type} {P : HubAct L → Prop} {node : NodeId} {view : View}
    {calls : List (HubAct L)} {listener : L} {includesValues : Bool}
    (hcalls : ∀ act ∈ calls, ∃ request, act = .call view request) (hjoin : P (.join node))
    (hcall : ∀ request, P (.call view request))
    (hlisten : P (.listen view listener includesValues)) :
    ∀ act ∈ .join node :: calls ++ [.listen view listener includesValues], P act := by
  intro act hact
  simp only [List.cons_append, List.mem_cons, List.mem_append, List.not_mem_nil, or_false]
    at hact
  rcases hact with rfl | hact | rfl
  · exact hjoin
  · obtain ⟨request, rfl⟩ := hcalls act hact
    exact hcall request
  · exact hlisten

/-- The act on the hub that an operation about the hub itself is. -/
def Operation.hubAct? : Operation → Option (HubAct Feed)
  | .hubLeave peer => some (.leave peer)
  | .hubEvict key => some (.evict key)
  | .hubEvictNode peer => some (.evictNode peer)
  | .hubClear peer => some (.clear peer)
  | _ => none

namespace Seat

variable {α : Type} {env : Environment} {server : Server} {who : Address → Prop}
  {tells : Effect → Prop} {known : Seat → Prop} {act : Seat → Outcome α} {seat seat' : Seat}

/-! ## Dealings -/

/-- The act writes or removes one of the senders through the view that the node has. -/
def Writes (seat : Seat) (who : Address → Prop) (act : HubAct Feed) : Prop :=
  ∃ view request key, seat.node.cache.backing = .clustered view ∧ act = .call view request ∧
    request.target? = some key ∧ who key

private theorem SameNode.writes (h : SameNode seat seat') {act : HubAct Feed}
    (hwrites : seat'.Writes who act) : seat.Writes who act := by
  obtain ⟨view, request, key, hbacking, hact⟩ := hwrites
  exact ⟨view, request, key, (h.view view).mp hbacking, hact⟩

/-- A node without a view writes nothing to the hub. -/
theorem not_writes_of_alone (halone : seat.node.cache.isClustered = false) (act : HubAct Feed) :
    ¬ seat.Writes who act := by
  rintro ⟨view, request, key, hbacking, -⟩
  simp [NodeCache.isClustered, hbacking] at halone

/-- What comes of an outcome of a node that deals with its store and its cache: it has written
senders through its view, if it has one, and otherwise kept to itself. -/
def Wrote (env : Environment) (who : Address → Prop) (seat : Seat) (outcome : Outcome α) : Prop :=
  ∃ acts, (∀ act ∈ acts, seat.Writes who act) ∧ outcome.Comes env seat acts ∧
    SameNode seat outcome.seat ∧ outcome.seat.Unheard

/-- Replacing the store is no act on the hub. -/
theorem Wrote.of_setStore {store : Store} {outcome : Outcome α}
    (h : (seat.setStore store).Wrote env who outcome) : seat.Wrote env who outcome := by
  obtain ⟨acts, hacts, hcomes, hsame, hunheard⟩ := h
  have hstore : SameNode seat (seat.setStore store) :=
    Touch.sameNode (.setStore seat store : Touch env _ _)
  exact ⟨acts, fun act hact => hstore.writes (hacts act hact), hcomes.of_setStore,
    hstore.trans hsame, hunheard⟩

theorem Wrote.andThen {β : Type} {outcome : Outcome α} {next : α → Seat → Outcome β}
    (h : seat.Wrote env who outcome)
    (hnext : outcome.seat.Wrote env who (next outcome.answer outcome.seat)) :
    seat.Wrote env who (outcome.andThen next) := by
  obtain ⟨acts, hacts, hcomes, hsame, -⟩ := h
  obtain ⟨more, hmore, hrest, hlast, hunheard⟩ := hnext
  refine ⟨acts ++ more, ?_, hcomes.andThen hrest, hsame.trans hlast, hunheard⟩
  intro act hact
  rcases List.mem_append.mp hact with hact | hact
  · exact hacts act hact
  · exact hsame.writes (hmore act hact)

/-- What a call on the cache is for the hub: a call through the view of the node, and nothing if the
node has a cache of its own. -/
def calls (seat : Seat) (request : CacheCall) : List (HubAct Feed) :=
  match seat.node.cache.backing with
  | .standalone _ => []
  | .clustered view => [.call view request]

theorem mem_calls {request : CacheCall} {act : HubAct Feed} : act ∈ seat.calls request ↔
    ∃ view, seat.node.cache.backing = .clustered view ∧ act = .call view request := by
  unfold calls
  cases seat.node.cache.backing with
  | standalone cache => simp
  | clustered view => simp

theorem SameNode.calls (h : SameNode seat seat') : seat'.calls = seat.calls := by
  funext request
  have hview := h.view
  unfold Seat.calls
  cases hbacking : seat.node.cache.backing with
  | clustered view => rw [(hview view).mpr hbacking]
  | standalone cache =>
    cases hbacking' : seat'.node.cache.backing with
    | standalone cache' => rfl
    | clustered view =>
      rw [hbacking, hbacking'] at hview
      cases (hview view).mp rfl

private theorem writes_of_mem_calls {request : CacheCall} {key : Address}
    (htarget : request.target? = some key) (hkey : who key) :
    ∀ act ∈ seat.calls request, seat.Writes who act := by
  intro act hact
  obtain ⟨view, hbacking, rfl⟩ := mem_calls.mp hact
  exact ⟨view, request, key, hbacking, rfl, htarget, hkey⟩

/-- Writing the cache is one act on the hub if the cache is a view of it, and none otherwise. -/
theorem Unheard.comes_put (h : seat.Unheard) (hfault : seat.node.cache.faults.put = false)
    (key : Address) (value : Registry) :
    (seat.put env key value).Comes env seat (seat.calls (.put key value)) := by
  unfold Seat.put calls
  rw [if_neg (by rw [hfault]; exact Bool.false_ne_true)]
  cases hbacking : seat.node.cache.backing with
  | standalone cache =>
    simp only [cache.put_unheard (Feed.react env) (h cache hbacking)]
    exact Outcome.comes_nil rfl
  | clustered view => exact ⟨rfl, rfl, (List.append_nil _).symm⟩

theorem Unheard.comes_remove (h : seat.Unheard) (hfault : seat.node.cache.faults.remove = false)
    (key : Address) : (seat.remove env key).Comes env seat (seat.calls (.remove key)) := by
  unfold Seat.remove calls
  rw [if_neg (by rw [hfault]; exact Bool.false_ne_true)]
  cases hbacking : seat.node.cache.backing with
  | standalone cache =>
    simp only [cache.remove_unheard (Feed.react env) (h cache hbacking)]
    exact Outcome.comes_nil rfl
  | clustered view => exact ⟨rfl, rfl, (List.append_nil _).symm⟩

private theorem Unheard.wrote_put (h : seat.Unheard) {key : Address} (hkey : who key)
    (value : Registry) : seat.Wrote env who (seat.put env key value) := by
  have hunheard : (seat.put env key value).seat.Unheard := (h.put key value).1
  have hsame := sameNode_put seat env key value
  cases hfault : seat.node.cache.faults.put with
  | true =>
    refine ⟨[], by simp, ?_, hsame, hunheard⟩
    unfold Seat.put
    rw [if_pos hfault]
    exact Outcome.comes_nil rfl
  | false =>
    exact ⟨_, writes_of_mem_calls rfl hkey, h.comes_put hfault key value, hsame, hunheard⟩

private theorem Unheard.wrote_remove (h : seat.Unheard) {key : Address} (hkey : who key) :
    seat.Wrote env who (seat.remove env key) := by
  have hunheard : (seat.remove env key).seat.Unheard := (h.remove key).1
  have hsame := sameNode_remove seat env key
  cases hfault : seat.node.cache.faults.remove with
  | true =>
    refine ⟨[], by simp, ?_, hsame, hunheard⟩
    unfold Seat.remove
    rw [if_pos hfault]
    exact Outcome.comes_nil rfl
  | false => exact ⟨_, writes_of_mem_calls rfl hkey, h.comes_remove hfault key, hsame, hunheard⟩

/-- Whoever deals with senders does nothing to the hub but write these senders through the view of
the node. -/
theorem Deals.wrote (h : Deals env server who tells known act) (hserver : seat.node.server = server)
    (hknown : known seat) (hunheard : seat.Unheard) : seat.Wrote env who (act seat) := by
  induction h generalizing seat with
  | done answer => exact ⟨[], by simp, Outcome.comes_nil rfl, .refl seat, hunheard⟩
  | note trace _ _ ih =>
    obtain ⟨acts, hacts, ⟨hhub, hindexes, hhearings⟩, hsame⟩ := ih hserver hknown hunheard
    exact ⟨acts, hacts, ⟨hhub, hindexes, hhearings⟩, hsame⟩
  | congr hsame _ ih =>
    rw [hsame seat hserver hknown]
    exact ih hserver hknown hunheard
  | get key hkey _ ih => exact ih (seat.get key) hserver ⟨hknown, rfl⟩ hunheard
  | stored key hkey _ ih => exact ih (seat.node.store.get? key) hserver ⟨hknown, rfl⟩ hunheard
  | listed select hselect _ ih =>
    exact ih _ (fun p hp => (List.mem_filter.mp hp).2) hserver ⟨hknown, rfl⟩ hunheard
  | keep key registry hkey _ ih | forget key hkey _ ih =>
    exact Wrote.of_setStore (ih hserver trivial hunheard)
  | put key value hkey _ ih =>
    have hserver' := (sameNode_put seat env key value).server.trans hserver
    exact (hunheard.wrote_put hkey value).andThen
      (ih (seat.put env key value).answer hserver' trivial (hunheard.put key value).1)
  | remove key hkey _ ih =>
    have hserver' := (sameNode_remove seat env key).server.trans hserver
    exact (hunheard.wrote_remove hkey).andThen
      (ih (seat.remove env key).answer hserver' trivial (hunheard.remove key).1)

/-- A dispatcher call, a sweep or a direct write of the store or the cache does nothing to the hub
but write through the view of the node. -/
theorem Unheard.wrote_perform (h : seat.Unheard) (env : Environment) {operation : Operation}
    (hdealing : operation.isDealing = true) :
    seat.Wrote env operation.Accesses (seat.perform env operation) := by
  have hdeals := deals_perform env seat.node.server hdealing
  exact hdeals.wrote rfl trivial h

private theorem Unheard.wrote_restore (h : seat.Unheard) (env : Environment)
    (registries : List (Address × Registry)) :
    seat.Wrote env (fun _ => True) (restore env registries seat) := by
  have hdeals : Deals env seat.node.server (fun _ => True) (fun _ => False) (fun _ => True)
      (restore env registries) := deals_restore fun _ _ => trivial
  exact hdeals.wrote rfl trivial h

/-! ## Changes of membership -/

/-- A node that joins enters the hub and writes to it through its new view. -/
theorem wrote_refilled (env : Environment) (seat : Seat) : ∃ calls,
    (∀ act ∈ calls, ∃ request, act = .call (seat.fabric.hub.join seat.node.id).2 request) ∧
      (restore env seat.node.store.toList (seat.entered env)).Comes env seat
        (.join seat.node.id :: calls) ∧
      SameNode (seat.entered env) (seat.refilled env) := by
  have hviewed : (seat.entered env).Unheard := by
    rintro cache ⟨⟩
  obtain ⟨calls, hcalls, ⟨hhub, hindexes, hhearings⟩, hsame, -⟩ :=
    hviewed.wrote_restore env seat.node.store.toList
  refine ⟨calls, ?_, ⟨hhub, hindexes, hhearings⟩, hsame⟩
  intro act hact
  obtain ⟨view, request, -, hbacking, rfl, -⟩ := hcalls act hact
  cases hbacking
  exact ⟨request, rfl⟩

/-- A node that joins enters the hub, writes to it through its new view, and registers its feed. -/
theorem enacts_join (env : Environment) (seat : Seat) : ∃ calls,
    (∀ act ∈ calls, ∃ request, act = .call (seat.fabric.hub.join seat.node.id).2 request) ∧
      (seat.join env).Enacts env seat (.join seat.node.id :: calls ++
        [.listen (seat.fabric.hub.join seat.node.id).2
          ⟨seat.node.settings.listenerName, seat.node.id⟩ seat.node.settings.includeValues]) := by
  obtain ⟨calls, hcalls, hcomes, hsame⟩ := wrote_refilled env seat
  obtain ⟨indexes, hseed, hothers⟩ := seedIndex_elsewhere env (seat.refilled env)
  have hid : (seat.refilled env).node.id = seat.node.id := hsame.id
  have hsettings : (seat.refilled env).node.settings = seat.node.settings := hsame.settings
  refine ⟨calls, hcalls, ?_, ?_, ?_⟩
  · rw [seat_join, hseed, Hub.run, Change.run_append]
    simp only [listen, setPhase, hid, hsettings]
    exact congrArg (Hub.addListener · _ _ _) hcomes.hub
  · intro node hne
    rw [Hub.run, Change.run_append]
    have hkept : indexes[node]? = (seat.refilled env).fabric.indexes[node]? :=
      hothers node (hid ▸ hne)
    rw [seat_join, hseed]
    refine (congrArg (·.getD {}) hkept).trans ?_
    exact congrArg (fun indexes : NodeMap ReverseIndex => indexes[node]?.getD {}) hcomes.indexes
  · have hquiet : ((seat.refilled env).seedIndex env).hearings = [] := by
      unfold seedIndex
      split <;> rfl
    rw [Hub.run, Change.run_append]
    show _ ++ (((seat.refilled env).seedIndex env).hearings ++ []) = _ ++ ([] ++ [])
    rw [hquiet]
    exact congrArg (· ++ ([] ++ [])) hcomes.hearings

/-- A node that leaves does nothing to the hub but that. -/
theorem enacts_leave (env : Environment) (seat : Seat) :
    (seat.leave env).Enacts env seat [.leave seat.node.id] := by
  cases hshutting : seat.node.server.shuttingDown with
  | true =>
    simp only [leave, hshutting, if_true]
    exact ⟨rfl, fun _ _ => rfl, rfl⟩
  | false =>
    have halone : seat.detached.Unheard := by
      rintro cache ⟨rfl⟩
      rfl
    obtain ⟨acts, hacts, hcomes, hsame, -⟩ := halone.wrote_restore env seat.node.store.toList
    have hnone : acts = [] := List.eq_nil_iff_forall_not_mem.mpr fun act hact =>
      not_writes_of_alone rfl act (hacts act hact)
    subst hnone
    obtain ⟨hfabric, hhearings⟩ := hcomes.idle
    have hid : (seat.recovered env).node.id = seat.node.id := hsame.id
    refine ⟨?_, ?_, ?_⟩
    · rw [seat_leave env hshutting]
      exact congrArg Fabric.hub hfabric
    · intro node hne
      rw [seat_leave env hshutting]
      refine (Fabric.index_setIndex _ _ _ _).trans ?_
      rw [if_neg (hid ▸ hne.symm)]
      exact (congrArg (Fabric.index · node) hfabric : _ = seat.detached.fabric.index node)
    · simp only [leave, hshutting, Bool.false_eq_true, if_false, Outcome.hearings_andThen,
        List.append_nil]
      exact hhearings

/-! ## Every operation -/

/-- What else happens at a node comes to writes through its view and to acts on the hub itself. The
index of the node changes by what is heard, unless the node learns of a change of the membership. -/
theorem Unheard.enacts_perform (h : seat.Unheard) (env : Environment) {operation : Operation}
    (hjoins : operation ≠ .membership .localJoined) (hleaves : operation ≠ .membership .localLeft) :
    ∃ acts, (∀ act ∈ acts, seat.Writes operation.Accesses act ∨ operation.hubAct? = some act) ∧
      (seat.perform env operation).Enacts env seat acts ∧
      ((∀ event, operation ≠ .membership event) →
        (seat.perform env operation).Comes env seat acts) := by
  suffices hcomes : (∃ event, operation = .membership event) ∨ ∃ acts,
      (∀ act ∈ acts, seat.Writes operation.Accesses act ∨ operation.hubAct? = some act) ∧
        (seat.perform env operation).Comes env seat acts by
    rcases hcomes with ⟨event, rfl⟩ | ⟨acts, hacts, hcomes⟩
    · refine ⟨[], by simp, ?_, fun hother => absurd rfl (hother event)⟩
      cases event with
      | localJoined => exact absurd rfl hjoins
      | localLeft => exact absurd rfl hleaves
      | remoteJoined peer => exact ⟨rfl, fun _ _ => rfl, rfl⟩
      | remoteLeft peer =>
        exact ⟨rfl, fun node hne => (Fabric.index_setIndex _ _ _ _).trans (if_neg hne.symm), rfl⟩
    · exact ⟨acts, hacts, hcomes.enacts, fun _ => hcomes⟩
  by_cases hdealing : operation.isDealing = true
  · have hwrote : seat.Wrote env operation.Accesses (seat.perform env operation) :=
      h.wrote_perform env hdealing
    obtain ⟨acts, hacts, hcomes, -⟩ := hwrote
    exact .inr ⟨acts, fun act hact => .inl (hacts act hact), hcomes⟩
  cases operation with
  | membership event => exact .inl ⟨event, rfl⟩
  | shutdown | failCache => exact .inr ⟨[], by simp, rfl, rfl, rfl⟩
  | hubLeave peer => exact .inr ⟨[.leave peer], by simp [Operation.hubAct?], rfl, rfl, rfl⟩
  | hubEvict key =>
    exact .inr ⟨[.evict key], by simp [Operation.hubAct?], rfl, rfl, (List.append_nil _).symm⟩
  | hubEvictNode peer =>
    exact .inr ⟨[.evictNode peer], by simp [Operation.hubAct?], rfl, rfl, (List.append_nil _).symm⟩
  | hubClear peer =>
    exact .inr ⟨[.clear peer], by simp [Operation.hubAct?], rfl, rfl, (List.append_nil _).symm⟩
  | _ => exact absurd rfl hdealing

/-- The acts of another node's join and leave spare the feed of a node, and so do calls and
evictions. -/
theorem Unheard.spares_perform (h : seat.Unheard) (env : Environment) {node : NodeId}
    {operation : Operation} (hown : ∀ peer, operation ≠ .hubLeave peer)
    (hother : node = seat.node.id →
      operation ≠ .membership .localJoined ∧ operation ≠ .membership .localLeft) :
    ∃ acts, (∀ act ∈ acts, act.Spares (Feed.isOf node) node) ∧
      (seat.perform env operation).Enacts env seat acts ∧
      ((∀ event, operation ≠ .membership event) →
        (seat.perform env operation).Comes env seat acts) := by
  have hcall : ∀ view request, (HubAct.call view request).Spares (Feed.isOf node) node :=
    fun _ _ => ⟨nofun, nofun⟩
  by_cases hjoins : operation = .membership .localJoined
  · have hne : node ≠ seat.node.id := fun heq => (hother heq).1 hjoins
    subst hjoins
    obtain ⟨calls, hcalls, henacts⟩ := enacts_join env seat
    refine ⟨_, ?_, ⟨henacts.hub, henacts.index, henacts.hearings⟩, fun h => absurd rfl (h _)⟩
    refine HubAct.forall_joining hcalls ?_ (hcall _) ⟨nofun, ?_⟩
    · exact ⟨fun heq => hne (Option.some.inj heq).symm, nofun⟩
    · rintro feed ⟨⟩
      exact decide_eq_false hne.symm
  · by_cases hleaves : operation = .membership .localLeft
    · have hne : node ≠ seat.node.id := fun heq => (hother heq).2 hleaves
      subst hleaves
      have henacts := enacts_leave env seat
      refine ⟨_, ?_, ⟨henacts.hub, henacts.index, henacts.hearings⟩, fun h => absurd rfl (h _)⟩
      intro act hact
      rw [List.mem_singleton] at hact
      subst hact
      exact ⟨fun heq => hne (Option.some.inj heq).symm, nofun⟩
    · obtain ⟨acts, hacts, henacts⟩ := h.enacts_perform env hjoins hleaves
      refine ⟨acts, ?_, henacts⟩
      intro act hact
      rcases hacts act hact with ⟨view, request, -, -, rfl, -⟩ | hhub
      · exact hcall view request
      · cases operation with
        | hubLeave peer => exact absurd rfl (hown peer)
        | hubEvict | hubEvictNode | hubClear =>
          cases hhub
          exact ⟨nofun, nofun⟩
        | _ => cases hhub

/-- The phase of a node after an operation: nothing but its own joining and leaving changes it. -/
theorem phase_perform (env : Environment) (seat : Seat) (operation : Operation) :
    (seat.perform env operation).seat.node.phase =
      if operation = .membership .localJoined then .clustered
      else if operation = .membership .localLeft then .standalone
      else seat.node.phase := by
  cases operation with
  | membership event =>
    cases event with
    | localJoined => rfl
    | localLeft =>
      simp only [perform, handle, leave]
      split <;> rfl
    | remoteJoined | remoteLeft => rfl
  | shutdown | failCache | hubLeave | hubEvict | hubEvictNode | hubClear => rfl
  | _ => exact (Touches.sameNode (touches_perform rfl : Touches env _ _)).phase

/-- No operation changes the settings of a node. -/
theorem settings_perform (env : Environment) (seat : Seat) (operation : Operation) :
    (seat.perform env operation).seat.node.settings = seat.node.settings := by
  cases operation with
  | membership event =>
    cases event with
    | localJoined =>
      obtain ⟨-, -, -, hsame⟩ := wrote_refilled env seat
      obtain ⟨indexes, hseed⟩ := seat_seedIndex env (seat.refilled env)
      simp only [perform, handle, Outcome.seat_map, seat_join, hseed]
      exact hsame.settings
    | localLeft =>
      have hsame : SameNode seat.detached (seat.recovered env) :=
        Touches.sameNode (touches_restore _)
      cases hshutting : seat.node.server.shuttingDown with
      | true => simp only [perform, handle, leave, hshutting, if_true]; rfl
      | false =>
        simp only [perform, handle, Outcome.seat_map, seat_leave env hshutting]
        exact hsame.settings
    | remoteJoined | remoteLeft => rfl
  | shutdown | failCache | hubLeave | hubEvict | hubEvictNode | hubClear => rfl
  | _ => exact (Touches.sameNode (touches_perform rfl : Touches env _ _)).settings

end Seat

end DirectedPresence
