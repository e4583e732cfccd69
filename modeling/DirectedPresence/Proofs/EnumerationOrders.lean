import DirectedPresence.Proofs.SenderFrames

/-!
The order in which a hub tells its members. A hub that enumerates its members in some other order
(`Shuffle`) tells them all the same event, and where the listeners of each member feed the index of
that member alone (`Hub.Dedicated`) nothing but the order in which the event is heard depends on it:
telling two members commutes, since each telling reads and changes one table and one index
(`Hub.Dedicated.tell_swap`), and any order comes of swaps (`Hub.Dedicated.tell_perm`). So whatever
is done to a hub comes to the same in all orders (`Fabric.Calm.runIn`).
-/

namespace DirectedPresence

/-- The second change is the first one but for the order in which listeners heard of it. -/
structure Change.Rearranges {κ : Type → Type} {L σ α : Type} (c c' : Change κ L σ α) : Prop where
  answer : c'.answer = c.answer
  cache : c'.cache = c.cache
  world : c'.world = c.world
  hearings : c'.hearings.Perm c.hearings

namespace Change.Rearranges

variable {κ : Type → Type} {L σ α β : Type} {c c' : Change κ L σ α}

theorem refl (c : Change κ L σ α) : c.Rearranges c :=
  ⟨rfl, rfl, rfl, .refl _⟩

theorem map (h : c.Rearranges c') (f : α → β) : (c.map f).Rearranges (c'.map f) :=
  ⟨congrArg f h.answer, h.cache, h.world, h.hearings⟩

end Change.Rearranges

namespace Hub

variable {L σ : Type}

/-- What comes of an act of which the members are told in some order. -/
def performIn (react : Reaction L σ) (hub : Hub L) (act : Telling × HubAct L) (world : σ) :
    Change Hub L σ (Option (Except CacheError CacheReply)) :=
  Orders.within { telling := act.1 } (hub.perform react act.2 world)

/-- What comes of several acts, each of which is told to the members in an order of its own. -/
abbrev runIn (react : Reaction L σ) : List (Telling × HubAct L) → Hub L → σ →
    Change Hub L σ (List (Except CacheError CacheReply)) :=
  Change.run (performIn react)

end Hub

/-! ## Telling commutes -/

variable {env : Environment} {event : CacheEvent} {node a b : NodeId}
  {indexes indexes' : NodeMap ReverseIndex}

/-- What a feed does depends on the index of its node. -/
theorem Feed.react_local (env : Environment) (event : CacheEvent) {feed : Feed}
    (howned : feed.node = node) (h : indexes'[node]? = indexes[node]?) :
    (Feed.react env feed event indexes').2 = (Feed.react env feed event indexes).2 ∧
      (Feed.react env feed event indexes').1[node]? =
        (Feed.react env feed event indexes).1[node]? := by
  subst howned
  simp only [Feed.react, h]
  split
  · exact ⟨rfl, by simp⟩
  · exact ⟨rfl, h⟩

namespace Listeners

variable {registrations others : List (Registration Feed)} {t t' : Listeners Feed}

/-- What the listeners of a node hear and refuse depends on the index of the node. -/
theorem deliver_local (env : Environment) (event : CacheEvent)
    (howned : ∀ r ∈ registrations, r.listener.node = node)
    (h : indexes'[node]? = indexes[node]?) :
    (deliver (Feed.react env) event registrations indexes').2 =
        (deliver (Feed.react env) event registrations indexes).2 ∧
      (deliver (Feed.react env) event registrations indexes').1[node]? =
        (deliver (Feed.react env) event registrations indexes).1[node]? := by
  induction registrations generalizing indexes indexes' with
  | nil => exact ⟨rfl, h⟩
  | cons r rs ih =>
    rw [List.forall_mem_cons] at howned
    obtain ⟨hrefusal, hindex⟩ := Feed.react_local env (r.view event) howned.1 h
    obtain ⟨hhearings, hlast⟩ := ih howned.2 hindex
    simp only [deliver]
    exact ⟨by rw [hrefusal, hhearings], hlast⟩

/-- Listeners of different nodes do not notice which of them hear an event first. -/
theorem deliver_comm (hne : a ≠ b) (howned : ∀ r ∈ registrations, r.listener.node = a)
    (howned' : ∀ r ∈ others, r.listener.node = b) (indexes : NodeMap ReverseIndex) :
    (deliver (Feed.react env) event others
        (deliver (Feed.react env) event registrations indexes).1).1 =
      (deliver (Feed.react env) event registrations
        (deliver (Feed.react env) event others indexes).1).1 := by
  have helse : ∀ node, node ≠ a → ∀ indexes,
      (deliver (Feed.react env) event registrations indexes).1[node]? = indexes[node]? :=
    fun node hnode => deliver_elsewhere fun r hr heq => hnode (heq ▸ howned r hr)
  have helse' : ∀ node, node ≠ b → ∀ indexes,
      (deliver (Feed.react env) event others indexes).1[node]? = indexes[node]? :=
    fun node hnode => deliver_elsewhere fun r hr heq => hnode (heq ▸ howned' r hr)
  apply Std.ExtTreeMap.ext_getElem?
  intro node
  by_cases ha : node = a
  · subst ha
    rw [helse' node hne]
    exact (deliver_local env event howned (helse' node hne indexes)).2.symm
  · rw [helse node ha]
    by_cases hb : node = b
    · subst hb
      exact (deliver_local env event howned' (helse node ha indexes)).2
    · rw [helse' node hb, helse node ha, helse' node hb]

/-- What becomes of the table of a node, and what its listeners hear, is the same once another node
was told. -/
theorem dispatch_after (env : Environment) (event : CacheEvent) (hne : a ≠ b)
    (howned : ∀ r ∈ t.registrations, r.listener.node = a)
    (howned' : ∀ r ∈ t'.registrations, r.listener.node = b) (indexes : NodeMap ReverseIndex) :
    (t.dispatch (Feed.react env) event (t'.dispatch (Feed.react env) event indexes).2.1).1 =
        (t.dispatch (Feed.react env) event indexes).1 ∧
      (t.dispatch (Feed.react env) event (t'.dispatch (Feed.react env) event indexes).2.1).2.2 =
        (t.dispatch (Feed.react env) event indexes).2.2 := by
  have hkept : (t'.dispatch (Feed.react env) event indexes).2.1[a]? = indexes[a]? :=
    deliver_elsewhere (fun r hr heq => hne (heq.symm.trans (howned' r hr))) indexes
  have hhearings := (deliver_local env event howned hkept).1
  simp only [dispatch] at hhearings
  simp only [dispatch, hhearings, and_self]

end Listeners

private theorem NodeMap.insert_comm {α : Type} (m : NodeMap α) (hne : a ≠ b) (x y : α) :
    (m.insert a x).insert b y = (m.insert b y).insert a x := by
  apply Std.ExtTreeMap.ext_getElem?
  intro node
  simp only [Std.ExtTreeMap.getElem?_insert, Std.LawfulEqOrd.compare_eq_iff_eq]
  grind

namespace Hub

variable {hub : Hub Feed}

def withListeners {L : Type} (hub : Hub L) (node : NodeId) (member : Member L)
    (listeners : Listeners L) : Hub L :=
  { hub with members := hub.members.insert node { member with listeners } }

private theorem tell_two {L σ : Type} {hub : Hub L} {here there : Member L} (hne : a ≠ b)
    (ha : hub.members[a]? = some here) (hb : hub.members[b]? = some there) (react : Reaction L σ)
    (event : CacheEvent) (nodes : List NodeId) (world : σ) :
    tell react event (a :: b :: nodes) hub world =
      let first := here.listeners.dispatch react event world
      let second := there.listeners.dispatch react event first.2.1
      let rest := tell react event nodes
        ((hub.withListeners a here first.1).withListeners b there second.1) second.2.1
      (rest.1, rest.2.1, first.2.2 ++ (second.2.2 ++ rest.2.2)) := by
  simp only [tell, ha, hb, withListeners, Std.ExtTreeMap.getElem?_insert,
    Std.LawfulEqOrd.compare_eq_iff_eq, hne, if_false]

private theorem withListeners_comm {L : Type} (hub : Hub L) (hne : a ≠ b) (here there : Member L)
    (listeners listeners' : Listeners L) :
    (hub.withListeners b there listeners').withListeners a here listeners =
      (hub.withListeners a here listeners).withListeners b there listeners' := by
  simp only [withListeners, NodeMap.insert_comm hub.members hne]

/-- Whether a node that is no member is passed over first makes no difference. -/
theorem tell_swap_of_none {L σ : Type} {hub : Hub L} (hnone : hub.members[a]? = none)
    (react : Reaction L σ) (event : CacheEvent) (b : NodeId) (nodes : List NodeId) (world : σ) :
    tell react event (b :: a :: nodes) hub world =
      tell react event (a :: b :: nodes) hub world := by
  by_cases heq : a = b
  · rw [heq]
  · cases hb : hub.members[b]? with
    | none => simp only [tell, hnone, hb]
    | some there =>
      simp only [tell, hnone, hb, Std.ExtTreeMap.getElem?_insert, Std.LawfulEqOrd.compare_eq_iff_eq,
        Ne.symm heq, if_false]

/-- The second telling comes to the same as the first one, but for the order in which listeners
heard of it. -/
structure Retells (told told' : Hub Feed × NodeMap ReverseIndex × List (Hearing Feed)) : Prop where
  hub : told'.1 = told.1
  indexes : told'.2.1 = told.2.1
  hearings : told'.2.2.Perm told.2.2

private theorem Retells.of_eq {told told' : Hub Feed × NodeMap ReverseIndex × List (Hearing Feed)}
    (h : told' = told) : Retells told told' :=
  h ▸ ⟨rfl, rfl, .refl _⟩

theorem Retells.trans {told told' told'' : Hub Feed × NodeMap ReverseIndex × List (Hearing Feed)}
    (h : Retells told told') (h' : Retells told' told'') : Retells told told'' :=
  ⟨h'.hub.trans h.hub, h'.indexes.trans h.indexes, h'.hearings.trans h.hearings⟩

/-- Two members are told in either order, and then the rest. -/
theorem Dedicated.tell_swap (h : hub.Dedicated) (env : Environment) (event : CacheEvent)
    (a b : NodeId) (nodes : List NodeId) (indexes : NodeMap ReverseIndex) :
    Retells (tell (Feed.react env) event (a :: b :: nodes) hub indexes)
      (tell (Feed.react env) event (b :: a :: nodes) hub indexes) := by
  by_cases heq : a = b
  · exact .of_eq (by rw [heq])
  have heq' : b ≠ a := Ne.symm heq
  cases ha : hub.members[a]? with
  | none => exact .of_eq (tell_swap_of_none ha _ event b nodes indexes)
  | some here =>
    cases hb : hub.members[b]? with
    | none => exact .of_eq (tell_swap_of_none hb _ event a nodes indexes).symm
    | some there =>
      have hhere : ∀ r ∈ here.listeners.registrations, r.listener.node = a := h a here ha
      have hthere : ∀ r ∈ there.listeners.registrations, r.listener.node = b := h b there hb
      obtain ⟨htable, hheard⟩ := Listeners.dispatch_after env event heq hhere hthere indexes
      obtain ⟨htable', hheard'⟩ := Listeners.dispatch_after env event heq' hthere hhere indexes
      have hindexes : (here.listeners.dispatch (Feed.react env) event
          (there.listeners.dispatch (Feed.react env) event indexes).2.1).2.1 =
          (there.listeners.dispatch (Feed.react env) event
            (here.listeners.dispatch (Feed.react env) event indexes).2.1).2.1 :=
        Listeners.deliver_comm heq' hthere hhere indexes
      rw [tell_two heq ha hb, tell_two heq' hb ha]
      simp only [htable, hheard, htable', hheard', hindexes, withListeners_comm hub heq]
      refine ⟨rfl, rfl, ?_⟩
      simp only [← List.append_assoc]
      exact List.perm_append_comm.append_right _

private theorem Dedicated.withListeners (h : hub.Dedicated) {member : Member Feed}
    (hmember : hub.members[a]? = some member) (env : Environment) (event : CacheEvent)
    (indexes : NodeMap ReverseIndex) :
    (hub.withListeners a member
      (member.listeners.dispatch (Feed.react env) event indexes).1).Dedicated :=
  EachTable.seat (P := Owned) h fun r hr =>
    h a member hmember r (Listeners.mem_of_mem_dispatch hr)

/-- The members are told in any order. -/
theorem Dedicated.tell_perm (h : hub.Dedicated) (env : Environment) (event : CacheEvent)
    {nodes nodes' : List NodeId} (hperm : nodes'.Perm nodes) (indexes : NodeMap ReverseIndex) :
    Retells (tell (Feed.react env) event nodes hub indexes)
      (tell (Feed.react env) event nodes' hub indexes) := by
  induction hperm generalizing hub indexes with
  | nil => exact .of_eq rfl
  | cons first _ ih =>
    cases hfirst : hub.members[first]? with
    | none =>
      simp only [tell, hfirst]
      exact ih h indexes
    | some member =>
      have hrest := ih (h.withListeners hfirst env event indexes)
        (member.listeners.dispatch (Feed.react env) event indexes).2.1
      simp only [tell, hfirst]
      exact ⟨hrest.hub, hrest.indexes, hrest.hearings.append_left _⟩
  | swap first second nodes => exact h.tell_swap env event first second nodes indexes
  | trans _ _ ih ih' => exact (ih' h indexes).trans (ih h indexes)

/-! ## Acts in some order -/

private theorem Dedicated.broadcast_within (h : hub.Dedicated) (orders : Orders) (env : Environment)
    (origin : NodeId) (event : CacheEvent) (indexes : NodeMap ReverseIndex) :
    Retells (hub.broadcast (Feed.react env) origin event indexes)
      (orders.within (hub.broadcast (Feed.react env) origin event indexes)) :=
  h.tell_perm env event (((orders.telling event).perm _).filter _) indexes

theorem Dedicated.put_within (h : hub.Dedicated) (orders : Orders) (env : Environment)
    (node : NodeId) (key : Address) (value : Registry) (indexes : NodeMap ReverseIndex) :
    (hub.put (Feed.react env) node key value indexes).Rearranges
      (orders.within (hub.put (Feed.react env) node key value indexes)) := by
  unfold Hub.put
  cases hub.get key with
  | error e => exact .refl _
  | ok old =>
    have hstored : ({ hub with data := hub.data.insert key ⟨Wire.encode value, node⟩ } :
        Hub Feed).Dedicated := h
    obtain ⟨hhub, hindexes, hhearings⟩ :=
      hstored.broadcast_within orders env node (.ofWrite key old value node) indexes
    exact ⟨rfl, hhub, hindexes, hhearings⟩

theorem Dedicated.takeOut_within (h : hub.Dedicated) (orders : Orders) (env : Environment)
    (key : Address) (origin : Holding → NodeId) (event : Registry → NodeId → CacheEvent)
    (indexes : NodeMap ReverseIndex) :
    (hub.takeOut (Feed.react env) key origin event indexes).Rearranges
      (orders.within (hub.takeOut (Feed.react env) key origin event indexes)) := by
  unfold Hub.takeOut
  cases hub.data[key]? with
  | none => exact .refl _
  | some holding =>
    cases hread : holding.registry with
    | error e =>
      simp only [hread]
      exact .refl _
    | ok old =>
      have htaken : ({ hub with data := hub.data.erase key } : Hub Feed).Dedicated := h
      obtain ⟨hhub, hindexes, hhearings⟩ :=
        htaken.broadcast_within orders env (origin holding) (event old (origin holding)) indexes
      simp only [hread]
      exact ⟨rfl, hhub, hindexes, hhearings⟩

theorem Dedicated.evictNode_within (h : hub.Dedicated) (orders : Orders) (env : Environment)
    (node : NodeId) (indexes : NodeMap ReverseIndex) :
    (hub.evictNode (Feed.react env) node indexes).Rearranges
      (orders.within (hub.evictNode (Feed.react env) node indexes)) := by
  have hleft : ({ hub with data := withoutOwner hub.data node } : Hub Feed).Dedicated := h
  obtain ⟨hhub, hindexes, hhearings⟩ :=
    hleft.broadcast_within orders env node (.mapEvicted node) indexes
  exact ⟨rfl, hhub, hindexes, hhearings⟩

theorem Dedicated.clear_within (h : hub.Dedicated) (orders : Orders) (env : Environment)
    (node : NodeId) (indexes : NodeMap ReverseIndex) :
    (hub.clear (Feed.react env) node indexes).Rearranges
      (orders.within (hub.clear (Feed.react env) node indexes)) := by
  have hcleared : ({ hub with data := ∅ } : Hub Feed).Dedicated := h
  obtain ⟨hhub, hindexes, hhearings⟩ :=
    hcleared.broadcast_within orders env node (.mapCleared node) indexes
  exact ⟨rfl, hhub, hindexes, hhearings⟩

/-- An act comes to the same in whatever order the members are told. -/
theorem Dedicated.performIn (h : hub.Dedicated) (env : Environment)
    (act : Telling × HubAct Feed) (indexes : NodeMap ReverseIndex) :
    (hub.perform (Feed.react env) act.2 indexes).Rearranges
      (hub.performIn (Feed.react env) act indexes) := by
  obtain ⟨telling, act⟩ := act
  cases act with
  | join node | leave node | listen view listener includesValues => exact .refl _
  | call view request =>
    cases request with
    | get key | entries => exact .refl _
    | put key value =>
      exact (h.put_within { telling } env view.node key value indexes).map fun answer =>
        some (answer.map CacheReply.registry)
    | remove key =>
      exact (h.takeOut_within { telling } env key _ _ indexes).map fun answer =>
        some (answer.map CacheReply.registry)
  | evict key =>
    exact (h.takeOut_within { telling } env key _ _ indexes).map fun answer =>
      some (answer.map CacheReply.registry)
  | evictNode node => exact (h.evictNode_within { telling } env node indexes).map fun _ => none
  | clear node => exact (h.clear_within { telling } env node indexes).map fun _ => none

end Hub

namespace Fabric

variable {f : Fabric}

/-- Whatever is done to the hub comes to the same, in whatever order the members are told of each
act. -/
theorem Calm.runIn (h : f.Calm) (env : Environment) {acts : List (Telling × HubAct Feed)}
    (howned : ∀ act ∈ acts, act.2.Keeps Hub.Owned) :
    (f.hub.run (Feed.react env) (acts.map Prod.snd) f.indexes).Rearranges
      (f.hub.runIn (Feed.react env) acts f.indexes) := by
  induction acts generalizing f with
  | nil => exact .refl _
  | cons act acts ih =>
    rw [List.forall_mem_cons] at howned
    have hfirst := h.dedicated.performIn env act f.indexes
    have hrest := ih (h.perform env howned.1) howned.2
    simp only [List.map_cons, Change.run, hfirst.answer, hfirst.cache, hfirst.world]
    exact ⟨congrArg (_ ++ ·) hrest.answer, hrest.cache, hrest.world,
      hfirst.hearings.append hrest.hearings⟩

end Fabric

end DirectedPresence
