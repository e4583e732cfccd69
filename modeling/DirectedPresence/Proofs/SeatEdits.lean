import Mathlib.Logic.Relation
import DirectedPresence.Cluster
import DirectedPresence.Proofs.CacheContents
import DirectedPresence.Proofs.RegistryPairs

/-!
What the tracking operations of a node can do to its seat. Each of them is a sequence of edits: the
store or the cache gets another registry for a sender that the node hosts, or loses the one it has
(`Seat.Edit`). The registries that are written are proper: regular, not empty, and recorded by the
host. That is said for every steady seat, whether or not its store and its cache agree, and whatever
the hub has lost; what a run keeps is then proved for one edit. A seat is sound if moreover the
members of the hub are the ones that they should be (`Seat.sound_iff`).
-/

namespace DirectedPresence

/-- A registry as the host of its sender keeps it. -/
structure Registry.Proper (r : Registry) (node : NodeId) : Prop where
  regular : r.Regular
  recorded : r.RecordedBy node
  nonempty : r.isEmpty = false

namespace Registry

variable {r : Registry} {node : NodeId}

theorem Proper.orNone (h : r.Proper node) : r.orNone = some r := by
  rw [Registry.orNone, h.nonempty, if_neg Bool.false_ne_true]

theorem Proper.pairSet_nonempty (h : r.Proper node) : r.pairSet.Nonempty := by
  rw [Finset.nonempty_iff_ne_empty, ne_eq, ← h.regular.isEmpty_iff, h.nonempty]
  exact Bool.false_ne_true

theorem proper_add (hregular : r.Regular) (hrecorded : r.RecordedBy node)
    (handler receiver : Address) : (r.add handler node receiver).1.Proper node :=
  ⟨hregular.add, hrecorded.add, r.isEmpty_add⟩

theorem Proper.remove (h : r.Proper node) (handler receiver : Address)
    (hleft : (r.remove handler receiver).1.isEmpty = false) :
    (r.remove handler receiver).1.Proper node :=
  ⟨h.regular.remove, h.recorded.remove, hleft⟩

theorem Proper.retain (h : r.Proper node) (keep : HandlerEntry → Bool)
    (hleft : (r.retain keep).1.isEmpty = false) : (r.retain keep).1.Proper node :=
  ⟨h.regular.retain keep, h.recorded.retain keep, hleft⟩

theorem Proper.removeAccount (h : r.Proper node) (contact : Address)
    (hleft : (r.removeAccount contact).1.isEmpty = false) :
    (r.removeAccount contact).1.Proper node :=
  ⟨h.regular.removeAccount contact, h.recorded.removeAccount contact, hleft⟩

end Registry

/-- Every holding of the hub was written by the host of its sender. -/
def Hub.Written {L : Type} (host : Address → NodeId) (hub : Hub L) : Prop :=
  ∀ (sender : Address) (holding : Holding), hub.data[sender]? = some holding →
    ∃ registry : Registry, holding = .of (host sender) registry ∧ registry.Proper (host sender)

/-- Every holding of the hub was written by the host of its sender, and the host is a member. -/
def Hub.Held {L : Type} (host : Address → NodeId) (hub : Hub L) : Prop :=
  ∀ (sender : Address) (holding : Holding), hub.data[sender]? = some holding →
    host sender ∈ hub.members ∧
      ∃ registry : Registry, holding = .of (host sender) registry ∧ registry.Proper (host sender)

private theorem Hub.Written.legible {L : Type} {host : Address → NodeId} {hub : Hub L}
    (h : hub.Written host) : hub.Legible := by
  intro key holding hdata
  obtain ⟨registry, rfl, -⟩ := h key holding hdata
  exact ⟨registry, Holding.registry_of _ registry⟩

private theorem Hub.Held.written {L : Type} {host : Address → NodeId} {hub : Hub L}
    (h : hub.Held host) : hub.Written host :=
  fun sender holding hdata => (h sender holding hdata).2

theorem Hub.Held.legible {L : Type} {host : Address → NodeId} {hub : Hub L} (h : hub.Held host) :
    hub.Legible :=
  h.written.legible

namespace Seat

/-- The registry of a sender in the cache, whatever its backing. -/
def cached (seat : Seat) (key : Address) : Option Registry :=
  match seat.node.cache.backing with
  | .standalone cache => cache.get? key
  | .clustered _ => seat.fabric.hub.lookup key

/-- A node has either a cache of its own, to which nobody listens, or a view in its own name of a
hub of which it is a member. -/
inductive Posture (seat : Seat) : Prop where
  | alone (cache : LocalCache Feed) (backing : seat.node.cache.backing = .standalone cache)
      (owner : cache.node = seat.node.id) (unheard : cache.listeners.registrations = [])
      (absent : seat.node.id ∉ seat.fabric.hub.members)
  | member (view : View) (backing : seat.node.cache.backing = .clustered view)
      (owner : view.node = seat.node.id) (present : seat.node.id ∈ seat.fabric.hub.members)

/-- What holds at the seat of a node that acts, when every sender is used on its host only. The
store and the cache need not agree. -/
structure Sound (host : Address → NodeId) (seat : Seat) : Prop where
  faultless : seat.node.cache.faults = Faults.none
  awake : seat.node.server.shuttingDown = false
  posture : seat.Posture
  stored : ∀ sender registry, seat.node.store.get? sender = some registry →
    host sender = seat.node.id ∧ registry.Proper seat.node.id
  own : ∀ cache sender registry, seat.node.cache.backing = .standalone cache →
    cache.get? sender = some registry →
    host sender = seat.node.id ∧ registry.Proper seat.node.id
  held : seat.fabric.hub.Held host

/-- A node has either a cache of its own, to which nobody listens, and nothing in the hub, or a view
in its own name of the hub, whatever the hub has lost. -/
inductive Stance (host : Address → NodeId) (seat : Seat) : Prop where
  | alone (cache : LocalCache Feed) (backing : seat.node.cache.backing = .standalone cache)
      (owner : cache.node = seat.node.id) (unheard : cache.listeners.registrations = [])
      (unheld : ∀ sender, host sender = seat.node.id → seat.fabric.hub.data[sender]? = none)
  | viewing (view : View) (backing : seat.node.cache.backing = .clustered view)
      (owner : view.node = seat.node.id)

/-- What holds at the seat of a node even if the hub loses entries or members. -/
structure Steady (host : Address → NodeId) (seat : Seat) : Prop where
  faultless : seat.node.cache.faults = Faults.none
  awake : seat.node.server.shuttingDown = false
  stance : seat.Stance host
  stored : ∀ sender registry, seat.node.store.get? sender = some registry →
    host sender = seat.node.id ∧ registry.Proper seat.node.id
  own : ∀ cache sender registry, seat.node.cache.backing = .standalone cache →
    cache.get? sender = some registry →
    host sender = seat.node.id ∧ registry.Proper seat.node.id
  written : seat.fabric.hub.Written host

variable {host : Address → NodeId} {env : Environment} {seat : Seat}

theorem Sound.steady (h : seat.Sound host) : seat.Steady host := by
  refine ⟨h.faultless, h.awake, ?_, h.stored, h.own, h.held.written⟩
  cases h.posture with
  | alone cache backing owner unheard absent =>
    refine .alone cache backing owner unheard fun sender hosted => ?_
    rw [Option.eq_none_iff_forall_not_mem]
    intro holding hdata
    exact absurd (hosted ▸ (h.held sender holding hdata).1) absent
  | member view backing owner present => exact .viewing view backing owner

/-- A node that has a view of the hub is a member. -/
theorem Sound.present_of_view (h : seat.Sound host) {view : View}
    (backing : seat.node.cache.backing = .clustered view) :
    seat.node.id ∈ seat.fabric.hub.members := by
  cases h.posture with
  | alone cache alone =>
    rw [alone] at backing
    cases backing
  | member _ _ _ present => exact present

/-- What the hub says of a sender is proper for the host of the sender. -/
theorem Steady.lookup_proper (h : seat.Steady host) {sender : Address} {registry : Registry}
    (hlookup : seat.fabric.hub.lookup sender = some registry) : registry.Proper (host sender) := by
  cases hdata : seat.fabric.hub.data[sender]? with
  | none => simp [Hub.lookup_eq_none hdata] at hlookup
  | some holding =>
    obtain ⟨other, rfl, hproper⟩ := h.written sender holding hdata
    rw [Hub.lookup_of_getElem? hdata] at hlookup
    rwa [← Option.some.inj hlookup]

/-- The cached registry of a hosted sender is proper. -/
theorem Steady.cached_proper (h : seat.Steady host) {sender : Address} {registry : Registry}
    (hhost : host sender = seat.node.id) (hcached : seat.cached sender = some registry) :
    registry.Proper seat.node.id := by
  cases h.stance with
  | alone cache backing =>
    simp only [cached, backing] at hcached
    exact (h.own cache sender registry backing hcached).2
  | viewing view backing =>
    simp only [cached, backing] at hcached
    exact hhost ▸ h.lookup_proper hcached

theorem Steady.get (h : seat.Steady host) (key : Address) :
    seat.get key = .ok (seat.cached key) := by
  have hfault : seat.node.cache.faults.get = false := by rw [h.faultless]; rfl
  cases hb : seat.node.cache.backing with
  | standalone cache => simp [Seat.get, cached, hfault, hb]
  | clustered view => simp [Seat.get, cached, hfault, hb, h.written.legible.get key]

/-! ## One write -/

private theorem seat_put_alone {cache : LocalCache Feed}
    (hfault : seat.node.cache.faults = Faults.none)
    (hb : seat.node.cache.backing = .standalone cache)
    (hunheard : cache.listeners.registrations = []) (key : Address) (value : Registry) :
    (seat.put env key value).seat = seat.setCache
      { seat.node.cache with
        backing := .standalone { cache with data := cache.data.insert key value } } := by
  simp [put, hfault, Faults.none, hb, afterLocal, Outcome.map, setCache,
    LocalCache.put_unheard _ hunheard]

private theorem seat_put_member {view : View} (hfault : seat.node.cache.faults = Faults.none)
    (hb : seat.node.cache.backing = .clustered view) (key : Address) (value : Registry) :
    (seat.put env key value).seat = { seat with fabric :=
      ⟨(seat.fabric.hub.put (Feed.react env) view.node key value seat.fabric.indexes).cache,
        (seat.fabric.hub.put (Feed.react env) view.node key value
          seat.fabric.indexes).world⟩ } := by
  simp [put, hfault, Faults.none, hb, afterHub]

theorem seat_remove_alone {cache : LocalCache Feed}
    (hfault : seat.node.cache.faults = Faults.none)
    (hb : seat.node.cache.backing = .standalone cache)
    (hunheard : cache.listeners.registrations = []) (key : Address) :
    (seat.remove env key).seat = seat.setCache
      { seat.node.cache with
        backing := .standalone { cache with data := cache.data.erase key } } := by
  simp [remove, hfault, Faults.none, hb, afterLocal, Outcome.map, setCache,
    LocalCache.remove_unheard _ hunheard]

theorem seat_remove_member {view : View} (hfault : seat.node.cache.faults = Faults.none)
    (hb : seat.node.cache.backing = .clustered view) (key : Address) :
    (seat.remove env key).seat = { seat with fabric :=
      ⟨(seat.fabric.hub.remove (Feed.react env) view.node key seat.fabric.indexes).cache,
        (seat.fabric.hub.remove (Feed.react env) view.node key seat.fabric.indexes).world⟩ } := by
  simp [remove, hfault, Faults.none, hb, afterHub]

/-- A write is answered with what the cache had before. -/
theorem Steady.answer_put (h : seat.Steady host) (key : Address) (value : Registry) :
    (seat.put env key value).answer = .ok (seat.cached key) := by
  have hfault : seat.node.cache.faults.put = false := by rw [h.faultless]; rfl
  cases hb : seat.node.cache.backing with
  | standalone cache => simp [put, cached, hfault, hb, Outcome.map, afterLocal]
  | clustered view =>
    simp [put, cached, hfault, hb, afterHub, Hub.answer_put, h.written.legible.get key]

theorem Steady.answer_remove (h : seat.Steady host) (key : Address) :
    (seat.remove env key).answer = .ok (seat.cached key) := by
  have hfault : seat.node.cache.faults.remove = false := by rw [h.faultless]; rfl
  cases hb : seat.node.cache.backing with
  | standalone cache => simp [remove, cached, hfault, hb, Outcome.map, afterLocal]
  | clustered view =>
    simp [remove, cached, hfault, hb, afterHub, Hub.remove, Hub.answer_takeOut,
      h.written.legible.get key]

/-- What an operation on the cache leaves alone. -/
structure SameNode (before after : Seat) : Prop where
  server : after.node.server = before.node.server
  settings : after.node.settings = before.node.settings
  phase : after.node.phase = before.node.phase
  faults : after.node.cache.faults = before.node.cache.faults
  view : ∀ view, after.node.cache.backing = .clustered view ↔
    before.node.cache.backing = .clustered view

theorem SameNode.refl (seat : Seat) : SameNode seat seat :=
  ⟨rfl, rfl, rfl, rfl, fun _ => Iff.rfl⟩

theorem SameNode.trans {a b c : Seat} (hab : SameNode a b) (hbc : SameNode b c) :
    SameNode a c :=
  ⟨hbc.server.trans hab.server, hbc.settings.trans hab.settings, hbc.phase.trans hab.phase,
    hbc.faults.trans hab.faults, fun view => (hbc.view view).trans (hab.view view)⟩

theorem SameNode.id {before after : Seat} (h : SameNode before after) :
    after.node.id = before.node.id := by
  rw [Node.id, h.server, Node.id]

theorem isClustered_eq_true_iff {cache : NodeCache} :
    cache.isClustered = true ↔ ∃ view, cache.backing = .clustered view := by
  unfold NodeCache.isClustered
  split <;> simp [*]

theorem SameNode.isClustered (h : SameNode seat seat') :
    seat'.node.cache.isClustered = seat.node.cache.isClustered := by
  rw [Bool.eq_iff_iff, isClustered_eq_true_iff, isClustered_eq_true_iff]
  simp only [h.view]

theorem sameNode_put (seat : Seat) (env : Environment) (key : Address) (value : Registry) :
    SameNode seat (seat.put env key value).seat := by
  unfold put
  split
  · exact SameNode.refl seat
  · split
    · next cache hb => exact ⟨rfl, rfl, rfl, rfl, by simp [Outcome.map, afterLocal, hb]⟩
    · exact ⟨rfl, rfl, rfl, rfl, fun _ => Iff.rfl⟩

theorem sameNode_remove (seat : Seat) (env : Environment) (key : Address) :
    SameNode seat (seat.remove env key).seat := by
  unfold remove
  split
  · exact SameNode.refl seat
  · split
    · next cache hb => exact ⟨rfl, rfl, rfl, rfl, by simp [Outcome.map, afterLocal, hb]⟩
    · exact ⟨rfl, rfl, rfl, rfl, fun _ => Iff.rfl⟩

@[simp] theorem store_put (seat : Seat) (env : Environment) (key : Address) (value : Registry) :
    (seat.put env key value).seat.node.store = seat.node.store := by
  unfold put
  split
  · rfl
  · split <;> rfl

@[simp] theorem store_remove (seat : Seat) (env : Environment) (key : Address) :
    (seat.remove env key).seat.node.store = seat.node.store := by
  unfold remove
  split
  · rfl
  · split <;> rfl

theorem Steady.cached_put (h : seat.Steady host) (key other : Address) (value : Registry) :
    (seat.put env key value).seat.cached other =
      if key = other then some value else seat.cached other := by
  cases h.stance with
  | alone cache backing _ unheard =>
    rw [seat_put_alone h.faultless backing unheard]
    simp [cached, backing, setCache, LocalCache.get?, Std.ExtTreeMap.getElem?_insert]
  | viewing view backing =>
    rw [seat_put_member h.faultless backing]
    by_cases hk : key = other
    · have hread := Holding.registry_of view.node value
      simp only [Holding.of] at hread
      simp [cached, backing, Hub.lookup, hk, hread, Except.toOption]
    · simp [cached, backing, Hub.lookup, Std.ExtTreeMap.getElem?_insert, hk]

theorem Steady.cached_remove (h : seat.Steady host) (key other : Address) :
    (seat.remove env key).seat.cached other =
      if key = other then none else seat.cached other := by
  cases h.stance with
  | alone cache backing _ unheard =>
    rw [seat_remove_alone h.faultless backing unheard]
    simp [cached, backing, setCache, LocalCache.get?, Std.ExtTreeMap.getElem?_erase]
  | viewing view backing =>
    rw [seat_remove_member h.faultless backing]
    by_cases hk : key = other
      <;> simp [cached, backing, Hub.lookup, Std.ExtTreeMap.getElem?_erase, hk]

/-! ## Edits -/

/-- One write of a node to its store or its cache, for a sender that it hosts. -/
inductive Edit (env : Environment) (host : Address → NodeId) : Seat → Seat → Prop where
  | storeInsert (seat : Seat) (sender : Address) (registry : Registry)
      (hosted : host sender = seat.node.id) (proper : registry.Proper seat.node.id) :
      Edit env host seat (seat.setStore (seat.node.store.insert sender registry))
  | storeRemove (seat : Seat) (sender : Address) :
      Edit env host seat (seat.setStore (seat.node.store.remove sender))
  | put (seat : Seat) (sender : Address) (registry : Registry)
      (hosted : host sender = seat.node.id) (proper : registry.Proper seat.node.id) :
      Edit env host seat (seat.put env sender registry).seat
  | remove (seat : Seat) (sender : Address) (hosted : host sender = seat.node.id) :
      Edit env host seat (seat.remove env sender).seat

abbrev Edits (env : Environment) (host : Address → NodeId) : Seat → Seat → Prop :=
  Relation.ReflTransGen (Edit env host)

variable {seat' : Seat}

private theorem Edit.sameNode (h : Edit env host seat seat') : SameNode seat seat' := by
  cases h with
  | storeInsert => exact ⟨rfl, rfl, rfl, rfl, fun _ => Iff.rfl⟩
  | storeRemove => exact ⟨rfl, rfl, rfl, rfl, fun _ => Iff.rfl⟩
  | put sender registry => exact sameNode_put seat env sender registry
  | remove sender => exact sameNode_remove seat env sender

theorem Edits.sameNode (h : Edits env host seat seat') : SameNode seat seat' := by
  induction h with
  | refl => exact SameNode.refl seat
  | tail _ hedit ih => exact ih.trans hedit.sameNode

private theorem Stance.setStore (h : seat.Stance host) (store : Store) :
    (seat.setStore store).Stance host := by
  cases h with
  | alone cache backing owner unheard unheld => exact .alone cache backing owner unheard unheld
  | viewing view backing owner => exact .viewing view backing owner

theorem Steady.storeInsert (h : seat.Steady host) {sender : Address} {registry : Registry}
    (hosted : host sender = seat.node.id) (proper : registry.Proper seat.node.id) :
    (seat.setStore (seat.node.store.insert sender registry)).Steady host where
  faultless := h.faultless
  awake := h.awake
  stance := h.stance.setStore _
  stored := by
    intro other value hvalue
    have hget : (seat.node.store.insert sender registry).get? other = some value := hvalue
    rw [Store.get?_insert] at hget
    by_cases heq : sender = other
    · simp only [heq, if_true, proper.nonempty, Bool.false_eq_true, if_false] at hget
      cases hget
      exact ⟨heq ▸ hosted, proper⟩
    · rw [if_neg heq] at hget
      exact h.stored other value hget
  own := h.own
  written := h.written

private theorem Steady.storeRemove (h : seat.Steady host) (sender : Address) :
    (seat.setStore (seat.node.store.remove sender)).Steady host where
  faultless := h.faultless
  awake := h.awake
  stance := h.stance.setStore _
  stored := by
    intro other value hvalue
    have hget : (seat.node.store.remove sender).get? other = some value := hvalue
    rw [Store.get?_remove] at hget
    split at hget
    · cases hget
    · exact h.stored other value hget
  own := h.own
  written := h.written

theorem Steady.put (h : seat.Steady host) {sender : Address} {registry : Registry}
    (hosted : host sender = seat.node.id) (proper : registry.Proper seat.node.id) :
    (seat.put env sender registry).seat.Steady host := by
  cases h.stance with
  | alone cache backing owner unheard unheld =>
    rw [seat_put_alone h.faultless backing unheard]
    refine ⟨h.faultless, h.awake, .alone _ rfl owner unheard unheld, h.stored, ?_, h.written⟩
    rintro _ other value ⟨rfl⟩ hvalue
    rw [LocalCache.get?, Std.ExtTreeMap.getElem?_insert] at hvalue
    split at hvalue
    · next heq =>
      cases hvalue
      exact ⟨Std.LawfulEqOrd.eq_of_compare heq ▸ hosted, proper⟩
    · exact h.own cache other value backing hvalue
  | viewing view backing owner =>
    rw [seat_put_member h.faultless backing]
    refine ⟨h.faultless, h.awake, .viewing view backing owner, h.stored, ?_, ?_⟩
    · intro cache _ _ hother
      simp [backing] at hother
    · intro other holding hdata
      simp only [Hub.data_put, Std.ExtTreeMap.getElem?_insert] at hdata
      split at hdata
      · next heq =>
        cases hdata
        have hsender := Std.LawfulEqOrd.eq_of_compare heq
        rw [← hsender, hosted]
        exact ⟨registry, by rw [owner]; rfl, proper⟩
      · exact h.written other holding hdata

private theorem Steady.remove (h : seat.Steady host) (sender : Address) :
    (seat.remove env sender).seat.Steady host := by
  cases h.stance with
  | alone cache backing owner unheard unheld =>
    rw [seat_remove_alone h.faultless backing unheard]
    refine ⟨h.faultless, h.awake, .alone _ rfl owner unheard unheld, h.stored, ?_, h.written⟩
    rintro _ other value ⟨rfl⟩ hvalue
    rw [LocalCache.get?, Std.ExtTreeMap.getElem?_erase] at hvalue
    split at hvalue
    · cases hvalue
    · exact h.own cache other value backing hvalue
  | viewing view backing owner =>
    rw [seat_remove_member h.faultless backing]
    refine ⟨h.faultless, h.awake, .viewing view backing owner, h.stored, ?_, ?_⟩
    · intro cache _ _ hother
      simp [backing] at hother
    · intro other holding hdata
      simp only [Hub.remove, Hub.data_takeOut, Std.ExtTreeMap.getElem?_erase] at hdata
      split at hdata
      · cases hdata
      · exact h.written other holding hdata

private theorem Steady.edit (h : seat.Steady host) (hedit : Edit env host seat seat') :
    seat'.Steady host := by
  cases hedit with
  | storeInsert sender registry hosted proper => exact h.storeInsert hosted proper
  | storeRemove sender => exact h.storeRemove sender
  | put sender registry hosted proper => exact h.put hosted proper
  | remove sender => exact h.remove sender

theorem Steady.edits (h : seat.Steady host) (hedits : Edits env host seat seat') :
    seat'.Steady host := by
  induction hedits with
  | refl => exact h
  | tail _ hedit ih => exact ih.edit hedit

/-! ## What an edit leaves alone -/

/-- An edit leaves the fabric as it is, or through its view the node writes or removes the entry of
a sender that it hosts. -/
theorem Steady.fabric_edit (h : seat.Steady host) (hedit : Edit env host seat seat') :
    seat'.fabric = seat.fabric ∨ ∃ view sender, seat.node.cache.backing = .clustered view ∧
      host sender = seat.node.id ∧
      ((∃ registry, seat'.fabric =
          ⟨(seat.fabric.hub.put (Feed.react env) seat.node.id sender registry
            seat.fabric.indexes).cache,
          (seat.fabric.hub.put (Feed.react env) seat.node.id sender registry
            seat.fabric.indexes).world⟩) ∨
        seat'.fabric =
          ⟨(seat.fabric.hub.remove (Feed.react env) seat.node.id sender
            seat.fabric.indexes).cache,
          (seat.fabric.hub.remove (Feed.react env) seat.node.id sender
            seat.fabric.indexes).world⟩) := by
  cases hedit with
  | storeInsert => exact Or.inl rfl
  | storeRemove => exact Or.inl rfl
  | put sender registry hosted =>
    cases h.stance with
    | alone cache backing _ unheard =>
      rw [seat_put_alone h.faultless backing unheard]
      exact Or.inl rfl
    | viewing view backing owner =>
      rw [seat_put_member h.faultless backing, owner]
      exact Or.inr ⟨view, sender, backing, hosted, Or.inl ⟨registry, rfl⟩⟩
  | remove sender hosted =>
    cases h.stance with
    | alone cache backing _ unheard =>
      rw [seat_remove_alone h.faultless backing unheard]
      exact Or.inl rfl
    | viewing view backing owner =>
      rw [seat_remove_member h.faultless backing, owner]
      exact Or.inr ⟨view, sender, backing, hosted, Or.inr rfl⟩

private theorem Steady.mem_members_edit (h : seat.Steady host) (hedit : Edit env host seat seat')
    (node : NodeId) : node ∈ seat'.fabric.hub.members ↔ node ∈ seat.fabric.hub.members := by
  rcases h.fabric_edit hedit with hsame | ⟨-, sender, -, -, ⟨registry, hput⟩ | hremove⟩
  · rw [hsame]
  · rw [hput]
    exact Hub.mem_members_put _
  · rw [hremove]
    exact Hub.mem_members_takeOut _

/-- The holdings of senders that live elsewhere stay as they are, and a node that has a cache of its
own writes none. -/
theorem Steady.data_edit (h : seat.Steady host) (hedit : Edit env host seat seat') {other : Address}
    (helse : host other ≠ seat.node.id ∨ seat.node.cache.isClustered = false) :
    seat'.fabric.hub.data[other]? = seat.fabric.hub.data[other]? := by
  rcases h.fabric_edit hedit with hsame | ⟨view, sender, backing, hosted, hwritten⟩
  · rw [hsame]
  · have hne : sender ≠ other := by
      rintro rfl
      rcases helse with helse | hown
      · exact helse hosted
      · simp [NodeCache.isClustered, backing] at hown
    rcases hwritten with ⟨registry, hput⟩ | hremove
    · simp [hput, Std.ExtTreeMap.getElem?_insert, hne]
    · simp [hremove, Hub.remove, Std.ExtTreeMap.getElem?_erase, hne]

theorem Steady.mem_members_edits (h : seat.Steady host) (hedits : Edits env host seat seat')
    (node : NodeId) : node ∈ seat'.fabric.hub.members ↔ node ∈ seat.fabric.hub.members := by
  induction hedits with
  | refl => rfl
  | tail hedits hedit ih => exact ((h.edits hedits).mem_members_edit hedit node).trans ih

theorem Steady.data_edits (h : seat.Steady host) (hedits : Edits env host seat seat')
    {other : Address} (helse : host other ≠ seat.node.id) :
    seat'.fabric.hub.data[other]? = seat.fabric.hub.data[other]? := by
  induction hedits with
  | refl => rfl
  | tail hedits hedit ih =>
    have hid := (Edits.sameNode hedits).id
    rw [(h.edits hedits).data_edit hedit (Or.inl (by rwa [hid])), ih]

/-! ## Soundness -/

/-- The members of the hub are the nodes that have a view of it, and the hosts of what it holds. -/
structure Enrolled (host : Address → NodeId) (seat : Seat) : Prop where
  joined : seat.node.id ∈ seat.fabric.hub.members ↔ seat.node.cache.isClustered = true
  hosts : ∀ (sender : Address) (holding : Holding), seat.fabric.hub.data[sender]? = some holding →
    host sender ∈ seat.fabric.hub.members

theorem sound_iff : seat.Sound host ↔ seat.Steady host ∧ seat.Enrolled host := by
  constructor
  · intro h
    refine ⟨h.steady, ?_, fun sender holding hdata => (h.held sender holding hdata).1⟩
    cases h.posture with
    | alone cache backing _ _ absent => simp [NodeCache.isClustered, backing, absent]
    | member view backing _ present => simp [NodeCache.isClustered, backing, present]
  · rintro ⟨h, henrolled⟩
    refine ⟨h.faultless, h.awake, ?_, h.stored, h.own, fun sender holding hdata =>
      ⟨henrolled.hosts sender holding hdata, h.written sender holding hdata⟩⟩
    have hjoined := henrolled.joined
    cases h.stance with
    | alone cache backing owner unheard =>
      exact .alone cache backing owner unheard (by simp [hjoined, NodeCache.isClustered, backing])
    | viewing view backing owner =>
      exact .member view backing owner (by simp [hjoined, NodeCache.isClustered, backing])

/-- What a node newly writes to the hub is its own, and it is a member then. -/
theorem Enrolled.edit (henrolled : seat.Enrolled host) (h : seat.Steady host)
    (hedit : Edit env host seat seat') : seat'.Enrolled host := by
  have hsame := hedit.sameNode
  have hmembers := h.mem_members_edit hedit
  constructor
  · rw [hsame.id, hmembers, hsame.isClustered]
    exact henrolled.joined
  · intro sender holding hdata
    rw [hmembers]
    by_cases hown : host sender = seat.node.id ∧ seat.node.cache.isClustered = true
    · rw [hown.1, henrolled.joined]
      exact hown.2
    · rw [not_and_or, Bool.not_eq_true] at hown
      rw [h.data_edit hedit hown] at hdata
      exact henrolled.hosts sender holding hdata

theorem Enrolled.edits (henrolled : seat.Enrolled host) (h : seat.Steady host)
    (hedits : Edits env host seat seat') : seat'.Enrolled host := by
  induction hedits with
  | refl => exact henrolled
  | tail hedits hedit ih => exact ih.edit (h.edits hedits) hedit

theorem Sound.edits (h : seat.Sound host) (hedits : Edits env host seat seat') :
    seat'.Sound host := by
  obtain ⟨hsteady, henrolled⟩ := sound_iff.mp h
  exact sound_iff.mpr ⟨hsteady.edits hedits, henrolled.edits hsteady hedits⟩

end Seat

end DirectedPresence
