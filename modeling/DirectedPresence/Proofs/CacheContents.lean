import DirectedPresence.Cache.Hub
import DirectedPresence.Cache.Local
import DirectedPresence.Proofs.WireRoundTrip

/-!
What can be read from the caches. A holding that was written by a member is read back as the
registry that was written, so a hub whose holdings are all of that kind never refuses a read.
Telling an event to the members changes neither the holdings nor who is a member; only the
listeners of the members that are told can change. A local cache to which nobody listens only gets
or loses the entry.
-/

namespace DirectedPresence

def Holding.of (owner : NodeId) (registry : Registry) : Holding :=
  ⟨Wire.encode registry, owner⟩

@[simp] theorem Holding.owner_of (owner : NodeId) (registry : Registry) :
    (Holding.of owner registry).owner = owner := rfl

@[simp] theorem Holding.registry_of (owner : NodeId) (registry : Registry) :
    (Holding.of owner registry).registry = .ok registry := by
  have hread := Wire.decode_encode_append Wire.registry_isReadable registry []
  rw [List.append_nil] at hread
  simp only [Holding.registry, Holding.of, hread]

namespace Hub

variable {L σ : Type}

/-- The registry of a sender, if there is one that can be read. -/
def lookup (hub : Hub L) (key : Address) : Option Registry :=
  hub.data[key]?.bind fun holding => holding.registry.toOption

def Legible (hub : Hub L) : Prop :=
  ∀ (key : Address) (holding : Holding), hub.data[key]? = some holding →
    ∃ registry, holding.registry = .ok registry

theorem lookup_of_getElem? {hub : Hub L} {key : Address} {owner : NodeId} {registry : Registry}
    (h : hub.data[key]? = some (.of owner registry)) : hub.lookup key = some registry := by
  simp [lookup, h, Except.toOption]

theorem lookup_eq_none {hub : Hub L} {key : Address} (h : hub.data[key]? = none) :
    hub.lookup key = none := by
  simp [lookup, h]

theorem Legible.get {hub : Hub L} (h : hub.Legible) (key : Address) :
    hub.get key = .ok (hub.lookup key) := by
  cases hdata : hub.data[key]? with
  | none => simp [Hub.get, lookup, hdata]
  | some holding =>
    obtain ⟨registry, hread⟩ := h key holding hdata
    simp [Hub.get, lookup, hdata, hread, Except.map, Except.toOption]

private theorem readAll_spec {holdings : List (Address × Holding)}
    (h : ∀ p ∈ holdings, ∃ registry, p.2.registry = .ok registry) :
    ∃ entries, readAll holdings = .ok entries ∧ ∀ key registry,
      (key, registry) ∈ entries ↔ ∃ holding, (key, holding) ∈ holdings ∧
        holding.registry = .ok registry := by
  induction holdings with
  | nil => exact ⟨[], rfl, by simp⟩
  | cons p rest ih =>
    obtain ⟨key, holding⟩ := p
    obtain ⟨registry, hread⟩ := h (key, holding) (by simp)
    obtain ⟨entries, hentries, hmem⟩ := ih fun q hq => h q (by simp [hq])
    refine ⟨(key, registry) :: entries, by simp only [readAll, hread, hentries], ?_⟩
    intro k r
    simp only [List.mem_cons, Prod.mk.injEq, hmem]
    constructor
    · rintro (⟨rfl, rfl⟩ | ⟨other, hother, hr⟩)
      · exact ⟨holding, Or.inl ⟨rfl, rfl⟩, hread⟩
      · exact ⟨other, Or.inr hother, hr⟩
    · rintro ⟨other, ⟨rfl, rfl⟩ | hother, hr⟩
      · exact Or.inl ⟨rfl, Except.ok.inj (hr.symm.trans hread)⟩
      · exact Or.inr ⟨other, hother, hr⟩

/-- In whatever order the holdings of a legible hub are read, they come to what it holds. -/
theorem Legible.readAll {hub : Hub L} (h : hub.Legible) {holdings : List (Address × Holding)}
    (hperm : holdings.Perm hub.data.toList) : ∃ entries, readAll holdings = .ok entries ∧
      ∀ key registry, (key, registry) ∈ entries ↔ hub.lookup key = some registry := by
  have hmem : ∀ key holding, (key, holding) ∈ holdings ↔ hub.data[key]? = some holding :=
    fun _ _ => hperm.mem_iff.trans Std.ExtTreeMap.mem_toList_iff_getElem?_eq_some
  have hread : ∀ p ∈ holdings, ∃ registry, p.2.registry = .ok registry := by
    rintro ⟨key, holding⟩ hp
    exact h key holding ((hmem key holding).mp hp)
  obtain ⟨entries, hentries, hlisted⟩ := readAll_spec hread
  refine ⟨entries, hentries, ?_⟩
  intro key registry
  rw [hlisted]
  simp only [hmem, lookup, Option.bind_eq_some_iff]
  constructor
  · rintro ⟨holding, hdata, hr⟩
    exact ⟨holding, hdata, by simp [hr, Except.toOption]⟩
  · rintro ⟨holding, hdata, hr⟩
    obtain ⟨other, hother⟩ := h key holding hdata
    simp only [hother, Except.toOption, Option.some.injEq] at hr
    exact ⟨holding, hdata, hr ▸ hother⟩

/-- A legible hub lists what it holds. -/
theorem Legible.entries {hub : Hub L} (h : hub.Legible) : ∃ entries, hub.entries = .ok entries ∧
    ∀ key registry, (key, registry) ∈ entries ↔ hub.lookup key = some registry :=
  h.readAll (.refl _)

theorem data_addListener (hub : Hub L) (view : View) (listener : L) (includesValues : Bool) :
    (hub.addListener view listener includesValues).data = hub.data := by
  unfold addListener
  split
  · rfl
  · split <;> rfl

/-- Replacing the record of a member admits nobody. -/
theorem mem_members_insert {hub : Hub L} {node other : NodeId} {member : Member L}
    (hmember : hub.members[node]? = some member) (record : Member L) :
    other ∈ hub.members.insert node record ↔ other ∈ hub.members := by
  simp only [Std.ExtTreeMap.mem_insert, Std.LawfulEqOrd.compare_eq_iff_eq]
  constructor
  · rintro (rfl | hmem)
    · exact Std.ExtTreeMap.mem_iff_isSome_getElem?.mpr (by simp [hmember])
    · exact hmem
  · exact Or.inr

theorem mem_members_addListener {hub : Hub L} {view : View} {listener : L}
    {includesValues : Bool} {id : NodeId} :
    id ∈ (hub.addListener view listener includesValues).members ↔ id ∈ hub.members := by
  unfold addListener
  split
  · rfl
  · next member hmember =>
    split
    · exact mem_members_insert hmember _
    · rfl

variable (react : Reaction L σ)

private theorem mem_members_tell {event : CacheEvent} {nodes : List NodeId} {node : NodeId}
    {hub : Hub L} {world : σ} :
    node ∈ (tell react event nodes hub world).1.members ↔ node ∈ hub.members := by
  induction nodes generalizing hub world with
  | nil => rfl
  | cons first nodes ih =>
    unfold tell
    split
    · exact ih
    · next member hmember =>
      exact ih.trans (mem_members_insert hmember _)

@[simp] theorem mem_members_broadcast {hub : Hub L} {origin node : NodeId} {event : CacheEvent}
    {world : σ} : node ∈ (hub.broadcast react origin event world).1.members ↔
      node ∈ hub.members :=
  mem_members_tell react

theorem mem_members_put {hub : Hub L} {node member : NodeId} {key : Address} {value : Registry}
    {world : σ} : member ∈ (hub.put react node key value world).cache.members ↔
      member ∈ hub.members := by
  unfold put
  split <;> simp

theorem mem_members_takeOut {hub : Hub L} {key : Address} {origin : Holding → NodeId}
    {event : Registry → NodeId → CacheEvent} {member : NodeId} {world : σ} :
    member ∈ (hub.takeOut react key origin event world).cache.members ↔ member ∈ hub.members := by
  unfold takeOut
  split
  · rfl
  · split <;> simp

theorem mem_members_evictNode {hub : Hub L} {owner member : NodeId} {world : σ} :
    member ∈ (hub.evictNode react owner world).cache.members ↔ member ∈ hub.members := by
  simp [evictNode]

theorem answer_put (hub : Hub L) (node : NodeId) (key : Address) (value : Registry)
    (world : σ) : (hub.put react node key value world).answer = hub.get key := by
  unfold put
  split <;> simp [*]

theorem answer_takeOut (hub : Hub L) (key : Address) (origin : Holding → NodeId)
    (event : Registry → NodeId → CacheEvent) (world : σ) :
    (hub.takeOut react key origin event world).answer = hub.get key := by
  unfold takeOut Hub.get
  split
  · rfl
  · split <;> simp [*, Except.map]

end Hub

namespace LocalCache

variable {L σ : Type} (react : Reaction L σ) {c : LocalCache L}

theorem put_unheard (h : c.listeners.registrations = []) (key : Address) (value : Registry)
    (world : σ) : c.put react key value world =
      ⟨c.get? key, { c with data := c.data.insert key value }, world, []⟩ := by
  obtain ⟨name, node, data, ⟨nextId, registrations⟩, locks⟩ := c
  subst h
  rfl

theorem remove_unheard (h : c.listeners.registrations = []) (key : Address) (world : σ) :
    c.remove react key world =
      ⟨c.get? key, { c with data := c.data.erase key }, world, []⟩ := by
  obtain ⟨name, node, data, ⟨nextId, registrations⟩, locks⟩ := c
  subst h
  unfold remove
  split
  · next hnone =>
    have hsame : data.erase key = data := AddressMap.erase_eq_self hnone
    simp [hnone, hsame]
  · next old hold =>
    rw [hold]
    rfl

end LocalCache

end DirectedPresence
