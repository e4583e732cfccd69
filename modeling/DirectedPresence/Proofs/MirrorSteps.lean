import DirectedPresence.Proofs.IndexMirror

/-!
Writing and joining keep the mirrors. What a node tracks is written edit by edit, and every edit is
upkeep. A node that joins refills the hub, seeds its index from what the hub holds then, and listens
from then on. `Fabric.Mirrored` is the invariant of a whole fabric.
-/

namespace DirectedPresence

namespace Hub

variable {hub hub' : Hub Feed} {node : NodeId}

theorem Listens.congr (h : hub.Listens node)
    (hmember : hub'.members[node]? = hub.members[node]?) : hub'.Listens node := by
  obtain ⟨ticket, nextId, id, name, hfound⟩ := h
  exact ⟨ticket, nextId, id, name, hmember.trans hfound⟩

end Hub

namespace Seat

variable {host : Address → NodeId} {env : Environment} {serves : NodeId → Address → Bool}
  {notices notices' : Notices} {seat seat' : Seat}

/-! ## Writes -/

private theorem Sound.upkeep_edit (h : seat.Sound host)
    (henv : ∀ node, (env node).routes.isLocal = serves node)
    (hlisten : seat.fabric.hub.HeardBy seat.node.id)
    (hheard : seat.node.id ∈ seat.fabric.hub.members → ∀ node, notices seat.node.id node = none)
    (hedit : Edit env host seat seat') :
    Fabric.Upkeep serves notices notices seat.node.id seat.fabric seat'.fabric := by
  rcases h.steady.fabric_edit hedit with hsame | ⟨view, sender, backing, hosted, hwritten⟩
  · rw [hsame]
    exact .refl _
  · have present : seat.node.id ∈ seat.fabric.hub.members := h.present_of_view backing
    rcases hwritten with ⟨registry, hput⟩ | hremove
    · rw [hput]
      exact h.held.upkeep_put henv hlisten (hheard present) hosted registry
    · rw [hremove, ← hosted]
      refine h.held.upkeep_takeOut henv (hosted ▸ hlisten) (fun _ => hosted ▸ hheard present)
        (fun _ _ => rfl) (fun _ _ _ => rfl) ?_
      intro old isLocal index peer key
      exact ReverseIndex.receivers?_noted_removed old peer key

theorem Sound.upkeep_edits (h : seat.Sound host)
    (henv : ∀ node, (env node).routes.isLocal = serves node)
    (hlisten : seat.fabric.hub.HeardBy seat.node.id)
    (hheard : seat.node.id ∈ seat.fabric.hub.members → ∀ node, notices seat.node.id node = none)
    (hedits : Edits env host seat seat') :
    Fabric.Upkeep serves notices notices seat.node.id seat.fabric seat'.fabric := by
  induction hedits with
  | refl => exact .refl _
  | tail hedits hedit ih =>
    have hid := (Edits.sameNode hedits).id
    rw [← hid]
    refine (hid ▸ ih).trans ((h.edits hedits).upkeep_edit henv ?_ ?_ hedit)
    · intro node hmember hne
      rw [ih.members] at hmember
      exact (hlisten node hmember (hid ▸ hne)).congr (by rw [ih.members])
    · intro hmember
      rw [hid, ih.members] at hmember
      exact hid ▸ hheard hmember

end Seat

/-! ## Seeding -/

namespace ReverseIndex

variable {isLocal : Address → Bool} {self peer : NodeId} {sender : Address}
  {entries : List (Address × Registry)} {index : ReverseIndex}

theorem Compact.seed (h : index.Compact) : (seed isLocal self entries index).Compact := by
  induction entries generalizing index with
  | nil => exact h
  | cons p rest ih =>
    unfold ReverseIndex.seed
    apply ih
    split
    · exact h
    · split
      · exact h
      · exact h.upsert _ _ _

/-- What a registry shows of a peer when an index is seeded with it. -/
def shown (isLocal : Address → Bool) (self peer : NodeId) (registry : Registry) :
    Option AddressSet :=
  if registry.origin? = some peer ∧ peer ≠ self then registry.localReceivers? isLocal else none

theorem seed_cons (p : Address × Registry) :
    seed isLocal self (p :: entries) index =
      seed isLocal self entries (seed isLocal self [p] index) := rfl

private theorem receivers?_seed_one (first : Address) (registry : Registry) :
    (seed isLocal self [(first, registry)] index).receivers? peer sender =
      (if first = sender then shown isLocal self peer registry else none).or
        (index.receivers? peer sender) := by
  unfold shown Registry.localReceivers?
  simp only [seed]
  cases registry.origin? with
  | none => simp
  | some origin =>
    simp only
    by_cases hself : origin = self
    · have hnone : ¬ (some origin = some peer ∧ peer ≠ self) := by
        rintro ⟨hpeer, hne⟩
        exact hne (Option.some.inj hpeer ▸ hself)
      rw [if_pos hself, if_neg hnone, ite_self, Option.none_or]
    · rw [if_neg hself, receivers?_upsert]
      cases hempty : (registry.receiversWhere isLocal).isEmpty with
      | true => simp
      | false =>
        by_cases hpeer : origin = peer
        · have hne : peer ≠ self := hpeer ▸ hself
          by_cases hkey : first = sender <;> simp [hpeer, hkey, hne]
        · simp [hpeer]

/-- Seeding gives a listed sender what its registry shows, and leaves the others as they were. -/
theorem receivers?_seed {value : Option AddressSet}
    (hlisted : ∀ registry, (sender, registry) ∈ entries → shown isLocal self peer registry = value)
    (hunlisted : (∀ registry, (sender, registry) ∉ entries) → value = none) :
    (seed isLocal self entries index).receivers? peer sender =
      value.or (index.receivers? peer sender) := by
  induction entries generalizing index value with
  | nil =>
    rw [hunlisted (by simp)]
    rfl
  | cons p rest ih =>
    obtain ⟨first, registry⟩ := p
    rw [seed_cons]
    have hrest : ∀ other, (sender, other) ∈ rest → shown isLocal self peer other = value :=
      fun other hmem => hlisted other (by simp [hmem])
    by_cases hmore : ∃ other, (sender, other) ∈ rest
    · rw [ih hrest fun hnone => absurd hmore (by simpa using hnone), receivers?_seed_one]
      by_cases hfirst : first = sender
      · rw [if_pos hfirst, hlisted registry (by simp [hfirst]), ← Option.or_assoc, Option.or_self]
      · rw [if_neg hfirst, Option.none_or]
    · have hnone : ∀ other, (sender, other) ∉ rest := by simpa using hmore
      rw [ih (fun other hmem => absurd hmem (hnone other)) fun _ => rfl, Option.none_or,
        receivers?_seed_one]
      by_cases hfirst : first = sender
      · rw [if_pos hfirst, hlisted registry (by simp [hfirst])]
      · rw [if_neg hfirst, Option.none_or, hunlisted, Option.none_or]
        intro other hmem
        rcases List.mem_cons.mp hmem with heq | hother
        · exact hfirst (Prod.mk.inj heq).1.symm
        · exact hnone other hother

end ReverseIndex

private theorem Registry.Proper.origin?_eq {r : Registry} {node : NodeId} (h : r.Proper node) :
    r.origin? = some node := by
  have hnonempty := h.nonempty
  have hrecorded := h.recorded
  obtain ⟨entries⟩ := r
  cases entries with
  | nil => simp [isEmpty] at hnonempty
  | cons e es => exact congrArg some (hrecorded e (by simp))

namespace Seat

variable {host : Address → NodeId} {env : Environment} {isLocal : Address → Bool}
  {serves : NodeId → Address → Bool} {notices : Notices} {seat : Seat} {index : ReverseIndex}

/-- Seeding shows of each sender what the hub holds of it. -/
theorem receivers?_seed_lookup {hub : Hub Feed} {self peer : NodeId}
    {entries : List (Address × Registry)}
    (hentries : ∀ key registry, (key, registry) ∈ entries ↔ hub.lookup key = some registry)
    (sender : Address) :
    (ReverseIndex.seed isLocal self entries index).receivers? peer sender =
      ((hub.lookup sender).bind (ReverseIndex.shown isLocal self peer)).or
        (index.receivers? peer sender) := by
  apply ReverseIndex.receivers?_seed
  · intro registry hmem
    rw [(hentries sender registry).mp hmem, Option.bind_some]
  · intro hunlisted
    cases hlookup : hub.lookup sender with
    | none => rfl
    | some registry => exact absurd ((hentries sender registry).mpr hlookup) (hunlisted registry)

/-- The first entry of a registry tells its host, so a registry is shown under its owner. -/
theorem Sound.shown_lookup (h : seat.Sound host) (self peer : NodeId) (sender : Address) :
    (seat.fabric.hub.lookup sender).bind (ReverseIndex.shown isLocal self peer) =
      if peer ≠ self then (seat.fabric.hub.estate peer sender).bind (·.localReceivers? isLocal)
      else none := by
  rw [h.held.estate_eq]
  cases hlookup : seat.fabric.hub.lookup sender with
  | none => simp
  | some registry =>
    rw [Option.bind_some, ReverseIndex.shown, (h.steady.lookup_proper hlookup).origin?_eq]
    by_cases howner : host sender = peer
    · simp [howner]
    · simp [howner]

/-- Seeded with what the hub holds, the index of a member mirrors its claims, if it did before or
was blank. -/
theorem Sound.mirrors_seed (h : seat.Sound host) {entries : List (Address × Registry)}
    (hentries : ∀ key registry, (key, registry) ∈ entries ↔
      seat.fabric.hub.lookup key = some registry)
    (hmember : seat.node.id ∈ seat.fabric.hub.members)
    (hnoticed : ∀ peer estate, notices peer seat.node.id = some estate →
      peer ∉ seat.fabric.hub.members)
    (hbefore : ∀ peer sender,
      index.receivers? peer sender =
          (seat.fabric.hub.claims notices seat.node.id peer sender).bind
            (·.localReceivers? isLocal) ∨
        index.receivers? peer sender = none ∧ notices peer seat.node.id = none) :
    (ReverseIndex.seed isLocal seat.node.id entries index).Mirrors isLocal
      (seat.fabric.hub.claims notices seat.node.id) := by
  intro peer sender
  rw [receivers?_seed_lookup hentries, h.shown_lookup]
  by_cases hself : peer = seat.node.id
  · have hnot : ¬ peer ≠ seat.node.id := fun hne => hne hself
    rw [if_neg hnot, Option.none_or]
    rcases hbefore peer sender with hmirrors | ⟨hblank, -⟩
    · exact hmirrors
    · rw [hblank, hself, Hub.claims_self]
      rfl
  · rw [if_pos hself]
    cases hnotice : notices peer seat.node.id with
    | none =>
      rw [Hub.claims_of_heard seat.fabric.hub hmember hself hnotice]
      rcases hbefore peer sender with hmirrors | ⟨hblank, -⟩
      · rw [hmirrors, Hub.claims_of_heard seat.fabric.hub hmember hself hnotice, Option.or_self]
      · rw [hblank, Option.or_none]
    | some estate =>
      -- the peer has departed and the hub has nothing of it: the seed leaves the old mirror alone
      rw [h.held.estate_of_absent (hnoticed peer estate hnotice), Option.bind_none,
        Option.none_or]
      rcases hbefore peer sender with hmirrors | ⟨-, hheard⟩
      · exact hmirrors
      · cases hheard.symm.trans hnotice

end Seat

/-! ## Mirrored fabrics -/

/-- All members listen, and every index but those of crashed nodes mirrors its claims. -/
structure Fabric.Mirrored (serves : NodeId → Address → Bool) (notices : Notices)
    (crashed : NodeId → Prop) (fabric : Fabric) : Prop where
  listening : ∀ node ∈ fabric.hub.members, fabric.hub.Listens node
  noticed : ∀ peer watcher estate, notices peer watcher = some estate →
    peer ∉ fabric.hub.members ∧ watcher ∈ fabric.hub.members
  gone : ∀ node, crashed node → node ∉ fabric.hub.members
  compact : ∀ node, (fabric.index node).Compact
  mirrors : ∀ node, ¬ crashed node →
    (fabric.index node).Mirrors (serves node) (fabric.hub.claims notices node)

namespace Fabric

variable {serves : NodeId → Address → Bool} {notices notices' : Notices}
  {crashed : NodeId → Prop} {before after : Fabric} {origin : NodeId}

theorem index_setIndex (fabric : Fabric) (node other : NodeId) (index : ReverseIndex) :
    (fabric.setIndex node index).index other =
      if node = other then index else fabric.index other := by
  by_cases heq : node = other
  · simp [setIndex, Fabric.index, heq]
  · simp [setIndex, Fabric.index, Std.ExtTreeMap.getElem?_insert, heq]

theorem Mirrored.heardBy (h : before.Mirrored serves notices crashed) (origin : NodeId) :
    before.hub.HeardBy origin :=
  fun node hmember _ => h.listening node hmember

theorem Mirrored.unnoticed (h : before.Mirrored serves notices crashed) {peer : NodeId}
    (hmember : peer ∈ before.hub.members) (watcher : NodeId) : notices peer watcher = none := by
  rw [Option.eq_none_iff_forall_not_mem]
  intro estate hnotice
  exact (h.noticed peer watcher estate hnotice).1 hmember

theorem Mirrored.upkeep (h : before.Mirrored serves notices crashed)
    (hupkeep : Upkeep serves notices notices' origin before after)
    (hnotices : ∀ peer watcher, (notices' peer watcher).isSome = (notices peer watcher).isSome) :
    after.Mirrored serves notices' crashed where
  listening := by
    intro node hmember
    rw [hupkeep.members] at hmember
    exact (h.listening node hmember).congr (by rw [hupkeep.members])
  noticed := by
    intro peer watcher estate hnotice
    have hsome : (notices peer watcher).isSome = true := by
      rw [← hnotices, hnotice]
      rfl
    obtain ⟨old, hold⟩ := Option.isSome_iff_exists.mp hsome
    rw [hupkeep.members]
    exact h.noticed peer watcher old hold
  gone := by
    intro node hcrashed
    rw [hupkeep.members]
    exact h.gone node hcrashed
  compact := fun node => hupkeep.compact node (h.compact node)
  mirrors := fun node halive => hupkeep.mirrors node (h.mirrors node halive)

end Fabric

namespace Seat

variable {host : Address → NodeId} {env : Environment} {serves : NodeId → Address → Bool}
  {notices notices' : Notices} {crashed : NodeId → Prop} {seat : Seat}

/-! ## Joining -/

theorem getElem?_members_entered {node : NodeId} (hne : node ≠ seat.node.id) :
    (seat.entered env).fabric.hub.members[node]? = seat.fabric.hub.members[node]? := by
  have hne' : ¬ seat.node.id = node := fun heq => hne heq.symm
  simp [entered, Hub.join, setPhase, setCache, Std.ExtTreeMap.getElem?_insert, hne']

theorem getElem?_members_entered_self :
    (seat.entered env).fabric.hub.members[seat.node.id]? = some ⟨seat.fabric.hub.joins, {}⟩ := by
  simp [entered, Hub.join, setPhase, setCache]

private theorem Sound.upkeep_refilled (h : seat.Sound host)
    (henv : ∀ node, (env node).routes.isLocal = serves node)
    (hplain : (env seat.node.id).viewFaults = Faults.none)
    (hlisten : seat.fabric.hub.HeardBy seat.node.id)
    (hheard : ∀ node, notices seat.node.id node = none) :
    Fabric.Upkeep serves notices notices seat.node.id (seat.entered env).fabric
      (seat.refilled env).fabric := by
  refine (h.entered hplain).upkeep_edits henv ?_ (fun _ => hheard) h.steady.edits_refilled
  intro node hmember hne
  have hne' : node ≠ seat.node.id := hne
  have hold : node ∈ seat.fabric.hub.members :=
    (mem_members_entered.mp hmember).resolve_left hne'
  exact (hlisten node hold hne').congr (getElem?_members_entered hne')

/-- Entering the hub changes the claims of no other node, nor those of a node that is in it. -/
theorem claims_entered {node peer : NodeId} {sender : Address}
    (hmember : node ≠ seat.node.id ∨ seat.node.id ∈ seat.fabric.hub.members) :
    (seat.entered env).fabric.hub.claims notices node peer sender =
      seat.fabric.hub.claims notices node peer sender := by
  refine Hub.claims_congr ?_ rfl rfl
  rw [mem_members_entered]
  rcases hmember with hne | hin
  · simp [hne]
  · constructor
    · rintro (rfl | hold)
      · exact hin
      · exact hold
    · exact Or.inr

/-- A member lists what the hub holds. -/
theorem Sound.entries_member (h : seat.Sound host)
    (hmember : seat.node.id ∈ seat.fabric.hub.members) : ∃ entries,
    seat.entries = .ok entries ∧ ∀ key registry,
      (key, registry) ∈ entries ↔ seat.fabric.hub.lookup key = some registry := by
  have hfault : seat.node.cache.faults.entries = false := by rw [h.faultless]; rfl
  cases h.posture with
  | alone _ _ _ _ absent => exact absurd hmember absent
  | member view backing =>
    obtain ⟨entries, hentries, hmem⟩ := h.held.legible.entries
    refine ⟨entries, ?_, hmem⟩
    simp only [Seat.entries, hfault, backing, hentries, Bool.false_eq_true, if_false]

/-- What joining makes of the fabric, once the hub was refilled. -/
theorem Sound.fabric_join (h : seat.Sound host)
    (hplain : (env seat.node.id).viewFaults = Faults.none)
    (hvalued : seat.node.settings.includeValues = true)
    (hmember : seat.node.id ∈ (seat.refilled env).fabric.hub.members) : ∃ entries name,
    (∀ key registry, (key, registry) ∈ entries ↔
      (seat.refilled env).fabric.hub.lookup key = some registry) ∧
    (seat.join env).seat.fabric =
      { (seat.refilled env).fabric.setIndex seat.node.id
          (ReverseIndex.seed (env seat.node.id).routes.isLocal seat.node.id entries
            ((seat.refilled env).fabric.index seat.node.id)) with
        hub := (seat.refilled env).fabric.hub.addListener
          (seat.fabric.hub.join seat.node.id).2 ⟨name, seat.node.id⟩ true } := by
  have hedits : Edits env host (seat.entered env) (seat.refilled env) := h.steady.edits_refilled
  have hrefilled := (h.entered hplain).edits hedits
  have hid : (seat.refilled env).node.id = seat.node.id := (Edits.sameNode hedits).id
  have hsettings : (seat.refilled env).node.settings = seat.node.settings :=
    (Edits.sameNode hedits).settings
  obtain ⟨entries, hentries, hmem⟩ := hrefilled.entries_member (hid ▸ hmember)
  refine ⟨entries, seat.node.settings.listenerName, hmem, ?_⟩
  rw [seat_join]
  simp only [seedIndex, hentries, listen, setPhase, services, hid, hsettings, hvalued]
  rfl

/-- The listener of a node that has just joined is its one listener. -/
theorem listens_addListener {hub : Hub Feed} {node : NodeId} {ticket : Nat} {name : String}
    (hmember : hub.members[node]? = some ⟨ticket, {}⟩) :
    (hub.addListener ⟨node, ticket⟩ ⟨name, node⟩ true).Listens node := by
  refine ⟨ticket, 1, 0, name, ?_⟩
  simp [Hub.addListener, hmember, Listeners.add]

theorem getElem?_members_addListener {hub : Hub Feed} {view : View} {feed : Feed}
    {node : NodeId} (hne : node ≠ view.node) :
    (hub.addListener view feed true).members[node]? = hub.members[node]? := by
  have hne' : ¬ view.node = node := fun heq => hne heq.symm
  unfold Hub.addListener
  split
  · rfl
  · split
    · simp [Std.ExtTreeMap.getElem?_insert, hne']
    · rfl

/-- A listener has no claims of its own. -/
theorem claims_addListener {hub : Hub Feed} {view : View} {feed : Feed} {node peer : NodeId}
    {sender : Address} :
    (hub.addListener view feed true).claims notices node peer sender =
      hub.claims notices node peer sender :=
  Hub.claims_congr Hub.mem_members_addListener rfl
    (Hub.estate_congr (congrArg (·[sender]?) (Hub.data_addListener _ _ _ _)) peer)

section Refilled

variable (h : seat.Sound host) (hm : seat.fabric.Mirrored serves notices crashed)
  (henv : ∀ node, (env node).routes.isLocal = serves node)
  (hplain : (env seat.node.id).viewFaults = Faults.none)
  (hheard : ∀ node, notices seat.node.id node = none)

include h hplain

theorem Sound.mem_members_refilled {node : NodeId} :
    node ∈ (seat.refilled env).fabric.hub.members ↔
      node = seat.node.id ∨ node ∈ seat.fabric.hub.members := by
  have hedits : Edits env host (seat.entered env) (seat.refilled env) := h.steady.edits_refilled
  rw [(h.entered hplain).steady.mem_members_edits hedits, mem_members_entered]

include hm hheard

/-- As all have heard of the departures of a node, its return invalidates no notice. -/
theorem Sound.noticed_refilled {peer watcher : NodeId} {estate : Estate}
    (hnotice : notices peer watcher = some estate) :
    peer ∉ (seat.refilled env).fabric.hub.members ∧
      watcher ∈ (seat.refilled env).fabric.hub.members := by
  obtain ⟨hpeer, hwatcher⟩ := hm.noticed peer watcher estate hnotice
  rw [h.mem_members_refilled hplain, h.mem_members_refilled hplain]
  refine ⟨?_, Or.inr hwatcher⟩
  rintro (rfl | hold)
  · rw [hheard] at hnotice
    cases hnotice
  · exact hpeer hold

include henv

/-- The mirrors are kept for all nodes but one that has just entered. -/
theorem Sound.mirrors_refilled {node : NodeId} (halive : ¬ crashed node)
    (hmember : node ≠ seat.node.id ∨ seat.node.id ∈ seat.fabric.hub.members) :
    ((seat.refilled env).fabric.index node).Mirrors (serves node)
      ((seat.refilled env).fabric.hub.claims notices node) := by
  have hupkeep : Fabric.Upkeep serves notices notices seat.node.id (seat.entered env).fabric
      (seat.refilled env).fabric :=
    h.upkeep_refilled henv hplain (hm.heardBy _) hheard
  apply hupkeep.mirrors node
  exact (hm.mirrors node halive).congr fun _ _ => claims_entered hmember

/-- The index of the node itself mirrors too, or it is blank and nothing is owed to it. -/
theorem Sound.mirrors_refilled_or_blank (halive : ¬ crashed seat.node.id) (peer : NodeId)
    (sender : Address) :
    ((seat.refilled env).fabric.index seat.node.id).receivers? peer sender =
        ((seat.refilled env).fabric.hub.claims notices seat.node.id peer sender).bind
          (·.localReceivers? (serves seat.node.id)) ∨
      ((seat.refilled env).fabric.index seat.node.id).receivers? peer sender = none ∧
        notices peer seat.node.id = none := by
  by_cases hold : seat.node.id ∈ seat.fabric.hub.members
  · exact Or.inl (h.mirrors_refilled hm henv hplain hheard halive (Or.inr hold) peer sender)
  · have hown : (seat.refilled env).fabric.index seat.node.id = seat.fabric.index seat.node.id :=
      (h.upkeep_refilled henv hplain (hm.heardBy _) hheard).own
    refine Or.inr ⟨?_, ?_⟩
    · rw [hown, hm.mirrors seat.node.id halive peer sender, Hub.claims_of_absent hold]
      rfl
    · rw [Option.eq_none_iff_forall_not_mem]
      exact fun estate hnotice => hold (hm.noticed peer _ estate hnotice).2

end Refilled

/-- A node that joins mirrors the hub from then on, and is mirrored. -/
theorem Sound.mirrored_join (h : seat.Sound host)
    (hm : seat.fabric.Mirrored serves notices crashed)
    (henv : ∀ node, (env node).routes.isLocal = serves node)
    (hplain : (env seat.node.id).viewFaults = Faults.none)
    (hvalued : seat.node.settings.includeValues = true)
    (hheard : ∀ node, notices seat.node.id node = none) (halive : ¬ crashed seat.node.id) :
    (seat.join env).seat.fabric.Mirrored serves notices crashed := by
  have hupkeep : Fabric.Upkeep serves notices notices seat.node.id (seat.entered env).fabric
      (seat.refilled env).fabric :=
    h.upkeep_refilled henv hplain (hm.heardBy _) hheard
  have hin : seat.node.id ∈ (seat.refilled env).fabric.hub.members :=
    (h.mem_members_refilled hplain).mpr (Or.inl rfl)
  obtain ⟨entries, name, hentries, hfabric⟩ := h.fabric_join hplain hvalued hin
  have hseeded : (ReverseIndex.seed (serves seat.node.id) seat.node.id entries
      ((seat.refilled env).fabric.index seat.node.id)).Mirrors (serves seat.node.id)
        ((seat.refilled env).fabric.hub.claims notices seat.node.id) := by
    have hedits : Edits env host (seat.entered env) (seat.refilled env) := h.steady.edits_refilled
    have hid : (seat.refilled env).node.id = seat.node.id := (Edits.sameNode hedits).id
    have hbefore := h.mirrors_refilled_or_blank hm henv hplain hheard halive
    rw [← hid] at hin hbefore ⊢
    exact ((h.entered hplain).edits hedits).mirrors_seed hentries hin
      (fun peer estate hnotice => (h.noticed_refilled hm hplain hheard hnotice).1) hbefore
  rw [hfabric, henv]
  refine ⟨?_, ?_, ?_, ?_, ?_⟩
  · intro node hmember
    have hmem := (h.mem_members_refilled hplain).mp (Hub.mem_members_addListener.mp hmember)
    by_cases hnode : node = seat.node.id
    · rw [hnode]
      apply listens_addListener
      rw [hupkeep.members]
      exact getElem?_members_entered_self
    · apply (hm.listening node (hmem.resolve_left hnode)).congr
      exact (getElem?_members_addListener hnode).trans
        ((congrArg (·[node]?) hupkeep.members).trans (getElem?_members_entered hnode))
  · intro peer watcher estate hnotice
    rw [Hub.mem_members_addListener, Hub.mem_members_addListener]
    exact h.noticed_refilled hm hplain hheard hnotice
  · intro node hcrashed hmem
    rw [Hub.mem_members_addListener, h.mem_members_refilled hplain] at hmem
    rcases hmem with rfl | hold
    · exact halive hcrashed
    · exact hm.gone node hcrashed hold
  · intro node
    show ((Fabric.setIndex _ _ _).index node).Compact
    rw [Fabric.index_setIndex]
    split
    · exact (hupkeep.compact _ (hm.compact _)).seed
    · exact hupkeep.compact node (hm.compact node)
  · intro node hnode
    show ((Fabric.setIndex _ _ _).index node).Mirrors _ _
    rw [Fabric.index_setIndex]
    split
    · next heq =>
      subst heq
      exact hseeded.congr fun _ _ => claims_addListener
    · next hne =>
      have hothers := h.mirrors_refilled hm henv hplain hheard hnode
        (Or.inl fun heq => hne heq.symm)
      exact hothers.congr fun _ _ => claims_addListener

end Seat

end DirectedPresence
