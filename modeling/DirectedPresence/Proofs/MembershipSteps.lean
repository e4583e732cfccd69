import DirectedPresence.Proofs.OperationEdits

/-!
A change of membership keeps a seat steady, and a sound seat sound. Joining and leaving are taken
apart into the change of the hub, the refilling of the new cache from the store, which is a sequence
of edits, and what is done to the node's reverse index. `Seat.Frame` says what an operation of one
node leaves alone for all others: who else is a member, and the holdings of senders that live
elsewhere.
-/

namespace DirectedPresence.Seat

variable {host : Address → NodeId} {env : Environment} {seat seat' : Seat}

/-- The phase of a node that is not in the middle of a change of membership. -/
def Settled (seat : Seat) : Prop :=
  seat.node.phase = if seat.node.cache.isClustered then .clustered else .standalone

/-- What an operation of one node leaves alone for the others. -/
structure Frame (host : Address → NodeId) (before after : Seat) : Prop where
  server : after.node.server = before.node.server
  settings : after.node.settings = before.node.settings
  members : ∀ id, id ≠ before.node.id →
    (id ∈ after.fabric.hub.members ↔ id ∈ before.fabric.hub.members)
  data : ∀ sender, host sender ≠ before.node.id →
    after.fabric.hub.data[sender]? = before.fabric.hub.data[sender]?

theorem Frame.refl (seat : Seat) : Frame host seat seat :=
  ⟨rfl, rfl, fun _ _ => Iff.rfl, fun _ _ => rfl⟩

theorem Frame.id (h : Frame host seat seat') : seat'.node.id = seat.node.id := by
  rw [Node.id, h.server, Node.id]

theorem Frame.trans {a b c : Seat} (hab : Frame host a b) (hbc : Frame host b c) :
    Frame host a c := by
  have hid := hab.id
  refine ⟨hbc.server.trans hab.server, hbc.settings.trans hab.settings, ?_, ?_⟩
  · intro id hne
    exact (hbc.members id (hid ▸ hne)).trans (hab.members id hne)
  · intro sender hne
    exact (hbc.data sender (hid ▸ hne)).trans (hab.data sender hne)

theorem Steady.frame (h : seat.Steady host) (hedits : Edits env host seat seat') :
    Frame host seat seat' :=
  ⟨(Edits.sameNode hedits).server, (Edits.sameNode hedits).settings,
    fun id _ => h.mem_members_edits hedits id, fun _ helse => h.data_edits hedits helse⟩

/-- Steadiness is about the server, the store, the cache, and the hub's holdings. -/
theorem Steady.congr (h : seat.Steady host) (hserver : seat'.node.server = seat.node.server)
    (hstore : seat'.node.store = seat.node.store) (hcache : seat'.node.cache = seat.node.cache)
    (hdata : seat'.fabric.hub.data = seat.fabric.hub.data) : seat'.Steady host := by
  have hid : seat'.node.id = seat.node.id := by rw [Node.id, hserver, Node.id]
  refine ⟨by rw [hcache]; exact h.faultless, by rw [hserver]; exact h.awake, ?_, ?_, ?_, ?_⟩
  · cases h.stance with
    | alone cache backing owner unheard unheld =>
      refine .alone cache (by rw [hcache]; exact backing) (by rw [hid]; exact owner) unheard ?_
      rw [hid, hdata]
      exact unheld
    | viewing view backing owner =>
      exact .viewing view (by rw [hcache]; exact backing) (by rw [hid]; exact owner)
  · rw [hstore, hid]
    exact h.stored
  · rw [hcache, hid]
    exact h.own
  · intro sender holding hholding
    exact h.written sender holding (hdata ▸ hholding)

theorem Enrolled.congr (h : seat.Enrolled host) (hserver : seat'.node.server = seat.node.server)
    (hcache : seat'.node.cache = seat.node.cache)
    (hdata : seat'.fabric.hub.data = seat.fabric.hub.data)
    (hmembers : ∀ id, id ∈ seat'.fabric.hub.members ↔ id ∈ seat.fabric.hub.members) :
    seat'.Enrolled host := by
  constructor
  · rw [Node.id, hserver, hmembers, hcache]
    exact h.joined
  · intro sender holding hholding
    rw [hmembers]
    exact h.hosts sender holding (hdata ▸ hholding)

theorem SameNode.settled (h : SameNode seat seat') (hsettled : seat.Settled) :
    seat'.Settled := by
  rw [Settled, h.phase, h.isClustered]
  exact hsettled

/-! ## Joining -/

/-- The seat of a node that has entered the hub, before it has written anything there. -/
def entered (env : Environment) (seat : Seat) : Seat :=
  ({ seat with fabric :=
      { seat.fabric with hub := (seat.fabric.hub.join seat.node.id).1 } }.setPhase
    .joining).setCache
    ⟨.clustered (seat.fabric.hub.join seat.node.id).2, (seat.services env).viewFaults⟩

/-- The seat of a node that has entered the hub and refilled it from its store. -/
def refilled (env : Environment) (seat : Seat) : Seat :=
  (restore env seat.node.store.toList (seat.entered env)).seat

theorem seat_join (env : Environment) (seat : Seat) : (seat.join env).seat =
    ((((seat.refilled env).seedIndex env).seat).listen
      (seat.fabric.hub.join seat.node.id).2).seat.setPhase .clustered := rfl

theorem mem_members_entered {id : NodeId} :
    id ∈ (seat.entered env).fabric.hub.members ↔
      id = seat.node.id ∨ id ∈ seat.fabric.hub.members := by
  rw [@eq_comm _ id seat.node.id]
  simp only [entered, Hub.join, setPhase, setCache, Std.ExtTreeMap.mem_insert,
    Std.LawfulEqOrd.compare_eq_iff_eq]

theorem Steady.entered (h : seat.Steady host)
    (hplain : (env seat.node.id).viewFaults = Faults.none) : (seat.entered env).Steady host where
  faultless := hplain
  awake := h.awake
  stance := .viewing _ rfl rfl
  stored := h.stored
  own := by
    rintro cache _ _ ⟨⟩
  written := h.written

private theorem Enrolled.entered (h : seat.Enrolled host) : (seat.entered env).Enrolled host where
  joined := iff_of_true (mem_members_entered.mpr (Or.inl rfl)) rfl
  hosts := fun sender holding hholding =>
    mem_members_entered.mpr (Or.inr (h.hosts sender holding hholding))

theorem Sound.entered (h : seat.Sound host)
    (hplain : (env seat.node.id).viewFaults = Faults.none) : (seat.entered env).Sound host :=
  sound_iff.mpr ⟨h.steady.entered hplain, (sound_iff.mp h).2.entered⟩

private theorem frame_entered : Frame host seat (seat.entered env) where
  server := rfl
  settings := rfl
  members := by
    intro id hne
    rw [mem_members_entered]
    simp [hne]
  data := fun _ _ => rfl

theorem Steady.edits_refilled (h : seat.Steady host) :
    Edits env host (seat.entered env) (seat.refilled env) :=
  edits_restore fun _ hp => h.hosted_of_mem_toList hp

/-- Seeding the index touches nothing but the index. -/
theorem seat_seedIndex (env : Environment) (seat : Seat) :
    ∃ indexes, (seat.seedIndex env).seat =
      { seat with fabric := { seat.fabric with indexes } } := by
  unfold seedIndex
  split
  · exact ⟨seat.fabric.indexes, rfl⟩
  · exact ⟨_, rfl⟩

private theorem Steady.join (h : seat.Steady host)
    (hplain : (env seat.node.id).viewFaults = Faults.none) :
    (seat.join env).seat.Steady host ∧ Frame host seat (seat.join env).seat := by
  have hentered : (seat.entered env).Steady host := h.entered hplain
  have hedits : Edits env host (seat.entered env) (seat.refilled env) := h.edits_refilled
  have hframe := frame_entered.trans (hentered.frame hedits)
  obtain ⟨indexes, hseed⟩ := seat_seedIndex env (seat.refilled env)
  rw [seat_join, hseed]
  constructor
  · exact (hentered.edits hedits).congr rfl rfl rfl (Hub.data_addListener _ _ _ _)
  · refine hframe.trans ⟨rfl, rfl, ?_, ?_⟩
    · exact fun id _ => Hub.mem_members_addListener
    · intro sender _
      exact congrArg (·[sender]?) (Hub.data_addListener _ _ _ _)

private theorem Enrolled.join (henrolled : seat.Enrolled host) (h : seat.Steady host)
    (hplain : (env seat.node.id).viewFaults = Faults.none) :
    (seat.join env).seat.Enrolled host := by
  have hrefilled : (seat.refilled env).Enrolled host :=
    henrolled.entered.edits (h.entered hplain) h.edits_refilled
  obtain ⟨indexes, hseed⟩ := seat_seedIndex env (seat.refilled env)
  rw [seat_join, hseed]
  exact hrefilled.congr rfl rfl (Hub.data_addListener _ _ _ _) fun id => Hub.mem_members_addListener

private theorem Steady.settled_join (h : seat.Steady host) : (seat.join env).seat.Settled := by
  have hedits : Edits env host (seat.entered env) (seat.refilled env) := h.edits_refilled
  have hclustered : (seat.refilled env).node.cache.isClustered = true :=
    (Edits.sameNode hedits).isClustered
  obtain ⟨indexes, hseed⟩ := seat_seedIndex env (seat.refilled env)
  rw [seat_join, hseed]
  show Phase.clustered = _
  simp [listen, setPhase, hclustered]

/-! ## Leaving -/

def index (seat : Seat) : ReverseIndex :=
  seat.fabric.index seat.node.id

def withIndex (seat : Seat) (index : ReverseIndex) : Seat :=
  { seat with fabric := seat.fabric.setIndex seat.node.id index }

/-- The seat of a node that has left the hub and has an empty cache of its own. -/
def detached (seat : Seat) : Seat :=
  ({ seat with fabric :=
      { seat.fabric with hub := seat.fabric.hub.leave seat.node.id } }.setPhase
    .leaving).setCache
    (Node.freshCache seat.node.server seat.node.settings)

/-- The seat of a node that has left the hub and refilled its own cache from its store. -/
def recovered (env : Environment) (seat : Seat) : Seat :=
  (restore env seat.node.store.toList seat.detached).seat

theorem seat_leave (env : Environment) (hawake : seat.node.server.shuttingDown = false) :
    (seat.leave env).seat = ((seat.recovered env).withIndex
      (((seat.recovered env).index.nodesDown ((seat.recovered env).services env).router
        (seat.recovered env).index.nodeIds).1)).setPhase .standalone := by
  simp only [leave, hawake, Bool.false_eq_true, if_false]
  rfl

theorem mem_members_detached {id : NodeId} : id ∈ seat.detached.fabric.hub.members ↔
    id ≠ seat.node.id ∧ id ∈ seat.fabric.hub.members := by
  rw [ne_comm]
  simp only [detached, Hub.leave, setPhase, setCache, Std.ExtTreeMap.mem_erase, ne_eq,
    Std.LawfulEqOrd.compare_eq_iff_eq]

private theorem data_detached (sender : Address) : seat.detached.fabric.hub.data[sender]? =
    seat.fabric.hub.data[sender]?.filter (·.owner ≠ seat.node.id) :=
  Hub.getElem?_withoutOwner seat.fabric.hub.data seat.node.id sender

/-- A holding that is left is one of a sender that lives elsewhere. -/
theorem Steady.data_detached (h : seat.Steady host) {sender : Address} {holding : Holding}
    (hleft : seat.detached.fabric.hub.data[sender]? = some holding) :
    seat.fabric.hub.data[sender]? = some holding ∧ host sender ≠ seat.node.id := by
  rw [Seat.data_detached, Option.filter_eq_some_iff] at hleft
  obtain ⟨registry, rfl, -⟩ := h.written sender holding hleft.1
  exact ⟨hleft.1, of_decide_eq_true hleft.2⟩

theorem Steady.detached (h : seat.Steady host) : seat.detached.Steady host where
  faultless := rfl
  awake := h.awake
  stance := by
    refine .alone _ rfl rfl rfl fun sender hosted => ?_
    rw [Option.eq_none_iff_forall_not_mem]
    exact fun holding hleft => (h.data_detached hleft).2 hosted
  stored := h.stored
  own := by
    rintro _ sender registry ⟨rfl⟩ hget
    simp [LocalCache.get?] at hget
  written := fun sender holding hleft => h.written sender holding (h.data_detached hleft).1

private theorem Enrolled.detached (henrolled : seat.Enrolled host) (h : seat.Steady host) :
    seat.detached.Enrolled host where
  joined := iff_of_false (fun hmem => (mem_members_detached.mp hmem).1 rfl) Bool.false_ne_true
  hosts := fun sender holding hleft =>
    have ⟨hheld, hne⟩ := h.data_detached hleft
    mem_members_detached.mpr ⟨hne, henrolled.hosts sender holding hheld⟩

theorem Sound.detached (h : seat.Sound host) : seat.detached.Sound host :=
  sound_iff.mpr ⟨h.steady.detached, (sound_iff.mp h).2.detached h.steady⟩

private theorem Steady.frame_detached (h : seat.Steady host) : Frame host seat seat.detached where
  server := rfl
  settings := rfl
  members := by
    intro id hne
    rw [mem_members_detached]
    simp [hne]
  data := by
    intro sender helse
    rw [Seat.data_detached]
    cases hholding : seat.fabric.hub.data[sender]? with
    | none => rfl
    | some holding =>
      obtain ⟨registry, rfl, -⟩ := h.written sender holding hholding
      simp [Option.filter, helse]

theorem Steady.edits_recovered (h : seat.Steady host) :
    Edits env host seat.detached (seat.recovered env) :=
  edits_restore fun _ hp => h.hosted_of_mem_toList hp

private theorem Steady.leave (h : seat.Steady host) :
    (seat.leave env).seat.Steady host ∧ Frame host seat (seat.leave env).seat := by
  have hedits : Edits env host seat.detached (seat.recovered env) := h.edits_recovered
  have hframe := h.frame_detached.trans (h.detached.frame hedits)
  rw [seat_leave env h.awake]
  exact ⟨(h.detached.edits hedits).congr rfl rfl rfl rfl,
    hframe.trans ⟨rfl, rfl, fun _ _ => Iff.rfl, fun _ _ => rfl⟩⟩

private theorem Enrolled.leave (henrolled : seat.Enrolled host) (h : seat.Steady host) :
    (seat.leave env).seat.Enrolled host := by
  have hrecovered : (seat.recovered env).Enrolled host :=
    (henrolled.detached h).edits h.detached h.edits_recovered
  rw [seat_leave env h.awake]
  exact hrecovered.congr rfl rfl rfl fun _ => Iff.rfl

private theorem Steady.settled_leave (h : seat.Steady host) : (seat.leave env).seat.Settled := by
  have hedits : Edits env host seat.detached (seat.recovered env) := h.edits_recovered
  have halone : (seat.recovered env).node.cache.isClustered = false :=
    (Edits.sameNode hedits).isClustered
  rw [seat_leave env h.awake]
  show Phase.standalone = _
  simp [setPhase, withIndex, halone]

/-! ## Every event -/

/-- Whatever a node hears of the membership, its seat stays steady. -/
theorem Steady.handle (h : seat.Steady host)
    (hplain : (env seat.node.id).viewFaults = Faults.none) (event : MembershipEvent) :
    (seat.handle env event).seat.Steady host ∧ Frame host seat (seat.handle env event).seat := by
  cases event with
  | localJoined => exact h.join hplain
  | localLeft => exact h.leave
  | remoteJoined peer => exact ⟨h, Frame.refl seat⟩
  | remoteLeft peer =>
    exact ⟨h.congr rfl rfl rfl rfl, ⟨rfl, rfl, fun _ _ => Iff.rfl, fun _ _ => rfl⟩⟩

/-- Whatever a node hears of the membership, its seat stays sound. -/
theorem Sound.handle (h : seat.Sound host) (hsettled : seat.Settled)
    (hplain : (env seat.node.id).viewFaults = Faults.none) (event : MembershipEvent) :
    (seat.handle env event).seat.Sound host ∧ (seat.handle env event).seat.Settled ∧
      Frame host seat (seat.handle env event).seat := by
  obtain ⟨hsteady, henrolled⟩ := sound_iff.mp h
  obtain ⟨hsteady', hframe⟩ := hsteady.handle hplain event
  refine ⟨sound_iff.mpr ⟨hsteady', ?_⟩, ?_, hframe⟩
  · cases event with
    | localJoined => exact henrolled.join hsteady hplain
    | localLeft => exact henrolled.leave hsteady
    | remoteJoined peer => exact henrolled
    | remoteLeft peer => exact henrolled.congr rfl rfl rfl fun _ => Iff.rfl
  · cases event with
    | localJoined => exact hsteady.settled_join
    | localLeft => exact hsteady.settled_leave
    | remoteJoined peer => exact hsettled
    | remoteLeft peer => exact hsettled

end DirectedPresence.Seat
