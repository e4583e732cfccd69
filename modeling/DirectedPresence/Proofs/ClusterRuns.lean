import DirectedPresence.Proofs.LedgerSteps

/-!
Runs of a cluster. A step is an operation of one node, with the answers that the services around the
nodes give meanwhile; a run takes one step after another, starting with nodes that stand alone and
track nothing. As long as every sender is used on its host only, each node keeps a sound seat
(`Cluster.Sound`) and tracks the ledger that its own steps add up to (`Cluster.tracks_run`).

Soundness is said of the nodes that have not crashed. A crashed node does nothing any more, and the
hub has forgotten it.
-/

namespace DirectedPresence

/-- An operation of a node, and what the services answer meanwhile. -/
structure Step where
  env : Environment
  node : NodeId
  operation : Operation

/-- A call of the dispatcher, a sweep, or a change of membership, for a sender that lives where it
is used, and with caches that do not fail. -/
structure Step.Ordinary (host : Address → NodeId) (step : Step) : Prop where
  kind : step.operation.isTracking = true ∨ ∃ event, step.operation = .membership event
  hosted : ∀ sender, step.operation.tracked? = some sender → host sender = step.node
  plain : (step.env step.node).viewFaults = Faults.none

/-- A change of membership is ordinary whatever the node hosts. -/
theorem Step.Ordinary.membership {host : Address → NodeId} {step : Step} {event : MembershipEvent}
    (hevent : step.operation = .membership event)
    (hplain : (step.env step.node).viewFaults = Faults.none) : step.Ordinary host := by
  refine ⟨Or.inr ⟨event, hevent⟩, ?_, hplain⟩
  rw [hevent]
  rintro sender ⟨⟩

/-- The ledger of a node after its own steps of a run. -/
def Ledger.along (server : Server) (node : NodeId) (steps : List Step) (ledger : Ledger) :
    Ledger :=
  steps.foldl (fun ledger step =>
    if step.node = node then ledger.after (step.env node) server step.operation else ledger) ledger

section Ledgers

variable {server : Server} {node : NodeId} {step : Step} {ledger : Ledger}

theorem Ledger.along_own (h : step.node = node) : Ledger.along server node [step] ledger =
    ledger.after (step.env node) server step.operation :=
  if_pos h

theorem Ledger.along_foreign (h : step.node ≠ node) :
    Ledger.along server node [step] ledger = ledger :=
  if_neg h

end Ledgers

namespace Seat

variable {host : Address → NodeId} {seat other : Seat} {ledger : Ledger} {step : Step}

/-- An ordinary operation keeps the seat of its node sound. -/
theorem Sound.ordinary (h : seat.Sound host) (hsettled : seat.Settled)
    (hordinary : step.Ordinary host) (hid : seat.node.id = step.node) :
    (seat.perform step.env step.operation).seat.Sound host ∧
      (seat.perform step.env step.operation).seat.Settled ∧
      Frame host seat (seat.perform step.env step.operation).seat := by
  obtain ⟨hkind, hosted, hplain⟩ := hordinary
  rw [← hid] at hosted hplain
  rcases hkind with htracking | ⟨event, hevent⟩
  · have hedits : Edits step.env host seat (seat.perform step.env step.operation).seat :=
      h.steady.edits_perform htracking hosted
    exact ⟨h.edits hedits, (Edits.sameNode hedits).settled hsettled,
      h.steady.frame hedits⟩
  · rw [hevent]
    exact h.handle hsettled hplain event

private theorem Tracks.ordinary (h : seat.Sound host) (ht : seat.Tracks host ledger)
    (hordinary : step.Ordinary host) (hid : seat.node.id = step.node) :
    (seat.perform step.env step.operation).seat.Tracks host
      (ledger.after (step.env step.node) seat.node.server step.operation) := by
  obtain ⟨hkind, hosted, hplain⟩ := hordinary
  rw [← hid] at hosted hplain
  rcases hkind with htracking | ⟨event, hevent⟩
  · have hperformed : (seat.perform step.env step.operation).seat.Tracks host _ :=
      ht.perform h htracking hosted
    rwa [services, hid] at hperformed
  · rw [hevent]
    exact ht.handle h hplain event

/-- A node does not notice what others do, as long as they leave its membership alone. -/
theorem Sound.elsewhere (h : other.Sound host) {fabric : Fabric}
    (hmember : other.node.id ∈ fabric.hub.members ↔ other.node.id ∈ other.fabric.hub.members)
    (hheld : fabric.hub.Held host) : Seat.Sound host ⟨fabric, other.node⟩ where
  faultless := h.faultless
  awake := h.awake
  posture := by
    cases h.posture with
    | alone cache backing owner unheard absent =>
      exact .alone cache backing owner unheard fun hmem => absent (hmember.mp hmem)
    | member view backing owner present =>
      exact .member view backing owner (hmember.mpr present)
  stored := h.stored
  own := h.own
  held := hheld

private theorem Tracks.elsewhere (ht : other.Tracks host ledger) {fabric : Fabric}
    (hdata : ∀ sender, host sender = other.node.id →
      fabric.hub.data[sender]? = other.fabric.hub.data[sender]?) :
    Seat.Tracks host ⟨fabric, other.node⟩ ledger := by
  intro sender hosted
  have hcached : Seat.cached ⟨fabric, other.node⟩ sender = other.cached sender := by
    simp only [cached, Hub.lookup, hdata sender hosted]
  rw [hcached]
  exact ht sender hosted

end Seat

namespace Cluster

def after (c : Cluster) (step : Step) : Cluster :=
  (c.perform step.env step.node step.operation).cluster

def run (c : Cluster) (steps : List Step) : Cluster :=
  steps.foldl after c

/-- The cluster of these servers, before anything happened. -/
def start (hubName : String) (members : List (Server × Settings)) : Cluster :=
  ofNodes hubName (members.map fun p => Node.start p.1 p.2)

/-- Every node that has not crashed has a sound seat. -/
structure Sound (host : Address → NodeId) (crashed : NodeId → Prop) (c : Cluster) : Prop where
  held : c.fabric.hub.Held host
  named : ∀ id seat, c.seat? id = some seat → seat.node.id = id
  live : ∀ id seat, c.seat? id = some seat → ¬ crashed id → seat.Sound host ∧ seat.Settled

def Tracks (host : Address → NodeId) (crashed : NodeId → Prop) (c : Cluster)
    (ledgers : NodeId → Ledger) : Prop :=
  ∀ id seat, c.seat? id = some seat → ¬ crashed id → seat.Tracks host (ledgers id)

def ServedBy (c : Cluster) (servers : NodeId → Server) : Prop :=
  ∀ id seat, c.seat? id = some seat → seat.node.server = servers id

variable {host : Address → NodeId} {servers : NodeId → Server} {ledgers : NodeId → Ledger}
  {crashed crashed' : NodeId → Prop} {c : Cluster} {seat seat' : Seat}
  {node id : NodeId} {step : Step} {steps : List Step}

theorem run_append (c : Cluster) (steps more : List Step) :
    c.run (steps ++ more) = (c.run steps).run more :=
  List.foldl_append

theorem run_concat (c : Cluster) (steps : List Step) (step : Step) :
    c.run (steps ++ [step]) = (c.run steps).after step :=
  run_append c steps [step]

theorem fabric_of_seat? (h : c.seat? id = some seat) : seat.fabric = c.fabric := by
  obtain ⟨_, -, rfl⟩ := Option.map_eq_some_iff.mp h
  rfl

/-- All seats of a cluster share its fabric. -/
theorem fabric_eq_of_seats {other : Seat} (hother : c.seat? id = some other)
    (hseat : c.seat? node = some seat) : other.fabric = seat.fabric :=
  (fabric_of_seat? hother).trans (fabric_of_seat? hseat).symm

theorem seat?_setSeat_self : (c.setSeat id seat').seat? id = some seat' := by
  simp [seat?, setSeat]

theorem seat?_setSeat_of_ne (hne : id ≠ node) : (c.setSeat node seat').seat? id =
    (c.seat? id).map fun other => ⟨seat'.fabric, other.node⟩ := by
  have hne' : ¬ node = id := fun h => hne h.symm
  simp [seat?, setSeat, Std.ExtTreeMap.getElem?_insert, hne', Function.comp_def]

theorem after_of_seat? (h : c.seat? step.node = some seat) : c.after step =
    c.setSeat step.node (seat.perform step.env step.operation).seat := by
  simp only [after, perform, h]

theorem after_of_none (h : c.seat? step.node = none) : c.after step = c := by
  simp only [after, perform, h]

/-- A seat after one node acted is the one that it left, or the old seat of another node. -/
theorem seat?_setSeat_cases {other : Seat} (h : (c.setSeat node seat').seat? id = some other) :
    (id = node ∧ other = seat') ∨
      (id ≠ node ∧ ∃ old, c.seat? id = some old ∧ other = ⟨seat'.fabric, old.node⟩) := by
  by_cases heq : id = node
  · subst heq
    rw [seat?_setSeat_self] at h
    exact Or.inl ⟨rfl, (Option.some.inj h).symm⟩
  · rw [seat?_setSeat_of_ne heq] at h
    obtain ⟨old, hold, rfl⟩ := Option.map_eq_some_iff.mp h
    exact Or.inr ⟨heq, old, hold, rfl⟩

/-- No step brings a node into being. -/
theorem exists_seat_of_after (h : (c.after step).seat? id = some seat) :
    ∃ before, c.seat? id = some before := by
  cases hactor : c.seat? step.node with
  | none => exact ⟨seat, after_of_none hactor ▸ h⟩
  | some actor =>
    rw [after_of_seat? hactor] at h
    rcases seat?_setSeat_cases h with ⟨rfl, -⟩ | ⟨-, before, hbefore, -⟩
    · exact ⟨actor, hactor⟩
    · exact ⟨before, hbefore⟩

/-- What is so of every node stays so when one of them acts, if it is so of that one afterwards. -/
theorem forall_node_setSeat {P : NodeId → Node → Prop}
    (h : ∀ id seat, c.seat? id = some seat → P id seat.node) (hnew : P node seat'.node) :
    ∀ id other, (c.setSeat node seat').seat? id = some other → P id other.node := by
  intro id other hother
  rcases seat?_setSeat_cases hother with ⟨rfl, rfl⟩ | ⟨-, old, hold, rfl⟩
  · exact hnew
  · exact h id old hold

theorem Sound.setSeat (h : c.Sound host crashed) (hseat : c.seat? node = some seat)
    (hname : seat'.node.id = node) (hheld : seat'.fabric.hub.Held host)
    (hmembers : ∀ id, id ≠ node →
      (id ∈ seat'.fabric.hub.members ↔ id ∈ seat.fabric.hub.members))
    (hmono : ∀ id, id ≠ node → crashed id → crashed' id)
    (hown : ¬ crashed' node → seat'.Sound host ∧ seat'.Settled) :
    (c.setSeat node seat').Sound host crashed' := by
  refine ⟨hheld, forall_node_setSeat (P := fun id node => node.id = id) h.named hname, ?_⟩
  intro id other hother hlive
  rcases seat?_setSeat_cases hother with ⟨rfl, rfl⟩ | ⟨hne, old, hold, rfl⟩
  · exact hown hlive
  · obtain ⟨hsound, hsettled⟩ := h.live id old hold fun hc => hlive (hmono id hne hc)
    have hfabric : old.fabric = seat.fabric := fabric_eq_of_seats hold hseat
    refine ⟨hsound.elsewhere ?_ hheld, hsettled⟩
    rw [h.named id old hold, hfabric]
    exact hmembers id hne

theorem Tracks.setSeat {ledgers' : NodeId → Ledger} (h : c.Sound host crashed)
    (ht : c.Tracks host crashed ledgers) (hseat : c.seat? node = some seat)
    (hdata : ∀ sender, host sender ≠ node →
      seat'.fabric.hub.data[sender]? = seat.fabric.hub.data[sender]?)
    (hmono : ∀ id, id ≠ node → crashed id → crashed' id)
    (hledgers : ∀ id, id ≠ node → ledgers' id = ledgers id)
    (hown : ¬ crashed' node → seat'.Tracks host (ledgers' node)) :
    (c.setSeat node seat').Tracks host crashed' ledgers' := by
  intro id other hother hlive
  rcases seat?_setSeat_cases hother with ⟨rfl, rfl⟩ | ⟨hne, old, hold, rfl⟩
  · exact hown hlive
  · have htracks := ht id old hold fun hc => hlive (hmono id hne hc)
    have hfabric : old.fabric = seat.fabric := fabric_eq_of_seats hold hseat
    rw [hledgers id hne]
    refine htracks.elsewhere fun sender hosted => ?_
    rw [hfabric]
    exact hdata sender fun heq => hne ((h.named id old hold).symm.trans (hosted.symm.trans heq))

/-! ## Ordinary steps -/

theorem Sound.after (h : c.Sound host crashed) (hordinary : step.Ordinary host)
    (hlive : ¬ crashed step.node) : (c.after step).Sound host crashed := by
  cases hseat : c.seat? step.node with
  | none =>
    rw [after_of_none hseat]
    exact h
  | some seat =>
    have hname := h.named step.node seat hseat
    obtain ⟨hsound, hsettled⟩ := h.live step.node seat hseat hlive
    obtain ⟨hsound', hsettled', hframe⟩ := hsound.ordinary hsettled hordinary hname
    rw [after_of_seat? hseat]
    refine h.setSeat hseat (hframe.id.trans hname) hsound'.held ?_ (fun _ _ hc => hc)
      fun _ => ⟨hsound', hsettled'⟩
    intro id hne
    exact hframe.members id (hname ▸ hne)

private theorem ServedBy.after (h : c.Sound host crashed) (hserved : c.ServedBy servers)
    (hordinary : step.Ordinary host) (hlive : ¬ crashed step.node) :
    (c.after step).ServedBy servers := by
  cases hseat : c.seat? step.node with
  | none =>
    rw [after_of_none hseat]
    exact hserved
  | some seat =>
    obtain ⟨hsound, hsettled⟩ := h.live step.node seat hseat hlive
    obtain ⟨-, -, hframe⟩ :=
      hsound.ordinary hsettled hordinary (h.named step.node seat hseat)
    rw [after_of_seat? hseat]
    exact forall_node_setSeat (P := fun id node => node.server = servers id) hserved
      (hframe.server.trans (hserved step.node seat hseat))

theorem Tracks.after (h : c.Sound host crashed) (ht : c.Tracks host crashed ledgers)
    (hserved : c.ServedBy servers) (hordinary : step.Ordinary host)
    (hlive : ¬ crashed step.node) : (c.after step).Tracks host crashed fun id =>
      Ledger.along (servers id) id [step] (ledgers id) := by
  cases hseat : c.seat? step.node with
  | none =>
    rw [after_of_none hseat]
    intro id other hother hid
    have hne : step.node ≠ id := by
      rintro rfl
      rw [hseat] at hother
      cases hother
    beta_reduce
    rw [Ledger.along_foreign hne]
    exact ht id other hother hid
  | some seat =>
    have hname := h.named step.node seat hseat
    obtain ⟨hsound, hsettled⟩ := h.live step.node seat hseat hlive
    obtain ⟨-, -, hframe⟩ := hsound.ordinary hsettled hordinary hname
    rw [after_of_seat? hseat]
    refine Tracks.setSeat h ht hseat ?_ (fun _ _ hc => hc) ?_ fun _ => ?_
    · intro sender helse
      exact hframe.data sender (hname ▸ helse)
    · intro id hne
      exact Ledger.along_foreign (Ne.symm hne)
    · have htracks := (ht step.node seat hseat hlive).ordinary hsound hordinary hname
      rwa [Ledger.along_own rfl, ← hserved step.node seat hseat]

/-- A run of ordinary steps keeps every seat sound, and every node tracks what its own steps add up
to. -/
theorem tracks_run (h : c.Sound host crashed) (ht : c.Tracks host crashed ledgers)
    (hserved : c.ServedBy servers)
    (hsteps : ∀ step ∈ steps, step.Ordinary host ∧ ¬ crashed step.node) :
    (c.run steps).Sound host crashed ∧ (c.run steps).ServedBy servers ∧
      (c.run steps).Tracks host crashed fun id =>
        Ledger.along (servers id) id steps (ledgers id) := by
  induction steps generalizing c ledgers with
  | nil => exact ⟨h, hserved, ht⟩
  | cons step rest ih =>
    obtain ⟨hordinary, hlive⟩ := hsteps step (by simp)
    exact ih (h.after hordinary hlive) (ht.after h hserved hordinary hlive)
      (hserved.after h hordinary hlive) fun other hmem => hsteps other (by simp [hmem])

/-! ## The start -/

theorem seat?_ofNodes {hubName : String} {nodes : List Node}
    (h : (ofNodes hubName nodes).seat? id = some seat) :
    seat.node ∈ nodes ∧ seat.node.id = id ∧ seat.fabric = { hub := { name := hubName } } := by
  obtain ⟨node, hnode, rfl⟩ := Option.map_eq_some_iff.mp h
  rw [ofNodes, Std.ExtTreeMap.ofList_eq_insertMany_empty,
    Std.ExtTreeMap.getElem?_insertMany_list, Std.ExtTreeMap.getElem?_empty, Option.or_none,
    List.findSomeRev?_eq_findSome?_reverse] at hnode
  obtain ⟨⟨key, value⟩, hmem, hvalue⟩ := List.exists_of_findSome?_eq_some hnode
  rw [List.mem_reverse, List.mem_map] at hmem
  obtain ⟨found, hfound, hpair⟩ := hmem
  cases hpair
  obtain ⟨heq, hfirst⟩ := Option.ite_none_right_eq_some.mp hvalue
  cases hfirst
  exact ⟨hfound, Std.LawfulEqOrd.eq_of_compare heq, rfl⟩

/-- Before anything happened every node stands alone and tracks nothing. -/
theorem sound_start (host : Address → NodeId) (hubName : String)
    {members : List (Server × Settings)}
    (hawake : ∀ p ∈ members, p.1.shuttingDown = false) :
    (start hubName members).Sound host (fun _ => False) ∧
      (start hubName members).Tracks host (fun _ => False) fun _ _ => ∅ := by
  have hseat : ∀ id seat, (start hubName members).seat? id = some seat → seat.node.id = id ∧
      seat.Sound host ∧ seat.Settled ∧ seat.Tracks host fun _ => ∅ := by
    intro id seat hseat
    obtain ⟨hnode, hid, hfabric⟩ := seat?_ofNodes hseat
    obtain ⟨p, hp, hstart⟩ := List.mem_map.mp hnode
    obtain ⟨fabric, node⟩ := seat
    simp only at hnode hid hfabric hstart
    subst hstart hfabric
    refine ⟨hid, ⟨rfl, hawake p hp, .alone _ rfl rfl rfl ?_, ?_, ?_, ?_⟩, rfl, ?_⟩
    · exact Std.ExtTreeMap.not_mem_empty
    · intro sender registry hstored
      simp [Node.start, Store.get?] at hstored
    · rintro cache sender registry ⟨rfl⟩ hcached
      simp [LocalCache.get?] at hcached
    · intro sender holding hholding
      simp at hholding
    · intro sender _
      exact ⟨rfl, rfl⟩
  refine ⟨⟨?_, ?_, ?_⟩, ?_⟩
  · intro sender holding hholding
    simp [start, ofNodes] at hholding
  · exact fun id seat h => (hseat id seat h).1
  · exact fun id seat h _ => ⟨(hseat id seat h).2.1, (hseat id seat h).2.2.1⟩
  · exact fun id seat h _ => (hseat id seat h).2.2.2

theorem servedBy_self (c : Cluster) :
    c.ServedBy fun id => (c.seat? id).elim ⟨id, "", false⟩ (·.node.server) := by
  intro id seat hseat
  simp [hseat]

/-- After a run of ordinary steps from the start every seat is sound, and it tracks what the steps
of its node add up to. -/
theorem seat_of_run (host : Address → NodeId) (hubName : String)
    {members : List (Server × Settings)} (hawake : ∀ p ∈ members, p.1.shuttingDown = false)
    (hsteps : ∀ step ∈ steps, step.Ordinary host)
    (hseat : ((start hubName members).run steps).seat? node = some seat) :
    seat.node.id = node ∧ seat.Sound host ∧ seat.Settled ∧
      seat.Tracks host (Ledger.along seat.node.server node steps fun _ => ∅) := by
  obtain ⟨hsound, htracks⟩ := sound_start host hubName hawake
  obtain ⟨hsound', hserved, htracks'⟩ :=
    tracks_run hsound htracks (servedBy_self _) fun step hmem => ⟨hsteps step hmem, not_false⟩
  obtain ⟨hseatSound, hsettled⟩ := hsound'.live node seat hseat not_false
  have hserver := hserved node seat hseat
  have hseatTracks := htracks' node seat hseat not_false
  beta_reduce at hserver hseatTracks
  rw [← hserver] at hseatTracks
  exact ⟨hsound'.named node seat hseat, hseatSound, hsettled, hseatTracks⟩

end Cluster

/-! ## A sample run -/

/-- Services that serve every address here, route every stanza, and know no sessions. -/
def Services.agreeable : Services where
  routes := ⟨fun _ => true, fun _ => false⟩
  router := fun _ => none
  roster :=
    { enabled := false
      subscription := fun _ _ => .ok none
      broadcast := fun _ _ => .ok ()
      isRegistered := fun _ => true
      items := fun _ => .ok []
      handle := fun _ => .ok () }
  session := fun _ => none
  stored := fun _ => []
  viewFaults := Faults.none

namespace Sample

def members : List (Server × Settings) :=
  [(Server.ofDomain ⟨"one"⟩ "example.org", {}), (Server.ofDomain ⟨"two"⟩ "example.org", {})]

def sender : Address := .ofParts (some "juliet") "example.org" (some "balcony")

def handler : Address := .ofDomain "chat.example.org"

def receiver : Address := .ofParts (some "romeo") "example.org" none

def host : Address → NodeId := fun _ => ⟨"one"⟩

def act (node : String) (operation : Operation) : Step :=
  ⟨fun _ => .agreeable, ⟨node⟩, operation⟩

/-- Both nodes join the cluster, and the first one delivers a directed presence meanwhile. -/
def steps : List Step :=
  [act "two" (.membership .localJoined),
    act "one" (.directedSent (.available sender) handler receiver),
    act "one" (.membership .localJoined)]

theorem steps_ordinary : ∀ step ∈ steps, step.Ordinary host := by
  intro step hmem
  simp only [steps, List.mem_cons, List.not_mem_nil, or_false] at hmem
  rcases hmem with rfl | rfl | rfl
  · exact .membership rfl rfl
  · exact ⟨Or.inl rfl, fun _ _ => rfl, rfl⟩
  · exact .membership rfl rfl

theorem members_awake : ∀ p ∈ members, p.1.shuttingDown = false := by
  decide

end Sample

end DirectedPresence
