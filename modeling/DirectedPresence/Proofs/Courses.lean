import DirectedPresence.Proofs.ClusterRuns
import DirectedPresence.Proofs.MirrorDepartures

/-!
Runs with departures. Besides the ordinary steps nodes may crash, and entries may be evicted from
the hub. A course is a cluster together with what cannot be read off it: which nodes have crashed,
and which notices of a departure have not reached a member yet. `Course.Allows` says which steps
may follow: a crashed node does nothing, a node joins again only when all have heard of its
departure, and a notice is delivered of departed nodes only. Every allowed step keeps
`Course.Sound`, which joins the soundness of the cluster with the mirrors of its fabric.
-/

namespace DirectedPresence

/-- A cluster, its crashed nodes, and the notices that are still to be delivered. -/
structure Course where
  cluster : Cluster
  crashed : NodeId → Prop := fun _ => False
  notices : Notices := fun _ _ => none

namespace Course

abbrev Joined (course : Course) (node : NodeId) : Prop :=
  node ∈ course.cluster.fabric.hub.members

/-- No notice of a departure of the peer is still to be delivered to the watcher. -/
abbrev Heard (course : Course) (peer watcher : NodeId) : Prop :=
  course.notices peer watcher = none

def crashedAfter (course : Course) (step : Step) : NodeId → Prop :=
  match step.operation with
  | .hubLeave _ => fun node => course.crashed node ∨ node = step.node
  | _ => course.crashed

def noticesAfter (course : Course) (step : Step) : Notices :=
  match step.operation with
  | .membership .localLeft | .hubLeave _ =>
    course.notices.depart course.cluster.fabric.hub step.node
  | .membership (.remoteLeft peer) => course.notices.hear peer step.node
  | .hubEvictNode peer => course.notices.evict peer
  | _ => course.notices

/-- The course after a step. Where there is no such node nothing happens. -/
def after (course : Course) (step : Step) : Course :=
  if (course.cluster.seat? step.node).isNone then course
  else ⟨course.cluster.after step, course.crashedAfter step, course.noticesAfter step⟩

def run (course : Course) (steps : List Step) : Course :=
  steps.foldl after course

/-- The steps that may follow. -/
inductive Allows (host : Address → NodeId) (course : Course) (step : Step) : Prop where
  /-- A node that has not crashed acts. -/
  | act (ordinary : step.Ordinary host) (alive : ¬ course.crashed step.node)
      (rejoins : step.operation = .membership .localJoined →
        ∀ watcher, course.Heard step.node watcher)
      (departed : ∀ peer, step.operation = .membership (.remoteLeft peer) →
        ¬ course.Joined peer)
  /-- A node crashes, and the hub lets it go. -/
  | crash (gone : step.operation = .hubLeave step.node)
  | evict (key : Address) (evicted : step.operation = .hubEvict key)
  | evictNode (peer : NodeId) (evicted : step.operation = .hubEvictNode peer)

def start (hubName : String) (members : List (Server × Settings)) : Course where
  cluster := .start hubName members

def Lawful (host : Address → NodeId) : Course → List Step → Prop
  | _, [] => True
  | course, step :: steps => course.Allows host step ∧ (course.after step).Lawful host steps

/-- The nodes that have not crashed are sound, and the indexes mirror the hub. -/
structure Sound (host : Address → NodeId) (serves : NodeId → Address → Bool)
    (course : Course) : Prop where
  cluster : course.cluster.Sound host course.crashed
  valued : ∀ id seat, course.cluster.seat? id = some seat →
    seat.node.settings.includeValues = true
  mirrored : course.cluster.fabric.Mirrored serves course.notices course.crashed

end Course

namespace Hub

variable {host : Address → NodeId} {hub hub' : Hub Feed} {node : NodeId}

theorem Held.mono (h : hub.Held host) (hmembers : ∀ id, id ∈ hub.members → id ∈ hub'.members)
    (hdata : ∀ (sender : Address) (holding : Holding), hub'.data[sender]? = some holding →
      hub.data[sender]? = some holding) : hub'.Held host := by
  intro sender holding hholding
  obtain ⟨hmember, hwritten⟩ := h sender holding (hdata sender holding hholding)
  exact ⟨hmembers _ hmember, hwritten⟩

private theorem Held.leave (h : hub.Held host) (node : NodeId) : (hub.leave node).Held host := by
  intro sender holding hholding
  have hdata : (withoutOwner hub.data node)[sender]? = some holding := hholding
  rw [getElem?_withoutOwner, Option.filter_eq_some_iff] at hdata
  obtain ⟨hmember, registry, rfl, hproper⟩ := h sender holding hdata.1
  have hne : host sender ≠ node := of_decide_eq_true hdata.2
  exact ⟨mem_members_leave.mpr ⟨hne, hmember⟩, registry, rfl, hproper⟩

private theorem Held.data_leave (h : hub.Held host) {sender : Address}
    (helse : host sender ≠ node) : (hub.leave node).data[sender]? = hub.data[sender]? := by
  show (withoutOwner hub.data node)[sender]? = _
  rw [getElem?_withoutOwner]
  cases hholding : hub.data[sender]? with
  | none => rfl
  | some holding =>
    obtain ⟨-, registry, rfl, -⟩ := h sender holding hholding
    simp [Option.filter, helse]

end Hub

/-- What the hub loses concerns no node's own state. -/
theorem Cluster.Sound.shrink {host : Address → NodeId} {crashed : NodeId → Prop} {c : Cluster}
    {node : NodeId} {seat : Seat} {fabric : Fabric} (h : c.Sound host crashed)
    (hseat : c.seat? node = some seat)
    (hmembers : ∀ id, id ∈ fabric.hub.members ↔ id ∈ seat.fabric.hub.members)
    (hdata : ∀ (sender : Address) (holding : Holding),
      fabric.hub.data[sender]? = some holding → seat.fabric.hub.data[sender]? = some holding) :
    (c.setSeat node ⟨fabric, seat.node⟩).Sound host crashed := by
  have hname := h.named node seat hseat
  have hheld : fabric.hub.Held host := by
    have hbefore : seat.fabric.hub.Held host := Cluster.fabric_of_seat? hseat ▸ h.held
    exact hbefore.mono (fun id => (hmembers id).mpr) hdata
  refine h.setSeat hseat hname hheld (fun id _ => hmembers id) (fun _ _ hc => hc) fun halive => ?_
  obtain ⟨hsound, hsettled⟩ := h.live node seat hseat halive
  exact ⟨hsound.elsewhere (hmembers _) hheld, hsettled⟩

/-- A crash concerns no other node's own state. -/
theorem Cluster.Sound.crash {host : Address → NodeId} {crashed : NodeId → Prop} {c : Cluster}
    {node : NodeId} {seat : Seat} (h : c.Sound host crashed) (hseat : c.seat? node = some seat) :
    (c.setSeat node { seat with
      fabric := { seat.fabric with hub := seat.fabric.hub.leave node } }).Sound host
        fun other => crashed other ∨ other = node := by
  have hheld : seat.fabric.hub.Held host := Cluster.fabric_of_seat? hseat ▸ h.held
  refine h.setSeat hseat (h.named node seat hseat) (hheld.leave node) ?_ (fun _ _ hc => Or.inl hc)
    fun halive => absurd (Or.inr rfl) halive
  intro id hne
  show id ∈ (seat.fabric.hub.leave node).members ↔ _
  rw [Hub.mem_members_leave]
  simp [hne]

theorem Cluster.Tracks.crash {host : Address → NodeId} {crashed : NodeId → Prop} {c : Cluster}
    {ledgers : NodeId → Ledger} {node : NodeId} {seat : Seat} (h : c.Sound host crashed)
    (ht : c.Tracks host crashed ledgers) (hseat : c.seat? node = some seat) :
    (c.setSeat node { seat with
      fabric := { seat.fabric with hub := seat.fabric.hub.leave node } }).Tracks host
        (fun other => crashed other ∨ other = node) ledgers := by
  have hheld : seat.fabric.hub.Held host := Cluster.fabric_of_seat? hseat ▸ h.held
  exact ht.setSeat h hseat (fun sender helse => hheld.data_leave helse) (fun _ _ hc => Or.inl hc)
    (fun _ _ => rfl) fun halive => absurd (Or.inr rfl) halive

theorem Step.Ordinary.ne_hubLeave {host : Address → NodeId} {step : Step}
    (h : step.Ordinary host) (peer : NodeId) : step.operation ≠ .hubLeave peer := by
  intro hleave
  rcases h.kind with htracking | ⟨event, hevent⟩
  · simp [hleave, Operation.isTracking] at htracking
  · cases hleave.symm.trans hevent

namespace Course

variable {host : Address → NodeId} {serves : NodeId → Address → Bool} {course : Course}
  {step : Step} {steps : List Step} {seat : Seat}

theorem after_of_none (h : course.cluster.seat? step.node = none) : course.after step = course := by
  simp [after, h]

theorem after_of_seat? (h : course.cluster.seat? step.node = some seat) :
    course.after step =
      ⟨course.cluster.setSeat step.node (seat.perform step.env step.operation).seat,
        course.crashedAfter step, course.noticesAfter step⟩ := by
  simp [after, h, Cluster.after_of_seat? h]

/-- The cluster of a course is led on by its steps. -/
theorem cluster_run (course : Course) (steps : List Step) :
    (course.run steps).cluster = course.cluster.run steps := by
  induction steps generalizing course with
  | nil => rfl
  | cons step steps ih =>
    have hafter : (course.after step).cluster = course.cluster.after step := by
      cases hseat : course.cluster.seat? step.node with
      | none => rw [after_of_none hseat, Cluster.after_of_none hseat]
      | some seat => rw [after_of_seat? hseat, Cluster.after_of_seat? hseat]
    exact (ih (course.after step)).trans (by rw [hafter]; rfl)

/-! ## Steps -/

/-- What is to be shown of a step: the acting seat frames the others, and the fabric is mirrored. -/
theorem Sound.setSeat (h : course.Sound host serves) {seat' : Seat} {crashed' : NodeId → Prop}
    {notices' : Notices} (hseat : course.cluster.seat? step.node = some seat)
    (hcluster : (course.cluster.setSeat step.node seat').Sound host crashed')
    (hsettings : seat'.node.settings = seat.node.settings)
    (hmirrored : seat'.fabric.Mirrored serves notices' crashed') :
    Course.Sound host serves ⟨course.cluster.setSeat step.node seat', crashed', notices'⟩ where
  cluster := hcluster
  valued := Cluster.forall_node_setSeat (P := fun _ node => node.settings.includeValues = true)
    h.valued ((congrArg Settings.includeValues hsettings).trans (h.valued step.node seat hseat))
  mirrored := hmirrored

private theorem crashedAfter_eq (hgone : ∀ peer, step.operation ≠ .hubLeave peer) :
    course.crashedAfter step = course.crashed := by
  unfold crashedAfter
  split
  · next hleave => exact absurd hleave (hgone _)
  · rfl

/-- Tracking makes no node depart. -/
theorem noticesAfter_of_tracking (htracking : step.operation.isTracking = true) :
    course.noticesAfter step = course.notices := by
  unfold noticesAfter
  cases hoperation : step.operation with
  | process | processDirected | directedSent | hasDirected | removeDirected | sweep => rfl
  | _ => simp [hoperation, Operation.isTracking] at htracking

private theorem Sound.fabric_of_seat? (h : course.Sound host serves)
    (hseat : course.cluster.seat? step.node = some seat) :
    seat.fabric = course.cluster.fabric ∧ seat.fabric.hub.Held host ∧
      seat.fabric.Mirrored serves course.notices course.crashed := by
  have hfabric : seat.fabric = course.cluster.fabric := Cluster.fabric_of_seat? hseat
  exact ⟨hfabric, hfabric ▸ h.cluster.held, hfabric ▸ h.mirrored⟩

/-- A node that has not crashed keeps the mirrors when it acts. -/
theorem Sound.mirrored_ordinary (h : course.Sound host serves)
    (hroutes : ∀ node, (step.env node).routes.isLocal = serves node)
    (hseat : course.cluster.seat? step.node = some seat) (hordinary : step.Ordinary host)
    (halive : ¬ course.crashed step.node)
    (hrejoins : step.operation = .membership .localJoined →
      ∀ watcher, course.Heard step.node watcher)
    (hdeparted : ∀ peer, step.operation = .membership (.remoteLeft peer) →
      ¬ course.Joined peer) :
    (seat.perform step.env step.operation).seat.fabric.Mirrored serves
      (course.noticesAfter step) (course.crashedAfter step) := by
  obtain ⟨hfabric, hheld, hmirrored⟩ := h.fabric_of_seat? hseat
  have hid : seat.node.id = step.node := h.cluster.named step.node seat hseat
  have hsound := (h.cluster.live step.node seat hseat halive).1
  rcases hordinary.kind with htracking | ⟨event, hevent⟩
  · have hhosted : ∀ sender, step.operation.tracked? = some sender →
        host sender = seat.node.id :=
      fun sender hsender => (hordinary.hosted sender hsender).trans hid.symm
    have hupkeep : Fabric.Upkeep serves course.notices course.notices seat.node.id seat.fabric
        (seat.perform step.env step.operation).seat.fabric :=
      hsound.upkeep_edits hroutes (hmirrored.heardBy _) hmirrored.unnoticed
        (hsound.steady.edits_perform htracking hhosted)
    rw [crashedAfter_eq hordinary.ne_hubLeave, noticesAfter_of_tracking htracking]
    exact hmirrored.upkeep hupkeep fun _ _ => rfl
  · unfold noticesAfter crashedAfter
    rw [hevent] at hrejoins hdeparted ⊢
    cases event with
    | localJoined =>
      have hplain : (step.env seat.node.id).viewFaults = Faults.none := by
        rw [hid]
        exact hordinary.plain
      exact hsound.mirrored_join hmirrored hroutes hplain (h.valued step.node seat hseat)
        (hid.symm ▸ hrejoins rfl) (hid.symm ▸ halive)
    | localLeft =>
      show Fabric.Mirrored serves (course.notices.depart _ step.node) _ _
      rw [← hid, ← hfabric]
      exact hsound.mirrored_leave hmirrored hroutes
    | remoteJoined peer => exact hmirrored
    | remoteLeft peer =>
      show Fabric.Mirrored serves (course.notices.hear peer step.node) _ _
      rw [← hid]
      exact Seat.mirrored_peerLeft step.env hheld hmirrored (hfabric.symm ▸ hdeparted peer rfl)

private theorem Sound.act (h : course.Sound host serves)
    (hroutes : ∀ node, (step.env node).routes.isLocal = serves node)
    (hseat : course.cluster.seat? step.node = some seat) (hordinary : step.Ordinary host)
    (halive : ¬ course.crashed step.node)
    (hrejoins : step.operation = .membership .localJoined →
      ∀ watcher, course.Heard step.node watcher)
    (hdeparted : ∀ peer, step.operation = .membership (.remoteLeft peer) →
      ¬ course.Joined peer) : (course.after step).Sound host serves := by
  have hid : seat.node.id = step.node := h.cluster.named step.node seat hseat
  obtain ⟨hsound, hsettled⟩ := h.cluster.live step.node seat hseat halive
  have hframe := (hsound.ordinary hsettled hordinary hid).2.2
  have hcrashed : course.crashedAfter step = course.crashed :=
    crashedAfter_eq hordinary.ne_hubLeave
  rw [after_of_seat? hseat]
  refine h.setSeat hseat ?_ hframe.settings
    (h.mirrored_ordinary hroutes hseat hordinary halive hrejoins hdeparted)
  rw [hcrashed, ← Cluster.after_of_seat? hseat]
  exact h.cluster.after hordinary halive

private theorem Sound.crash (h : course.Sound host serves)
    (hseat : course.cluster.seat? step.node = some seat)
    (hgone : step.operation = .hubLeave step.node) : (course.after step).Sound host serves := by
  obtain ⟨hfabric, hheld, hmirrored⟩ := h.fabric_of_seat? hseat
  rw [after_of_seat? hseat]
  unfold crashedAfter noticesAfter
  rw [hgone, ← hfabric]
  exact h.setSeat hseat (h.cluster.crash hseat) rfl
    (Seat.mirrored_crash hheld hmirrored step.node)

private theorem Sound.evict (h : course.Sound host serves)
    (hroutes : ∀ node, (step.env node).routes.isLocal = serves node)
    (hseat : course.cluster.seat? step.node = some seat) {key : Address}
    (hevicted : step.operation = .hubEvict key) : (course.after step).Sound host serves := by
  obtain ⟨hfabric, hheld, hmirrored⟩ := h.fabric_of_seat? hseat
  rw [after_of_seat? hseat]
  unfold crashedAfter noticesAfter
  rw [hevicted]
  refine h.setSeat hseat ?_ rfl (Seat.mirrored_evict hheld hmirrored hroutes key)
  apply h.cluster.shrink hseat (fun id => Hub.mem_members_takeOut (Feed.react step.env))
  intro sender holding hholding
  have hdata : (seat.fabric.hub.data.erase key)[sender]? = some holding := by
    rw [← Hub.data_evict]
    exact hholding
  rw [Std.ExtTreeMap.getElem?_erase] at hdata
  split at hdata
  · cases hdata
  · exact hdata

private theorem Sound.evictNode (h : course.Sound host serves)
    (hroutes : ∀ node, (step.env node).routes.isLocal = serves node)
    (hseat : course.cluster.seat? step.node = some seat) {peer : NodeId}
    (hevicted : step.operation = .hubEvictNode peer) :
    (course.after step).Sound host serves := by
  obtain ⟨hfabric, -, hmirrored⟩ := h.fabric_of_seat? hseat
  rw [after_of_seat? hseat]
  unfold crashedAfter noticesAfter
  rw [hevicted]
  refine h.setSeat hseat ?_ rfl (Seat.mirrored_evictNode hmirrored hroutes peer)
  apply h.cluster.shrink hseat (fun id => Hub.mem_members_evictNode (Feed.react step.env))
  intro sender holding hholding
  have hdata : (Hub.withoutOwner seat.fabric.hub.data peer)[sender]? = some holding := by
    rw [← Hub.data_evictNode]
    exact hholding
  rw [Hub.getElem?_withoutOwner, Option.filter_eq_some_iff] at hdata
  exact hdata.1

/-- Every allowed step keeps a course sound. -/
theorem Sound.after (h : course.Sound host serves)
    (hroutes : ∀ node, (step.env node).routes.isLocal = serves node)
    (hallows : course.Allows host step) : (course.after step).Sound host serves := by
  cases hseat : course.cluster.seat? step.node with
  | none =>
    rw [after_of_none hseat]
    exact h
  | some seat =>
    cases hallows with
    | act ordinary alive rejoins departed =>
      exact h.act hroutes hseat ordinary alive rejoins departed
    | crash gone => exact h.crash hseat gone
    | evict key evicted => exact h.evict hroutes hseat evicted
    | evictNode peer evicted => exact h.evictNode hroutes hseat evicted

theorem Sound.run (h : course.Sound host serves)
    (hroutes : ∀ step ∈ steps, ∀ node, (step.env node).routes.isLocal = serves node)
    (hlawful : course.Lawful host steps) : (course.run steps).Sound host serves := by
  induction steps generalizing course with
  | nil => exact h
  | cons step steps ih =>
    refine ih (h.after (hroutes step (by simp)) hlawful.1) ?_ hlawful.2
    exact fun other hmem => hroutes other (by simp [hmem])

/-! ## The start -/

theorem sound_start (host : Address → NodeId) (serves : NodeId → Address → Bool)
    (hubName : String) {members : List (Server × Settings)}
    (hmembers : ∀ p ∈ members, p.1.shuttingDown = false ∧ p.2.includeValues = true) :
    (start hubName members).Sound host serves where
  cluster := (Cluster.sound_start host hubName fun p hp => (hmembers p hp).1).1
  valued := by
    intro id seat hseat
    obtain ⟨hnode, -, -⟩ := Cluster.seat?_ofNodes hseat
    obtain ⟨p, hp, hstart⟩ := List.mem_map.mp hnode
    rw [← hstart]
    exact (hmembers p hp).2
  mirrored := by
    have hindex : ∀ node, (start hubName members).cluster.fabric.index node = {} := by
      intro node
      simp [start, Cluster.start, Cluster.ofNodes, Fabric.index]
    refine ⟨?_, ?_, ?_, ?_, ?_⟩
    · exact fun node hmember => absurd hmember Std.ExtTreeMap.not_mem_empty
    · rintro peer watcher estate ⟨⟩
    · exact fun node hcrashed => hcrashed.elim
    · intro node
      rw [hindex]
      exact ReverseIndex.compact_empty
    · intro node _ peer sender
      rw [hindex, Hub.claims_of_absent Std.ExtTreeMap.not_mem_empty]
      simp [ReverseIndex.receivers?, ReverseIndex.senders]

/-- What a step makes of the notices. -/
theorem notices_after_cases (course : Course) (step : Step) :
    (course.after step).notices = course.notices ∨
      ((step.operation = .membership .localLeft ∨ ∃ peer, step.operation = .hubLeave peer) ∧
        (course.after step).notices =
          course.notices.depart course.cluster.fabric.hub step.node) ∨
      (∃ peer, step.operation = .membership (.remoteLeft peer) ∧
        (course.after step).notices = course.notices.hear peer step.node) ∨
      ∃ peer, step.operation = .hubEvictNode peer ∧
        (course.after step).notices = course.notices.evict peer := by
  unfold after
  split
  · exact Or.inl rfl
  · simp only [noticesAfter]
    cases step.operation with
    | hubLeave peer => exact Or.inr (Or.inl ⟨Or.inr ⟨peer, rfl⟩, rfl⟩)
    | hubEvictNode peer => exact Or.inr (Or.inr (Or.inr ⟨peer, rfl, rfl⟩))
    | membership event =>
      cases event with
      | localLeft => exact Or.inr (Or.inl ⟨Or.inl rfl, rfl⟩)
      | remoteLeft peer => exact Or.inr (Or.inr (Or.inl ⟨peer, rfl, rfl⟩))
      | localJoined => exact Or.inl rfl
      | remoteJoined peer => exact Or.inl rfl
    | _ => exact Or.inl rfl

/-! ## Courses without departures -/

theorem run_append (course : Course) (steps more : List Step) :
    course.run (steps ++ more) = (course.run steps).run more :=
  List.foldl_append

theorem lawful_append {more : List Step} :
    course.Lawful host (steps ++ more) ↔
      course.Lawful host steps ∧ (course.run steps).Lawful host more := by
  induction steps generalizing course with
  | nil => exact ⟨fun h => ⟨trivial, h⟩, fun h => h.2⟩
  | cons step steps ih =>
    constructor
    · rintro ⟨hallows, hrest⟩
      obtain ⟨hsteps, hmore⟩ := ih.mp hrest
      exact ⟨⟨hallows, hsteps⟩, hmore⟩
    · rintro ⟨⟨hallows, hsteps⟩, hmore⟩
      exact ⟨hallows, ih.mpr ⟨hsteps, hmore⟩⟩

/-- As long as no node departs there is nothing to be heard. -/
theorem heard_after (hheard : ∀ peer watcher, course.Heard peer watcher)
    (hleft : step.operation ≠ .membership .localLeft)
    (hgone : ∀ peer, step.operation ≠ .hubLeave peer) :
    ∀ peer watcher, (course.after step).Heard peer watcher := by
  intro peer watcher
  have hnone : course.notices peer watcher = none := hheard peer watcher
  show (course.after step).notices peer watcher = none
  rcases course.notices_after_cases step with
    hsame | ⟨hdeparts, -⟩ | ⟨other, -, hheard'⟩ | ⟨other, -, hevicted⟩
  · rw [hsame, hnone]
  · rcases hdeparts with hleave | ⟨other, hleave⟩
    · exact absurd hleave hleft
    · exact absurd hleave (hgone other)
  · simp only [hheard', Notices.hear, hnone, ite_self]
  · simp only [hevicted, Notices.evict, hnone, Option.map_none, ite_self]

theorem crashed_after (hgone : ∀ peer, step.operation ≠ .hubLeave peer) :
    (course.after step).crashed = course.crashed := by
  unfold after
  split
  · rfl
  · exact crashedAfter_eq hgone

/-- Ordinary steps are allowed in any order as long as no node departs. -/
theorem lawful_of_ordinary (halive : ∀ node, ¬ course.crashed node)
    (hheard : ∀ peer watcher, course.Heard peer watcher)
    (hsteps : ∀ step ∈ steps, step.Ordinary host ∧ step.operation ≠ .membership .localLeft ∧
      ∀ peer, step.operation ≠ .membership (.remoteLeft peer)) :
    course.Lawful host steps ∧ (∀ node, ¬ (course.run steps).crashed node) ∧
      ∀ peer watcher, (course.run steps).Heard peer watcher := by
  induction steps generalizing course with
  | nil => exact ⟨trivial, halive, hheard⟩
  | cons step steps ih =>
    obtain ⟨hordinary, hleft, hremote⟩ := hsteps step (by simp)
    have hgone := hordinary.ne_hubLeave
    have hallows : course.Allows host step :=
      .act hordinary (halive _) (fun _ watcher => hheard _ watcher)
        fun peer hpeer => absurd hpeer (hremote peer)
    have halive' : ∀ node, ¬ (course.after step).crashed node := by
      rw [crashed_after hgone]
      exact halive
    obtain ⟨hlawful, hrest⟩ := ih halive'
      (heard_after hheard hleft hgone) fun other hmem => hsteps other (by simp [hmem])
    exact ⟨⟨hallows, hlawful⟩, hrest⟩

end Course

/-! ## The sample run as a course -/

namespace Sample

theorem members_ready : ∀ p ∈ members, p.1.shuttingDown = false ∧ p.2.includeValues = true := by
  decide

theorem steps_served : ∀ step ∈ steps, ∀ node, (step.env node).routes.isLocal = fun _ => true := by
  intro step hmem node
  simp only [steps, List.mem_cons, List.not_mem_nil, or_false] at hmem
  rcases hmem with rfl | rfl | rfl <;> rfl

theorem lawful_steps :
    (Course.start "hub" members).Lawful host steps ∧
      (∀ node, ¬ ((Course.start "hub" members).run steps).crashed node) ∧
      ∀ peer watcher, ((Course.start "hub" members).run steps).Heard peer watcher := by
  apply Course.lawful_of_ordinary (fun _ => not_false) (fun _ _ => rfl)
  intro step hmem
  refine ⟨steps_ordinary step hmem, ?_⟩
  simp only [steps, List.mem_cons, List.not_mem_nil, or_false] at hmem
  rcases hmem with rfl | rfl | rfl <;> simp [act]

end Sample

end DirectedPresence
