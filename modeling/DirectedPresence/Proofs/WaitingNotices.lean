import DirectedPresence.Proofs.Courses
import DirectedPresence.Proofs.OutlookSteps

/-!
Runs in which tidings wait. The events of the hub reach the members at once, but that a node has
joined or left the cluster the others are told through queues of their own, which they work off in
order and whenever they get to it. A post is a cluster together with these queues. Every run of a
post in which each sender is used on its host only keeps the nodes sound, their stores and caches in
agreement, and the outlook of the fabric (`Post.Sound`); if no notice of a departure comes late, the
outlook is not lenient.
-/

namespace DirectedPresence

/-- What a node is told of another one. -/
inductive Tiding where
  | joined (peer : NodeId)
  | left (peer : NodeId)
deriving DecidableEq

def Tiding.event : Tiding → MembershipEvent
  | joined peer => .remoteJoined peer
  | left peer => .remoteLeft peer

/-- A node acts of its own, or it hears the first tiding that waits for it. -/
inductive Happening where
  | act (step : Step)
  | deliver (env : Environment) (node : NodeId)

def Happening.env : Happening → Environment
  | act step => step.env
  | deliver env _ => env

/-- An ordinary step of a node, or a tiding that is heard where caches do not fail. -/
def Happening.Ordinary (host : Address → NodeId) : Happening → Prop
  | .act step =>
    step.Ordinary host ∧ ∀ tiding : Tiding, step.operation ≠ .membership tiding.event
  | .deliver env node => (env node).viewFaults = Faults.none

/-- A cluster, its crashed nodes, and the tidings that wait for each node. -/
structure Post where
  cluster : Cluster
  crashed : NodeId → Prop := fun _ => False
  waiting : NodeId → List Tiding := fun _ => []

namespace Post

abbrev Joined (post : Post) (node : NodeId) : Prop :=
  node ∈ post.cluster.fabric.hub.members

/-- What the others are told when a node has acted. That it left is said of a member only. -/
def news? (post : Post) (step : Step) : Option Tiding :=
  match step.operation with
  | .membership .localJoined => some (.joined step.node)
  | .membership .localLeft | .hubLeave _ =>
    if post.Joined step.node then some (.left step.node) else none
  | _ => none

/-- What waits after a node acted: all other members are told. -/
def waitingAfter (post : Post) (step : Step) : NodeId → List Tiding := fun other =>
  if other ≠ step.node ∧ post.Joined other then post.waiting other ++ (post.news? step).toList
  else post.waiting other

def crashedAfter (post : Post) (step : Step) : NodeId → Prop :=
  match step.operation with
  | .hubLeave _ => fun node => post.crashed node ∨ node = step.node
  | _ => post.crashed

/-- The post after something happened. Where there is no such node, and where nothing waits, nothing
happens. -/
def after (post : Post) : Happening → Post
  | .act step =>
    if (post.cluster.seat? step.node).isNone then post
    else ⟨post.cluster.after step, post.crashedAfter step, post.waitingAfter step⟩
  | .deliver env node =>
    match post.cluster.seat? node, post.waiting node with
    | some _, tiding :: rest =>
      ⟨post.cluster.after ⟨env, node, .membership tiding.event⟩, post.crashed,
        Function.update post.waiting node rest⟩
    | _, _ => post

def run (post : Post) (happenings : List Happening) : Post :=
  happenings.foldl after post

def start (hubName : String) (members : List (Server × Settings)) : Post where
  cluster := .start hubName members

/-- The watcher has still to hear that the peer left. -/
abbrev Untold (post : Post) (watcher peer : NodeId) : Prop :=
  .left peer ∈ post.waiting watcher

/-- Events come to the feed of the node with their values. -/
def Valued (post : Post) (node : NodeId) : Prop :=
  ∀ seat, post.cluster.seat? node = some seat → seat.node.settings.includeValues = true

/-- What may happen next. -/
inductive Allows (host : Address → NodeId) (post : Post) : Happening → Prop where
  /-- A node that has not crashed acts; of the others it hears by tidings only. -/
  | act (step : Step) (ordinary : step.Ordinary host) (alive : ¬ post.crashed step.node)
      (own : ∀ tiding : Tiding, step.operation ≠ .membership tiding.event)
      (valued : step.operation = .membership .localJoined → post.Valued step.node) :
      Allows host post (.act step)
  /-- A node crashes, and the hub lets it go. -/
  | crash (step : Step) (gone : step.operation = .hubLeave step.node) :
      Allows host post (.act step)
  | deliver (env : Environment) (node : NodeId) (alive : ¬ post.crashed node)
      (plain : (env node).viewFaults = Faults.none) : Allows host post (.deliver env node)

/-- A notice that is delivered now does not come late: the departed node has not joined again. -/
def Prompt (post : Post) (happening : Happening) : Prop :=
  ∀ env node peer rest, happening = .deliver env node →
    post.waiting node = .left peer :: rest → ¬ post.Joined peer

/-- Everything that happens satisfies a condition at the time. -/
def Along (condition : Post → Happening → Prop) : Post → List Happening → Prop
  | _, [] => True
  | post, happening :: happenings =>
    condition post happening ∧ Along condition (post.after happening) happenings

/-- The nodes that have not crashed are sound, their stores and caches agree, and the indexes show
what is due. -/
structure Sound (host : Address → NodeId) (serves : NodeId → Address → Bool) (lenient : Prop)
    (post : Post) : Prop where
  cluster : post.cluster.Sound host post.crashed
  tracks : ∃ ledgers, post.cluster.Tracks host post.crashed ledgers
  outlook : post.cluster.fabric.Outlook serves lenient post.crashed post.Untold

variable {host : Address → NodeId} {serves : NodeId → Address → Bool} {lenient : Prop}
  {post : Post} {happening : Happening} {happenings : List Happening} {step : Step}
  {node peer watcher : NodeId} {seat : Seat}

/-! ## Tidings -/

/-- What a node does of its own takes no tiding away. -/
theorem mem_waitingAfter {tiding : Tiding} (hmem : tiding ∈ post.waiting watcher) :
    tiding ∈ post.waitingAfter step watcher := by
  unfold waitingAfter
  split
  · exact List.mem_append_left _ hmem
  · exact hmem

/-- The departure of a member waits for every other one. -/
theorem left_mem_waitingAfter
    (hdeparts : step.operation = .membership .localLeft ∨ step.operation = .hubLeave step.node)
    (hjoined : post.Joined step.node) (hmember : post.Joined watcher)
    (hne : watcher ≠ step.node) : .left step.node ∈ post.waitingAfter step watcher := by
  have hnews : post.news? step = some (.left step.node) := by
    unfold news?
    rcases hdeparts with hleave | hleave
    · simp only [hleave, if_pos hjoined]
    · simp only [hleave, if_pos hjoined]
  rw [waitingAfter, if_pos ⟨hne, hmember⟩, hnews]
  exact List.mem_append_right _ (List.mem_singleton.mpr rfl)

/-! ## Happenings -/

private theorem after_act_of_none (hseat : post.cluster.seat? step.node = none) :
    post.after (.act step) = post := by
  simp [after, hseat]

private theorem after_act_of_seat? (hseat : post.cluster.seat? step.node = some seat) :
    post.after (.act step) =
      ⟨post.cluster.setSeat step.node (seat.perform step.env step.operation).seat,
        post.crashedAfter step, post.waitingAfter step⟩ := by
  simp [after, hseat, Cluster.after_of_seat? hseat]

private theorem crashedAfter_eq (hgone : ∀ peer, step.operation ≠ .hubLeave peer) :
    post.crashedAfter step = post.crashed := by
  unfold crashedAfter
  split
  · next hleave => exact absurd hleave (hgone _)
  · rfl

/-- An ordinary step that a node takes keeps the post sound, whatever waits afterwards, if no notice
of a departure is lost on the way. -/
theorem Sound.ordinary (h : post.Sound host serves lenient)
    (hroutes : ∀ node, (step.env node).routes.isLocal = serves node)
    (hordinary : step.Ordinary host) (halive : ¬ post.crashed step.node)
    (hvalued : step.operation = .membership .localJoined → post.Valued step.node)
    (hprompt : ¬ lenient → ∀ peer, step.operation = .membership (.remoteLeft peer) →
      ¬ post.Joined peer) {waiting : NodeId → List Tiding}
    (hkept : ∀ watcher peer, post.Untold watcher peer → .left peer ∈ waiting watcher ∨
      watcher = step.node ∧ step.operation = .membership (.remoteLeft peer))
    (hleft : step.operation = .membership .localLeft → post.Joined step.node →
      ∀ watcher, post.Joined watcher → watcher ≠ step.node → .left step.node ∈ waiting watcher)
    (hseat : post.cluster.seat? step.node = some seat) :
    Sound host serves lenient ⟨post.cluster.after step, post.crashed, waiting⟩ := by
  obtain ⟨ledgers, htracks⟩ := h.tracks
  obtain ⟨hsound, -⟩ := h.cluster.live step.node seat hseat halive
  refine ⟨h.cluster.after hordinary halive,
    ⟨_, htracks.after h.cluster (Cluster.servedBy_self _) hordinary halive⟩, ?_⟩
  have hfabric : seat.fabric = post.cluster.fabric := Cluster.fabric_of_seat? hseat
  rw [Cluster.after_of_seat? hseat]
  refine hsound.outlook_ordinary (hfabric ▸ h.outlook) hroutes hordinary
    (h.cluster.named step.node seat hseat) halive (fun hjoins => hvalued hjoins seat hseat) ?_
    (fun watcher peer hold => (hkept watcher peer hold).imp_right fun hown =>
      ⟨hown.1, Or.inl hown.2⟩) ?_
  · rw [hfabric]
    exact hprompt
  · rw [hfabric]
    exact hleft

private theorem Sound.act (h : post.Sound host serves lenient)
    (hroutes : ∀ node, (step.env node).routes.isLocal = serves node)
    (hseat : post.cluster.seat? step.node = some seat) (hordinary : step.Ordinary host)
    (halive : ¬ post.crashed step.node)
    (hown : ∀ tiding : Tiding, step.operation ≠ .membership tiding.event)
    (hvalued : step.operation = .membership .localJoined → post.Valued step.node) :
    (post.after (.act step)).Sound host serves lenient := by
  have hordinary' := h.ordinary hroutes hordinary halive hvalued
    (fun _ peer hhears => absurd hhears (hown (.left peer)))
    (fun _ _ hmem => Or.inl (mem_waitingAfter hmem))
    (fun hleaves hjoined _ hmember hne =>
      left_mem_waitingAfter (Or.inl hleaves) hjoined hmember hne) hseat
  rwa [after_act_of_seat? hseat, crashedAfter_eq hordinary.ne_hubLeave,
    ← Cluster.after_of_seat? hseat]

private theorem Sound.crash (h : post.Sound host serves lenient)
    (hseat : post.cluster.seat? step.node = some seat)
    (hgone : step.operation = .hubLeave step.node) :
    (post.after (.act step)).Sound host serves lenient := by
  have hfabric : seat.fabric = post.cluster.fabric := Cluster.fabric_of_seat? hseat
  have hheld : seat.fabric.hub.Held host := hfabric ▸ h.cluster.held
  have houtlook : seat.fabric.Outlook serves lenient post.crashed post.Untold :=
    hfabric ▸ h.outlook
  obtain ⟨ledgers, htracks⟩ := h.tracks
  have hleft : step.node ∈ seat.fabric.hub.members → ∀ watcher ∈ seat.fabric.hub.members,
      watcher ≠ step.node → .left step.node ∈ post.waitingAfter step watcher := by
    rw [hfabric]
    exact fun hjoined watcher hmember hne =>
      left_mem_waitingAfter (Or.inr hgone) hjoined hmember hne
  rw [after_act_of_seat? hseat]
  unfold crashedAfter
  simp only [hgone]
  exact ⟨h.cluster.crash hseat, ⟨ledgers, htracks.crash h.cluster hseat⟩,
    houtlook.depart hheld rfl (fun _ => rfl) (fun _ => Iff.rfl)
      (fun _ _ _ => mem_waitingAfter) hleft⟩

private theorem Sound.deliver (h : post.Sound host serves lenient) {env : Environment}
    (hroutes : ∀ node, (env node).routes.isLocal = serves node)
    (halive : ¬ post.crashed node) (hplain : (env node).viewFaults = Faults.none)
    (hprompt : ¬ lenient → post.Prompt (.deliver env node)) :
    (post.after (.deliver env node)).Sound host serves lenient := by
  unfold after
  simp only
  split
  · next seat tiding rest hseat hwaiting =>
    have hordinary : Step.Ordinary host ⟨env, node, .membership tiding.event⟩ :=
      .membership rfl hplain
    refine h.ordinary hroutes hordinary halive ?_ ?_ ?_ ?_ hseat
    · intro hjoins
      cases tiding <;> cases hjoins
    · intro hstrict peer hhears
      cases tiding with
      | joined other => cases hhears
      | left other =>
        cases hhears
        exact hprompt hstrict env node peer rest rfl hwaiting
    · intro watcher peer huntold
      by_cases heq : watcher = node
      · subst heq
        rw [Untold, hwaiting] at huntold
        rw [Function.update_self]
        rcases List.mem_cons.mp huntold with rfl | hrest
        · exact Or.inr ⟨rfl, rfl⟩
        · exact Or.inl hrest
      · rw [Function.update_of_ne heq]
        exact Or.inl huntold
    · intro hleaves
      cases tiding <;> cases hleaves
  · exact h

/-- Whatever is allowed to happen keeps a post sound. -/
theorem Sound.after (h : post.Sound host serves lenient)
    (hroutes : ∀ node, (happening.env node).routes.isLocal = serves node)
    (hallows : post.Allows host happening) (hprompt : ¬ lenient → post.Prompt happening) :
    (post.after happening).Sound host serves lenient := by
  cases hallows with
  | act step ordinary alive own valued =>
    cases hseat : post.cluster.seat? step.node with
    | none =>
      rw [after_act_of_none hseat]
      exact h
    | some seat => exact h.act hroutes hseat ordinary alive own valued
  | crash step gone =>
    cases hseat : post.cluster.seat? step.node with
    | none =>
      rw [after_act_of_none hseat]
      exact h
    | some seat => exact h.crash hseat gone
  | deliver env node alive plain => exact h.deliver hroutes alive plain hprompt

theorem Sound.run (h : post.Sound host serves lenient)
    (hroutes : ∀ happening ∈ happenings, ∀ node,
      (happening.env node).routes.isLocal = serves node)
    (hallowed : Along (Allows host) post happenings)
    (hprompt : ¬ lenient → Along Prompt post happenings) :
    (post.run happenings).Sound host serves lenient := by
  induction happenings generalizing post with
  | nil => exact h
  | cons happening happenings ih =>
    refine ih (h.after (hroutes happening (by simp)) hallowed.1 fun hstrict =>
      (hprompt hstrict).1) ?_ hallowed.2 fun hstrict => (hprompt hstrict).2
    exact fun other hmem => hroutes other (by simp [hmem])

theorem sound_start (host : Address → NodeId) (serves : NodeId → Address → Bool) (lenient : Prop)
    (hubName : String) {members : List (Server × Settings)}
    (hawake : ∀ p ∈ members, p.1.shuttingDown = false) :
    (start hubName members).Sound host serves lenient := by
  obtain ⟨hsound, htracks⟩ := Cluster.sound_start host hubName hawake
  exact ⟨hsound, ⟨_, htracks⟩, Cluster.outlook_start hubName members⟩

/-! ## Runs without crashes -/

/-- Ordinary steps change no settings. -/
theorem valued_setSeat (hvalued : ∀ node, post.Valued node) (h : post.Sound host serves lenient)
    (hordinary : step.Ordinary host) (halive : ¬ post.crashed step.node) {seat' : Seat}
    (hseat : (post.cluster.after step).seat? node = some seat') :
    seat'.node.settings.includeValues = true := by
  cases hbefore : post.cluster.seat? step.node with
  | none =>
    rw [Cluster.after_of_none hbefore] at hseat
    exact hvalued node seat' hseat
  | some seat =>
    obtain ⟨hsound, hsettled⟩ := h.cluster.live step.node seat hbefore halive
    have hframe := (hsound.ordinary hsettled hordinary
      (h.cluster.named step.node seat hbefore)).2.2
    rw [Cluster.after_of_seat? hbefore] at hseat
    refine Cluster.forall_node_setSeat (P := fun _ node => node.settings.includeValues = true)
      hvalued ?_ node seat' hseat
    rw [hframe.settings]
    exact hvalued step.node seat hbefore

private theorem Sound.valued_after (h : post.Sound host serves lenient)
    (halive : ∀ node, ¬ post.crashed node) (hvalued : ∀ node, post.Valued node)
    (hordinary : happening.Ordinary host) :
    (∀ node, ¬ (post.after happening).crashed node) ∧
      ∀ node, (post.after happening).Valued node := by
  cases happening with
  | act step =>
    cases hseat : post.cluster.seat? step.node with
    | none =>
      rw [after_act_of_none hseat]
      exact ⟨halive, hvalued⟩
    | some seat =>
      rw [after_act_of_seat? hseat, crashedAfter_eq hordinary.1.ne_hubLeave,
        ← Cluster.after_of_seat? hseat]
      exact ⟨halive, fun node seat' hseat' =>
        valued_setSeat hvalued h hordinary.1 (halive _) hseat'⟩
  | deliver env node =>
    unfold Post.after
    simp only
    split
    · next seat tiding rest hseat hwaiting =>
      have hstep : Step.Ordinary host ⟨env, node, .membership tiding.event⟩ :=
        .membership rfl hordinary
      exact ⟨halive, fun other seat' hseat' =>
        valued_setSeat hvalued h hstep (halive _) hseat'⟩
    · exact ⟨halive, hvalued⟩

/-- Without crashes everything ordinary is allowed in any order. -/
theorem Sound.allowed_of_ordinary (h : post.Sound host serves True)
    (hroutes : ∀ happening ∈ happenings, ∀ node,
      (happening.env node).routes.isLocal = serves node)
    (halive : ∀ node, ¬ post.crashed node) (hvalued : ∀ node, post.Valued node)
    (hordinary : ∀ happening ∈ happenings, happening.Ordinary host) :
    Along (Allows host) post happenings ∧ ∀ node, ¬ (post.run happenings).crashed node := by
  induction happenings generalizing post with
  | nil => exact ⟨trivial, halive⟩
  | cons happening happenings ih =>
    have hfirst := hordinary happening (by simp)
    have hallows : post.Allows host happening := by
      cases happening with
      | act step => exact .act step hfirst.1 (halive _) hfirst.2 fun _ => hvalued _
      | deliver env node => exact .deliver env node (halive _) hfirst
    have hsound := h.after (hroutes happening (by simp)) hallows fun hstrict =>
      absurd trivial hstrict
    obtain ⟨halive', hvalued'⟩ := h.valued_after halive hvalued hfirst
    obtain ⟨hrest, hlast⟩ := ih hsound (fun other hmem => hroutes other (by simp [hmem])) halive'
      hvalued' fun other hmem => hordinary other (by simp [hmem])
    exact ⟨⟨hallows, hrest⟩, hlast⟩

end Post

end DirectedPresence
