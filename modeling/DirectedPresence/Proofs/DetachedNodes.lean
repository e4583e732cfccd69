import DirectedPresence.Proofs.EventLogs
import DirectedPresence.Proofs.HubActs
import DirectedPresence.Proofs.OrderlyDepartures

/-!
What a node can write to the cluster after it has left. A node that leaves exchanges its view for a
cache of its own, and from then on its calls and sweeps reach nobody. During shutdown nothing is put
in order any more, and a node that leaves then keeps its view (`Seat.KeepsView`): what it writes
goes to the hub as before, though it is no member (`Sample.writes_after_shutdown`). These are the
only writers outside the cluster: the owner of every entry of the hub is a member or has left like
this, and what a watcher has forgotten of a node that left otherwise does not come back
(`Cluster.detached_writes_nothing`).
-/

namespace DirectedPresence

/-- What is written by a call is written in the name of the view. -/
theorem HubAct.writer_call {L : Type} {view : View} {request : CacheCall} {node : NodeId}
    (hwriter : (call (L := L) view request).writer? = some node) : node = view.node := by
  cases request with
  | get | entries => cases hwriter
  | put | remove => exact (Option.some.inj hwriter).symm

/-- Whatever is done to a hub, the owner of an entry owned one before, or somebody wrote in its
name. -/
theorem Hub.Holds.owner_of_run {L σ : Type} {react : Reaction L σ} {hub : Hub L}
    {contents : Contents} (h : hub.Holds contents) {P : NodeId → Prop} {acts : List (HubAct L)}
    (hold : ∀ (key : Address) (kept : Kept), contents[key]? = some kept → P kept.owner)
    (hwriters : ∀ act ∈ acts, ∀ node, act.writer? = some node → P node) {world : σ}
    {key : Address} {holding : Holding}
    (hholding : (hub.run react acts world).cache.data[key]? = some holding) : P holding.owner := by
  induction acts generalizing hub contents world with
  | nil =>
    rw [show (hub.run react [] world).cache = hub from rfl, h.getElem?] at hholding
    obtain ⟨kept, hkept, rfl⟩ := Option.map_eq_some_iff.mp hholding
    exact hold key kept hkept
  | cons act acts ih =>
    refine ih (h.perform react act world) ?_
      (fun later hmem => hwriters later (List.mem_cons_of_mem act hmem)) hholding
    intro other kept hkept
    by_contra hnot
    have hlacks : contents.Lacks kept.owner := fun key kept' hkept' heq =>
      hnot (heq ▸ hold key kept' hkept')
    exact HubAct.lacks_effect hlacks (fun heq => hnot (hwriters act List.mem_cons_self _ heq))
      other kept hkept rfl

namespace Seat

variable {env : Environment} {seat : Seat} {operation : Operation}

/-! ## Views -/

/-- The node has a view of the hub, and if it leaves now it keeps the view, as its server is
shutting down. -/
def KeepsView (seat : Seat) : Prop :=
  seat.node.server.shuttingDown = true ∧ seat.node.cache.isClustered = true

/-- Nothing but joining and leaving changes which view a node has. -/
theorem view_perform (env : Environment) (seat : Seat)
    (hjoins : operation ≠ .membership .localJoined) (hleaves : operation ≠ .membership .localLeft)
    (view : View) : (seat.perform env operation).seat.node.cache.backing = .clustered view ↔
      seat.node.cache.backing = .clustered view := by
  cases operation with
  | membership event =>
    cases event with
    | localJoined => exact absurd rfl hjoins
    | localLeft => exact absurd rfl hleaves
    | remoteJoined | remoteLeft => exact Iff.rfl
  | shutdown | failCache | hubLeave | hubEvict | hubEvictNode | hubClear => exact Iff.rfl
  | _ => exact (Touches.sameNode (touches_perform rfl : Touches env _ _)).view view

private theorem backing_join (env : Environment) (seat : Seat) :
    (seat.join env).seat.node.cache.backing = .clustered ⟨seat.node.id, seat.fabric.hub.joins⟩ := by
  obtain ⟨-, -, -, hsame⟩ := wrote_refilled env seat
  obtain ⟨indexes, hseed⟩ := seat_seedIndex env (seat.refilled env)
  rw [seat_join, hseed]
  exact (hsame.view _).mpr rfl

/-- A node that leaves keeps the cache that it has, or gets one of its own. -/
theorem cache_leave (env : Environment) (seat : Seat) :
    seat.node.server.shuttingDown = true ∧ (seat.leave env).seat.node.cache = seat.node.cache ∨
      (seat.leave env).seat.node.cache.isClustered = false := by
  cases hshutting : seat.node.server.shuttingDown with
  | true =>
    left
    simp only [leave, hshutting, if_true]
    exact ⟨trivial, rfl⟩
  | false =>
    right
    have hsame : SameNode seat.detached (seat.recovered env) := Touches.sameNode (touches_restore _)
    rw [seat_leave env hshutting]
    exact hsame.isClustered

end Seat

namespace Cluster

variable {c : Cluster} {node : NodeId} {seat : Seat} {step : Step} {steps : List Step}

/-! ## Secluded nodes -/

/-- A node that leaves is secluded, unless it keeps its view. -/
theorem secluded_after_leaving (hnamed : seat.node.id = node) (hseat : c.seat? node = some seat)
    (hkeeps : ¬ seat.KeepsView) (env : Environment) :
    (c.after ⟨env, node, .membership .localLeft⟩).Secluded node := by
  rw [after_of_seat? hseat]
  constructor
  · intro hmem
    have hhub : (seat.perform env (.membership .localLeft)).seat.fabric.hub =
        seat.fabric.hub.leave seat.node.id := (Seat.enacts_leave env seat).hub
    rw [show (c.setSeat node _).fabric = (seat.perform env (.membership .localLeft)).seat.fabric
      from rfl, hhub] at hmem
    exact (Std.ExtTreeMap.mem_erase.mp hmem).1 (by rw [hnamed]; exact Std.ReflOrd.compare_self)
  · intro other hother
    rw [seat?_setSeat_self, Option.some.injEq] at hother
    subst hother
    rcases seat.cache_leave env with ⟨hshutting, hcache⟩ | halone
    · refine (congrArg NodeCache.isClustered hcache).trans ?_
      exact Bool.eq_false_iff.mpr fun hclustered => hkeeps ⟨hshutting, hclustered⟩
    · exact halone

/-- What a secluded node does with its store and its cache reaches nobody. -/
theorem Wired.isolated (h : c.Wired) (hsecluded : c.Secluded node) (env : Environment)
    {operation : Operation} (hdealing : operation.isDealing = true) :
    (c.perform env node operation).cluster.fabric = c.fabric ∧
      (c.perform env node operation).hearings = [] := by
  cases hseat : c.seat? node with
  | none => simp [perform, hseat]
  | some seat =>
    obtain ⟨acts, hacts, hcomes, -⟩ := (h.unheard node seat hseat).wrote_perform env hdealing
    have hnone : acts = [] := List.eq_nil_iff_forall_not_mem.mpr fun act hact =>
      Seat.not_writes_of_alone (hsecluded.alone seat hseat) act (hacts act hact)
    subst hnone
    obtain ⟨hfabric, hhearings⟩ := hcomes.idle
    simp only [perform, hseat]
    exact ⟨hfabric.trans (fabric_of_seat? hseat), hhearings⟩

private theorem Wired.fabric_run_of_secluded (h : c.Wired) (hsecluded : c.Secluded node)
    (hdeals : ∀ step ∈ steps, step.node = node ∧ step.operation.isDealing = true) :
    (c.run steps).fabric = c.fabric := by
  induction steps generalizing c with
  | nil => rfl
  | cons step steps ih =>
    obtain ⟨rfl, hdealing⟩ := hdeals step List.mem_cons_self
    have hstays : step.operation ≠ .membership .localJoined := by
      rintro heq
      rw [heq] at hdealing
      cases hdealing
    exact (ih (h.after step) (h.secluded_after hsecluded fun _ => hstays)
      fun later hmem => hdeals later (List.mem_cons_of_mem step hmem)).trans
        (h.isolated hsecluded step.env hdealing).1

/-! ## Owners -/

def Views (c : Cluster) (node : NodeId) : Prop :=
  ∃ seat, c.seat? node = some seat ∧ seat.node.cache.isClustered = true

/-- Every view is in the name of its node, and every entry of the hub belongs to a node that has a
view. -/
structure Vouched (c : Cluster) : Prop where
  wired : c.Wired
  holds : ∃ contents, c.fabric.hub.Holds contents
  named : ∀ id seat view, c.seat? id = some seat → seat.node.cache.backing = .clustered view →
    view.node = id
  owned : ∀ (sender : Address) (holding : Holding), c.fabric.hub.data[sender]? = some holding →
    c.Views holding.owner

private theorem vouched_start (hubName : String) (members : List (Server × Settings)) :
    (start hubName members).Vouched where
  wired := wired_start hubName members
  holds := ⟨∅, Hub.holds_empty rfl⟩
  named := by
    intro id seat view hseat backing
    obtain ⟨hnode, -, -⟩ := seat?_ofNodes hseat
    obtain ⟨p, -, hstart⟩ := List.mem_map.mp hnode
    rw [← hstart] at backing
    cases backing
  owned := by
    intro sender holding hholding
    simp [start, ofNodes] at hholding

/-- Whoever had a view has one after another node acted. -/
theorem Views.setSeat {seat' : Seat} {id : NodeId} (h : c.Views id)
    (hown : id = node → seat'.node.cache.isClustered = true) : (c.setSeat node seat').Views id := by
  obtain ⟨seat, hseat, hclustered⟩ := h
  by_cases heq : id = node
  · exact ⟨seat', heq ▸ seat?_setSeat_self, hown heq⟩
  · refine ⟨⟨seat'.fabric, seat.node⟩, ?_, hclustered⟩
    rw [seat?_setSeat_of_ne heq, hseat]
    rfl

/-- The names of the views stay right if the node that acted has its view in its own name. -/
theorem Vouched.named_setSeat (h : c.Vouched) {seat' : Seat}
    (hown : ∀ view, seat'.node.cache.backing = .clustered view → view.node = node) :
    ∀ id seat view, (c.setSeat node seat').seat? id = some seat →
      seat.node.cache.backing = .clustered view → view.node = id := by
  intro id seat view hseat backing
  rcases seat?_setSeat_cases hseat with ⟨rfl, rfl⟩ | ⟨-, old, hold, rfl⟩
  · exact hown view backing
  · exact h.named id old view hold backing

/-- What the hub holds after acts belongs to nodes that have views, if it did before and the acts
are in the names of such nodes. -/
theorem Vouched.owned_run (h : c.Vouched) (hseat : c.seat? node = some seat) {seat' : Seat}
    {env : Environment} {acts : List (HubAct Feed)}
    (hhub : seat'.fabric.hub =
      (seat.fabric.hub.run (Feed.react env) acts seat.fabric.indexes).cache)
    (hviews : c.Views node → seat'.node.cache.isClustered = true)
    (hwriters : ∀ act ∈ acts, ∀ writer, act.writer? = some writer →
      writer = node ∧ seat'.node.cache.isClustered = true) :
    ∀ (sender : Address) (holding : Holding),
      (c.setSeat node seat').fabric.hub.data[sender]? = some holding →
        (c.setSeat node seat').Views holding.owner := by
  intro sender holding hholding
  obtain ⟨contents, hholds⟩ := h.holds
  rw [← fabric_of_seat? hseat] at hholds
  rw [show (c.setSeat node seat').fabric.hub = seat'.fabric.hub from rfl, hhub] at hholding
  refine hholds.owner_of_run ?_ ?_ hholding
  · intro key kept hkept
    have hheld : seat.fabric.hub.data[key]? = some (.of kept.owner kept.registry) := by
      rw [hholds.getElem?, hkept]
      rfl
    have howner : c.Views kept.owner := h.owned key _ (fabric_of_seat? hseat ▸ hheld)
    exact howner.setSeat fun heq => hviews (heq ▸ howner)
  · intro act hact writer hwriter
    obtain ⟨rfl, hclustered⟩ := hwriters act hact writer hwriter
    exact ⟨seat', seat?_setSeat_self, hclustered⟩

/-- What a node did to the hub left contents there. -/
theorem Vouched.holds_enacts (h : c.Vouched) (hseat : c.seat? node = some seat) {α : Type}
    {env : Environment} {acts : List (HubAct Feed)} {outcome : Outcome α}
    (henacts : outcome.Enacts env seat acts) :
    ∃ contents, (c.setSeat node outcome.seat).fabric.hub.Holds contents := by
  obtain ⟨contents, hholds⟩ := h.holds
  rw [← fabric_of_seat? hseat] at hholds
  have hhub : (c.setSeat node outcome.seat).fabric.hub = _ := henacts.hub
  exact ⟨_, hhub ▸ hholds.run (Feed.react env) seat.fabric.indexes acts⟩

private theorem Vouched.after_join (h : c.Vouched) (hseat : c.seat? node = some seat)
    (env : Environment) : (c.after ⟨env, node, .membership .localJoined⟩).Vouched := by
  have hname : seat.node.id = node := h.wired.named node seat hseat
  have hafter : c.after ⟨env, node, .membership .localJoined⟩ =
      c.setSeat node (seat.join env).seat := after_of_seat? hseat
  have hbacking := Seat.backing_join env seat
  have hclustered : (seat.join env).seat.node.cache.isClustered = true :=
    Seat.isClustered_eq_true_iff.mpr ⟨_, hbacking⟩
  obtain ⟨calls, hcalls, henacts⟩ := Seat.enacts_join env seat
  refine ⟨h.wired.after _, ?_, ?_, ?_⟩
  · exact hafter ▸ h.holds_enacts hseat ⟨henacts.hub, henacts.index, henacts.hearings⟩
  · rw [hafter]
    refine h.named_setSeat fun view hview => ?_
    cases hbacking.symm.trans hview
    exact hname
  · rw [hafter]
    refine h.owned_run hseat henacts.hub (fun _ => hclustered) ?_
    refine HubAct.forall_joining hcalls nofun (fun request writer hwriter => ?_) nofun
    exact ⟨(HubAct.writer_call hwriter).trans hname, hclustered⟩

private theorem Vouched.after_leave (h : c.Vouched) (hseat : c.seat? node = some seat)
    (env : Environment) : (c.after ⟨env, node, .membership .localLeft⟩).Vouched := by
  have hname : seat.node.id = node := h.wired.named node seat hseat
  have hafter : c.after ⟨env, node, .membership .localLeft⟩ =
      c.setSeat node (seat.leave env).seat := after_of_seat? hseat
  have henacts := Seat.enacts_leave env seat
  refine ⟨h.wired.after _, hafter ▸ h.holds_enacts hseat henacts, ?_, ?_⟩
  · rw [hafter]
    refine h.named_setSeat fun view hview => ?_
    rcases seat.cache_leave env with ⟨-, hcache⟩ | halone
    · exact h.named node seat view hseat (hcache ▸ hview)
    · cases (Seat.isClustered_eq_true_iff.mpr ⟨view, hview⟩).symm.trans halone
  · rw [hafter]
    intro sender holding hholding
    have hleft : (Hub.withoutOwner seat.fabric.hub.data seat.node.id)[sender]? = some holding := by
      rw [← hholding]
      exact (congrArg (fun hub : Hub Feed => hub.data[sender]?) henacts.hub).symm
    rw [Hub.getElem?_withoutOwner, Option.filter_eq_some_iff] at hleft
    obtain ⟨hold, hother⟩ := hleft
    refine (h.owned sender holding (fabric_of_seat? hseat ▸ hold)).setSeat fun heq => ?_
    exact absurd (heq.trans hname.symm) (of_decide_eq_true hother)

private theorem Vouched.after_aside (h : c.Vouched) (hseat : c.seat? node = some seat)
    (env : Environment) {operation : Operation} (hnodes : operation.isHub = false)
    (hjoins : operation ≠ .membership .localJoined) (hleaves : operation ≠ .membership .localLeft) :
    (c.after ⟨env, node, operation⟩).Vouched := by
  have hafter : c.after ⟨env, node, operation⟩ =
      c.setSeat node (seat.perform env operation).seat := after_of_seat? hseat
  have hview := Seat.view_perform env seat hjoins hleaves
  have hnamed : ∀ view, seat.node.cache.backing = .clustered view → view.node = node :=
    fun view backing => h.named node seat view hseat backing
  obtain ⟨acts, hacts, henacts, -⟩ :=
    (h.wired.unheard node seat hseat).enacts_perform env hjoins hleaves
  refine ⟨h.wired.after _, hafter ▸ h.holds_enacts hseat henacts, ?_, ?_⟩
  · rw [hafter]
    exact h.named_setSeat fun view backing => hnamed view ((hview view).mp backing)
  · rw [hafter]
    refine h.owned_run hseat henacts.hub ?_ ?_
    · rintro ⟨before, hbefore, hclustered⟩
      rw [hseat, Option.some.injEq] at hbefore
      subst hbefore
      obtain ⟨view, backing⟩ := Seat.isClustered_eq_true_iff.mp hclustered
      exact Seat.isClustered_eq_true_iff.mpr ⟨view, (hview view).mpr backing⟩
    · intro act hact writer hwriter
      rcases hacts act hact with ⟨view, request, -, backing, rfl, -⟩ | hhub
      · exact ⟨(HubAct.writer_call hwriter).trans (hnamed view backing),
          Seat.isClustered_eq_true_iff.mpr ⟨view, (hview view).mpr backing⟩⟩
      · cases operation with
        | hubLeave | hubEvict | hubEvictNode | hubClear => cases hnodes
        | _ => cases hhub

/-- While the hub is used by nodes only, nobody writes to it but in the name of a node with a
view. -/
theorem Vouched.after (h : c.Vouched) (hnodes : step.operation.isHub = false) :
    (c.after step).Vouched := by
  cases hseat : c.seat? step.node with
  | none =>
    rw [after_of_none hseat]
    exact h
  | some seat =>
    obtain ⟨env, node, operation⟩ := step
    by_cases hjoins : operation = .membership .localJoined
    · exact hjoins ▸ h.after_join hseat env
    · by_cases hleaves : operation = .membership .localLeft
      · exact hleaves ▸ h.after_leave hseat env
      · exact h.after_aside hseat env hnodes hjoins hleaves

/-! ## Departures -/

/-- During the steps the node has left at a seat with the property, and it has not joined since. -/
def Departed (c : Cluster) (steps : List Step) (node : NodeId) (P : Seat → Prop) : Prop :=
  ∃ before env later seat, steps = before ++ ⟨env, node, .membership .localLeft⟩ :: later ∧
    (c.run before).seat? node = some seat ∧ P seat ∧
    ∀ step ∈ later, step.node = node → step.operation ≠ .membership .localJoined

theorem Departed.snoc {P : Seat → Prop} (h : c.Departed steps node P)
    (hstays : step.node = node → step.operation ≠ .membership .localJoined) :
    c.Departed (steps ++ [step]) node P := by
  obtain ⟨before, env, later, seat, rfl, hseat, hP, hlater⟩ := h
  refine ⟨before, env, later ++ [step], seat, by simp, hseat, hP, ?_⟩
  intro other hmem
  rcases List.mem_append.mp hmem with hmem | hmem
  · exact hlater other hmem
  · exact List.mem_singleton.mp hmem ▸ hstays

/-- A node is a member until it leaves, and no member until it joins. -/
theorem Wired.mem_members_after (h : c.Wired) (hown : ∀ peer, step.operation ≠ .hubLeave peer)
    (hstays : step.node = node → step.operation ≠ .membership .localJoined ∧
      step.operation ≠ .membership .localLeft) :
    node ∈ (c.after step).fabric.hub.members ↔ node ∈ c.fabric.hub.members := by
  cases hseat : c.seat? step.node with
  | none => rw [after_of_none hseat]
  | some seat =>
    have hname : seat.node.id = step.node := h.named step.node seat hseat
    obtain ⟨acts, hspares, henacts, -⟩ := (h.unheard step.node seat hseat).spares_perform step.env
      hown fun heq => hstays (hname.symm.trans heq.symm)
    rw [after_of_seat? hseat, ← fabric_of_seat? hseat]
    have hhub : (c.setSeat step.node (seat.perform step.env step.operation).seat).fabric.hub = _ :=
      henacts.hub
    rw [hhub]
    exact Hub.mem_members_run fun act hact => (hspares act hact).1

/-- Every node with a view is a member, or has left during shutdown. -/
def Entitled (c : Cluster) (steps : List Step) : Prop :=
  ∀ node, (c.run steps).Views node → node ∈ (c.run steps).fabric.hub.members ∨
    c.Departed steps node Seat.KeepsView

private theorem mem_members_of_join (hnamed : seat.node.id = node)
    (hseat : c.seat? node = some seat) (env : Environment) :
    node ∈ (c.after ⟨env, node, .membership .localJoined⟩).fabric.hub.members := by
  obtain ⟨calls, hcalls, henacts⟩ := Seat.enacts_join env seat
  have hhub : (c.after ⟨env, node, .membership .localJoined⟩).fabric.hub = _ :=
    (congrArg (fun c : Cluster => c.fabric.hub) (after_of_seat? hseat)).trans henacts.hub
  have hmovers : ∀ act ∈ calls ++ [.listen (seat.fabric.hub.join seat.node.id).2
      ⟨seat.node.settings.listenerName, seat.node.id⟩ seat.node.settings.includeValues],
      act.mover? ≠ some node := by
    intro act hact
    rcases List.mem_append.mp hact with hact | hact
    · obtain ⟨request, rfl⟩ := hcalls act hact
      exact nofun
    · rw [List.mem_singleton.mp hact]
      exact nofun
  have hjoined : node ∈ (seat.fabric.hub.join seat.node.id).1.members :=
    Std.ExtTreeMap.mem_insert.mpr (Or.inl (hnamed ▸ Std.ReflOrd.compare_self))
  rw [hhub]
  exact (Hub.mem_members_run hmovers).mpr hjoined

/-- Whoever has a view after a step had one before, unless the step was its joining. -/
theorem Views.of_after (h : (c.after step).Views node)
    (hstays : step.node = node → step.operation ≠ .membership .localJoined ∧
      step.operation ≠ .membership .localLeft) : c.Views node := by
  obtain ⟨seat', hseat', hclustered⟩ := h
  cases hseat : c.seat? step.node with
  | none => exact ⟨seat', after_of_none hseat ▸ hseat', hclustered⟩
  | some seat =>
    rw [after_of_seat? hseat] at hseat'
    rcases seat?_setSeat_cases hseat' with ⟨rfl, rfl⟩ | ⟨-, old, hold, rfl⟩
    · obtain ⟨view, backing⟩ := Seat.isClustered_eq_true_iff.mp hclustered
      have hbefore :=
        (Seat.view_perform step.env seat (hstays rfl).1 (hstays rfl).2 view).mp backing
      exact ⟨seat, hseat, Seat.isClustered_eq_true_iff.mpr ⟨view, hbefore⟩⟩
    · exact ⟨old, hold, hclustered⟩

theorem Entitled.snoc (h : c.Entitled steps) (hwired : (c.run steps).Wired)
    (hnodes : step.operation.isHub = false) : c.Entitled (steps ++ [step]) := by
  intro node hviews
  rw [run_concat] at hviews ⊢
  have hown : ∀ peer, step.operation ≠ .hubLeave peer := by
    intro peer heq
    rw [heq] at hnodes
    cases hnodes
  by_cases hmoves : step.node = node ∧
      (step.operation = .membership .localJoined ∨ step.operation = .membership .localLeft)
  · obtain ⟨env, actor, operation⟩ := step
    obtain ⟨rfl, hmoves⟩ := hmoves
    obtain ⟨seat', hseat', hclustered⟩ := hviews
    obtain ⟨seat, hseat⟩ := exists_seat_of_after hseat'
    rcases hmoves with rfl | rfl
    · exact .inl (mem_members_of_join (hwired.named actor seat hseat) hseat env)
    · have hafter : (seat.leave env).seat = seat' := by
        rw [after_of_seat? hseat, seat?_setSeat_self, Option.some.injEq] at hseat'
        exact hseat'
      rw [← hafter] at hclustered
      rcases seat.cache_leave env with ⟨hshutting, hcache⟩ | halone
      · rw [hcache] at hclustered
        exact .inr ⟨steps, env, [], seat, rfl, hseat, ⟨hshutting, hclustered⟩, by simp⟩
      · rw [halone] at hclustered
        cases hclustered
  · have hstays : step.node = node → step.operation ≠ .membership .localJoined ∧
        step.operation ≠ .membership .localLeft :=
      fun heq => not_or.mp fun hmove => hmoves ⟨heq, hmove⟩
    exact (h node (hviews.of_after hstays)).imp (hwired.mem_members_after hown hstays).mpr
      fun hdeparted => hdeparted.snoc fun heq => (hstays heq).1

private theorem entitled_run (hubName : String) (members : List (Server × Settings))
    (hnodes : ∀ step ∈ steps, step.operation.isHub = false) :
    ((start hubName members).run steps).Vouched ∧ (start hubName members).Entitled steps := by
  induction steps using List.reverseRecOn with
  | nil =>
    refine ⟨vouched_start hubName members, ?_⟩
    rintro node ⟨seat, hseat, hclustered⟩
    obtain ⟨hnode, -, -⟩ := seat?_ofNodes hseat
    obtain ⟨p, -, hstart⟩ := List.mem_map.mp hnode
    rw [← hstart] at hclustered
    cases hclustered
  | append_singleton steps step ih =>
    obtain ⟨hvouched, hentitled⟩ := ih fun other hmem => hnodes other (List.mem_append_left _ hmem)
    have hlast : step.operation.isHub = false := hnodes step (by simp)
    refine ⟨?_, hentitled.snoc hvouched.wired hlast⟩
    rw [run_concat]
    exact hvouched.after hlast

/-- A node that has left without keeping a view is secluded until it joins again. -/
theorem Departed.secluded (hwired : c.Wired)
    (h : c.Departed steps node fun seat => ¬ seat.KeepsView) : (c.run steps).Secluded node := by
  obtain ⟨before, env, later, seat, rfl, hseat, hkeeps, hlater⟩ := h
  have hbefore : (c.run before).Wired := hwired.run before
  rw [run_append]
  exact (hbefore.after _).secluded_run
    (secluded_after_leaving (hbefore.named node seat hseat) hseat hkeeps env) hlater

/-- A node outside the cluster cannot write to it. In a run in which the hub is used by nodes only,
whatever else fails or is written directly: once a node has left, and until it joins again, no call
and no sweep of it changes the hub or any index, and nobody hears of it, unless it left with a view
while its server was shutting down. So the owner of every entry of the hub is a member or has left
like that, and once another node has learned of a departure and has forgotten what the departed node
delivered to it, nothing that the departed node does brings it back. -/
theorem detached_writes_nothing (hubName : String) (members : List (Server × Settings))
    (hnodes : ∀ step ∈ steps, step.operation.isHub = false) :
    let initial := start hubName members
    let c := initial.run steps
    (∀ node, initial.Departed steps node (fun seat => ¬ seat.KeepsView) →
      ∀ (env : Environment) (operation : Operation), operation.isDealing = true →
        (c.perform env node operation).cluster.fabric = c.fabric ∧
          (c.perform env node operation).hearings = []) ∧
    (∀ (sender : Address) (holding : Holding), c.fabric.hub.data[sender]? = some holding →
      holding.owner ∈ c.fabric.hub.members ∨
        initial.Departed steps holding.owner Seat.KeepsView) ∧
    (∀ node watcher, initial.Departed steps node (fun seat => ¬ seat.KeepsView) →
      watcher ≠ node → (c.seat? watcher).isSome = true →
        ∀ (env : Environment) (deals : List Step),
          (∀ step ∈ deals, step.node = node ∧ step.operation.isDealing = true) →
          ∀ sender, (((c.after ⟨env, watcher, .membership (.remoteLeft node)⟩).run
            deals).fabric.index watcher).receivers? node sender = none) := by
  intro initial c
  have hstart : initial.Wired := wired_start hubName members
  obtain ⟨hvouched, hentitled⟩ := entitled_run hubName members hnodes
  refine ⟨?_, ?_, ?_⟩
  · intro node hdeparted env operation hdealing
    exact hvouched.wired.isolated (hdeparted.secluded hstart) env hdealing
  · intro sender holding hholding
    exact hentitled holding.owner (hvouched.owned sender holding hholding)
  · intro node watcher hdeparted hwatcher hpresent env deals hdeals sender
    obtain ⟨seat, hseat⟩ := Option.isSome_iff_exists.mp hpresent
    have hsecluded : (c.after ⟨env, watcher, .membership (.remoteLeft node)⟩).Secluded node :=
      hvouched.wired.secluded_after (hdeparted.secluded hstart) fun heq => absurd heq hwatcher
    have hname : seat.node.id = watcher := hvouched.wired.named watcher seat hseat
    rw [(hvouched.wired.after _).fabric_run_of_secluded hsecluded hdeals, after_of_seat? hseat]
    show ((seat.fabric.setIndex seat.node.id _).index watcher).receivers? node sender = none
    rw [Fabric.index_setIndex, if_pos hname]
    exact (ReverseIndex.receivers?_clearNode _ _ _ _).trans (if_pos rfl)

end Cluster

namespace Sample

def delivery : Operation := .directedSent (.available sender) handler receiver

/-- The second node of the sample run leaves, and then delivers a presence itself. -/
theorem second_writes_nothing :
    let initial := Cluster.start "hub" members
    let left := steps ++ [act "two" (.membership .localLeft)]
    initial.Departed left ⟨"two"⟩ (fun seat => ¬ seat.KeepsView) ∧
      ((initial.run left).fabric.hub.data[sender]?).isSome = true ∧
      ((initial.run left).perform (fun _ => .agreeable) ⟨"two"⟩ delivery).cluster.fabric =
        (initial.run left).fabric ∧
      ((initial.run left).perform (fun _ => .agreeable) ⟨"two"⟩ delivery).hearings = [] := by
  intro initial left
  have hrun : ((initial.run steps).seat? ⟨"two"⟩).any (·.node.server.shuttingDown = false) = true ∧
      ((initial.run left).fabric.hub.data[sender]?).isSome = true := by
    decide +kernel
  obtain ⟨seat, hseat, hawake⟩ := (Option.any_eq_true _ _).mp hrun.1
  have hdeparted : initial.Departed left ⟨"two"⟩ fun seat => ¬ seat.KeepsView := by
    refine ⟨steps, fun _ => .agreeable, [], seat, rfl, hseat, fun hkeeps => ?_, by simp⟩
    cases hkeeps.1.symm.trans (of_decide_eq_true hawake)
  have hnodes : ∀ step ∈ left, step.operation.isHub = false := by
    simp [left, steps, act, Operation.isHub]
  obtain ⟨hisolated, -⟩ := Cluster.detached_writes_nothing "hub" members hnodes
  exact ⟨hdeparted, hrun.2, hisolated ⟨"two"⟩ hdeparted _ delivery rfl⟩

/-- Both nodes join, and the first one leaves during shutdown. -/
def closing : List Step :=
  [act "one" (.membership .localJoined), act "two" (.membership .localJoined), act "one" .shutdown,
    act "one" (.membership .localLeft)]

/-- A node that has left during shutdown still writes to the hub, where it is no member, and the
members hear of it. -/
theorem writes_after_shutdown :
    let initial := Cluster.start "hub" members
    let left := initial.run closing
    let after := left.perform (fun _ => .agreeable) ⟨"one"⟩ delivery
    initial.Departed closing ⟨"one"⟩ Seat.KeepsView ∧
      left.fabric.hub.size = 0 ∧ ⟨"one"⟩ ∉ left.fabric.hub.members ∧
      (after.cluster.fabric.hub.data[sender]?).map (·.owner) = some ⟨"one"⟩ ∧
      ⟨"one"⟩ ∉ after.cluster.fabric.hub.members ∧
      after.hearings.map (·.registration.listener.node) = [⟨"two"⟩] := by
  intro initial left after
  have hrun : ((initial.run (closing.take 3)).seat? ⟨"one"⟩).any (fun seat =>
        seat.node.server.shuttingDown = true ∧ seat.node.cache.isClustered = true) = true ∧
      left.fabric.hub.size = 0 ∧ ⟨"one"⟩ ∉ left.fabric.hub.members ∧
      (after.cluster.fabric.hub.data[sender]?).map (·.owner) = some ⟨"one"⟩ ∧
      ⟨"one"⟩ ∉ after.cluster.fabric.hub.members ∧
      after.hearings.map (·.registration.listener.node) = [⟨"two"⟩] := by
    decide +kernel
  obtain ⟨hseat, hrest⟩ := hrun
  obtain ⟨seat, hseat, hkeeps⟩ := (Option.any_eq_true _ _).mp hseat
  have hkept : seat.node.server.shuttingDown = true ∧ seat.node.cache.isClustered = true :=
    of_decide_eq_true hkeeps
  exact ⟨⟨closing.take 3, fun _ => .agreeable, [], seat, rfl, hseat, hkept, by simp⟩, hrest⟩

end Sample

end DirectedPresence
