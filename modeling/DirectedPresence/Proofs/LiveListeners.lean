import DirectedPresence.Proofs.HubActs

/-!
A node that is in the cluster has one listener there, and a node that is not has none. Each join
gives the node another view and another table of listeners, while former views stay in use. In every
run in which nodes leave the hub by themselves only, the phase of a node tells whether it is a
member (`Hub.InStep`); a member has its own feed registered, once, and the feed of any other node is
registered nowhere. A feed that gets the values refuses nothing that the hub tells, so it stays
registered, hears what the others do to the hub, each act once, and lets the index of its node take
note of it (`Cluster.listens_while_clustered`).
-/

namespace DirectedPresence

/-! ## Who refuses -/

namespace Hub

variable {L σ : Type} {P : NodeId → Listeners L → Prop} {hub : Hub L} {node : NodeId}
  {mine : L → Bool} {contents : Contents} {react : Reaction L σ} {event : CacheEvent}

/-- Whoever hears an event is registered in the table of a member, and refused the event in some
world if it refused it. -/
theorem EachTable.hearing_tell (h : hub.EachTable P)
    (hdispatch : ∀ node t world, P node t → P node (t.dispatch react event world).1)
    {nodes : List NodeId} {world : σ} {hearing : Hearing L}
    (hmem : hearing ∈ (Hub.tell react event nodes hub world).2.2) :
    ∃ node t, P node t ∧ hearing.registration ∈ t.registrations ∧ ∃ before,
      (react hearing.registration.listener (hearing.registration.view event) before).2 =
        hearing.refusal := by
  induction nodes generalizing hub world with
  | nil => cases hmem
  | cons first nodes ih =>
    unfold Hub.tell at hmem
    split at hmem
    · exact ih h hmem
    · next member hmember =>
      have htable : P first member.listeners := h first member hmember
      rcases List.mem_append.mp hmem with hfirst | hrest
      · exact ⟨first, member.listeners, htable, Listeners.exists_refusal react event world hfirst⟩
      · exact ih (h.seat (hdispatch first member.listeners world htable)) hrest

/-- A listener that is registered with values and refuses nothing of what is told hears it. -/
theorem Attends.willing_perform (h : hub.Attends mine node) (hholds : hub.Holds contents)
    {act : HubAct L} (hspares : act.Spares mine node)
    (hkeen : ∀ event ∈ act.event? contents, Listeners.Keen mine react event) {world : σ}
    {hearing : Hearing L} (hmem : hearing ∈ (hub.perform react act world).hearings)
    (hmine : mine hearing.registration.listener = true) : hearing.refusal = none := by
  have hstaged : (hub.staged contents act).Attends mine node := h.staged contents hspares
  rw [hholds.perform_eq react act world] at hmem
  cases hevent : act.event? contents with
  | none =>
    rw [hevent] at hmem
    cases hmem
  | some event =>
    rw [hevent] at hmem
    have hkeen : Listeners.Keen mine react event := hkeen event hevent
    obtain ⟨other, t, hplaced, hregistered, before, hrefusal⟩ :=
      hstaged.tables.hearing_tell (fun _ _ world hplaced => hplaced.dispatch hkeen world) hmem
    by_cases hother : other = node
    · subst hother
      obtain ⟨r, hr, hvalues⟩ := hplaced.single
      have hself : hearing.registration ∈ t.registrations.filter fun r => mine r.listener :=
        List.mem_filter.mpr ⟨hregistered, hmine⟩
      rw [hr, List.mem_singleton] at hself
      rw [← hrefusal, Registration.view, hself, if_pos hvalues]
      exact hkeen r.listener before (hself ▸ hmine)
    · rw [hplaced.without hother _ hregistered] at hmine
      cases hmine

/-- Where a listener is not registered it hears nothing. -/
theorem Unattended.silent_perform (h : hub.Unattended mine) (hholds : hub.Holds contents)
    {act : HubAct L} (hothers : ∀ listener ∈ act.listener?, mine listener = false) {world : σ}
    {hearing : Hearing L} (hmem : hearing ∈ (hub.perform react act world).hearings) :
    mine hearing.registration.listener = false := by
  have hkeeps : act.Keeps fun _ t => t.Tidy ∧ t.Without mine := Unattended.keeps hothers
  have hstaged : (hub.staged contents act).Unattended mine := h.staged contents hkeeps
  rw [hholds.perform_eq react act world] at hmem
  cases hevent : act.event? contents with
  | none =>
    rw [hevent] at hmem
    cases hmem
  | some event =>
    rw [hevent] at hmem
    obtain ⟨_, t, hwithout, hregistered, -⟩ := hstaged.hearing_tell
      (fun _ _ world h => ⟨h.1.dispatch react event world, h.2.dispatch react event world⟩) hmem
    exact hwithout.2 _ hregistered

private theorem ticket_tell (nodes : List NodeId) (world : σ) :
    (tell react event nodes hub world).1.members[node]?.map (·.ticket) =
      hub.members[node]?.map (·.ticket) := by
  induction nodes generalizing hub world with
  | nil => rfl
  | cons first nodes ih =>
    unfold tell
    split
    · exact ih world
    · next member hmember =>
      refine (ih _).trans ?_
      by_cases heq : first = node
      · simp [heq ▸ hmember, heq]
      · simp [Std.ExtTreeMap.getElem?_insert, heq]

/-- A call leaves every view as current as it was. -/
theorem IsCurrent.perform_call {view : View} (h : hub.IsCurrent view) (caller : View)
    (request : CacheCall) (world : σ) :
    (hub.perform react (.call caller request) world).cache.IsCurrent view := by
  refine Eq.trans ?_ h
  cases request with
  | get | entries => rfl
  | put key value =>
    simp only [perform, put, Change.map]
    split
    · rfl
    · exact ticket_tell _ _
  | remove key =>
    simp only [perform, remove, takeOut, Change.map]
    split
    · rfl
    · split
      · rfl
      · exact ticket_tell _ _

private theorem IsCurrent.run_calls {view caller : View} (h : hub.IsCurrent view)
    {acts : List (HubAct L)}
    (hcalls : ∀ act ∈ acts, ∃ request, act = .call caller request) {world : σ} :
    (hub.run react acts world).cache.IsCurrent view := by
  induction acts generalizing hub world with
  | nil => exact h
  | cons act acts ih =>
    obtain ⟨request, rfl⟩ := hcalls act List.mem_cons_self
    exact ih (h.perform_call caller request world) fun later hmem =>
      hcalls later (List.mem_cons_of_mem _ hmem)

end Hub

/-! ## What a feed hears -/

namespace HubAct

variable {L : Type} {node : NodeId} {contents : Contents}

/-- What a node learns of several acts, one after another. -/
def tidings (node : NodeId) : Contents → List (HubAct L) → List CacheEvent
  | _, [] => []
  | contents, act :: acts =>
    (act.news node contents).toList ++ tidings node (act.effect contents) acts

/-- Of what it does itself a node learns nothing. -/
theorem tidings_eq_nil {acts : List (HubAct L)}
    (hown : ∀ act ∈ acts, ∀ contents, act.news node contents = none) :
    tidings node contents acts = [] := by
  induction acts generalizing contents with
  | nil => rfl
  | cons act acts ih =>
    rw [tidings, hown act List.mem_cons_self, ih fun later hmem => hown later
      (List.mem_cons_of_mem act hmem)]
    rfl

end HubAct

namespace Hub

variable {env : Environment} {hub : Hub Feed} {node : NodeId} {contents : Contents}
  {acts : List (HubAct Feed)} {indexes : NodeMap ReverseIndex} {phase : Phase}

/-- While its node neither joins nor leaves, a feed that is registered with values stays so, hears
of every act of others once, and refuses nothing. -/
theorem Attends.run_feed (h : hub.Attends (Feed.isOf node) node) (hholds : hub.Holds contents)
    (hspares : ∀ act ∈ acts, act.Spares (Feed.isOf node) node) :
    (hub.run (Feed.react env) acts indexes).cache.Attends (Feed.isOf node) node ∧
      heard (Feed.isOf node) (hub.run (Feed.react env) acts indexes).hearings =
        HubAct.tidings node contents acts ∧
      ∀ hearing ∈ (hub.run (Feed.react env) acts indexes).hearings,
        Feed.isOf node hearing.registration.listener = true → hearing.refusal = none := by
  induction acts generalizing hub contents indexes with
  | nil => exact ⟨h, rfl, fun _ hmem => absurd hmem List.not_mem_nil⟩
  | cons act acts ih =>
    have hact : act.Spares (Feed.isOf node) node := hspares act List.mem_cons_self
    have hkeen : ∀ event ∈ act.event? contents,
        Listeners.Keen (Feed.isOf node) (Feed.react env) event :=
      fun event hevent => Feed.keen (HubAct.valued_event? event hevent)
    obtain ⟨hattends, hheard, hwilling⟩ := ih (h.perform hholds hact hkeen indexes)
      (hholds.perform (Feed.react env) act indexes)
      fun later hmem => hspares later (List.mem_cons_of_mem act hmem)
    refine ⟨hattends, ?_, ?_⟩
    · rw [Hub.run, Change.run, heard_append, h.heard_perform hholds hact hkeen, HubAct.tidings]
      exact congrArg _ hheard
    · intro hearing hmem hmine
      rcases List.mem_append.mp hmem with hfirst | hrest
      · exact h.willing_perform hholds hact hkeen hfirst hmine
      · exact hwilling hearing hrest hmine

private theorem Unattended.silent_run (h : hub.Unattended (Feed.isOf node))
    (hholds : hub.Holds contents)
    (hothers : ∀ act ∈ acts, ∀ feed ∈ act.listener?, Feed.isOf node feed = false) :
    ∀ hearing ∈ (hub.run (Feed.react env) acts indexes).hearings,
      Feed.isOf node hearing.registration.listener = false := by
  induction acts generalizing hub contents indexes with
  | nil => exact fun _ hmem => absurd hmem List.not_mem_nil
  | cons act acts ih =>
    intro hearing hmem
    have hfirst : (hub.perform (Feed.react env) act indexes).cache.Unattended (Feed.isOf node) :=
      h.perform hholds (hothers act List.mem_cons_self)
    rcases List.mem_append.mp hmem with hheard | hrest
    · exact h.silent_perform hholds (hothers act List.mem_cons_self) hheard
    · exact ih hfirst (hholds.perform (Feed.react env) act indexes)
        (fun later hmem => hothers later (List.mem_cons_of_mem act hmem)) hearing hrest

/-- A member whose feed is registered listens, if no other node's feed is registered with it. -/
theorem Attends.listens (h : hub.Attends (Feed.isOf node) node) (hdedicated : hub.Dedicated) :
    hub.Listens node := by
  obtain ⟨⟨ticket, nextId, registrations⟩, hmember⟩ :=
    Option.isSome_iff_exists.mp (Std.ExtTreeMap.mem_iff_isSome_getElem?.mp h.member)
  have hplaced : Placed (Feed.isOf node) node node ⟨nextId, registrations⟩ :=
    h.tables node _ hmember
  obtain ⟨⟨id, ⟨name, peer⟩, includesValues⟩, hr, hvalues⟩ := hplaced.single
  have hall : registrations.filter (fun r => Feed.isOf node r.listener) = registrations :=
    List.filter_eq_self.mpr fun r hmem => decide_eq_true (hdedicated node _ hmember r hmem)
  have hone : registrations = [⟨id, ⟨name, peer⟩, includesValues⟩] := hall.symm.trans hr
  have hpeer : peer = node := hdedicated node _ hmember ⟨id, ⟨name, peer⟩, includesValues⟩
    (by rw [hone]; exact List.mem_cons_self)
  refine ⟨ticket, nextId, id, name, ?_⟩
  rw [hmember, hone, hpeer]
  rw [show includesValues = true from hvalues]

/-! ## Membership and phase -/

/-- The hub is in step with the phase of a node: its feed is registered while the node is in the
cluster, and otherwise the node is no member and its feed is registered nowhere. -/
inductive InStep (hub : Hub Feed) (node : NodeId) : Phase → Prop where
  | clustered (attends : hub.Attends (Feed.isOf node) node) : InStep hub node .clustered
  | standalone (absent : node ∉ hub.members) (unattended : hub.Unattended (Feed.isOf node)) :
      InStep hub node .standalone

/-- What a step lets a node hear, and what it lets it learn. -/
structure Serves (hub : Hub Feed) (env : Environment) (node : NodeId) (contents : Contents)
    (acts : List (HubAct Feed)) (indexes : NodeMap ReverseIndex) : Prop where
  /-- The feed of the node refuses nothing. -/
  willing : ∀ hearing ∈ (hub.run (Feed.react env) acts indexes).hearings,
    Feed.isOf node hearing.registration.listener = true → hearing.refusal = none
  /-- A node outside the hub hears nothing. -/
  silent : node ∉ hub.members → heard (Feed.isOf node)
    (hub.run (Feed.react env) acts indexes).hearings = []
  /-- A member hears of every act of others once. -/
  told : node ∈ hub.members → heard (Feed.isOf node)
    (hub.run (Feed.react env) acts indexes).hearings = HubAct.tidings node contents acts

private theorem heard_eq_nil {hearings : List (Hearing Feed)}
    (hsilent : ∀ hearing ∈ hearings, Feed.isOf node hearing.registration.listener = false) :
    heard (Feed.isOf node) hearings = [] := by
  rw [heard, List.filter_eq_nil_iff.mpr fun hearing hmem => by simp [hsilent hearing hmem],
    List.map_nil]

private theorem Serves.of_silent
    (hsilent : ∀ hearing ∈ (hub.run (Feed.react env) acts indexes).hearings,
      Feed.isOf node hearing.registration.listener = false)
    (hnone : node ∈ hub.members → HubAct.tidings node contents acts = []) :
    hub.Serves env node contents acts indexes where
  willing := by
    intro hearing hmem hmine
    rw [hsilent hearing hmem] at hmine
    cases hmine
  silent := fun _ => heard_eq_nil hsilent
  told := fun hmember => (heard_eq_nil hsilent).trans (hnone hmember).symm

/-- As long as the node neither joins nor leaves, the hub stays in step with it. -/
theorem InStep.run (h : hub.InStep node phase) (hholds : hub.Holds contents)
    (hspares : ∀ act ∈ acts, act.Spares (Feed.isOf node) node) :
    (hub.run (Feed.react env) acts indexes).cache.InStep node phase ∧
      hub.Serves env node contents acts indexes := by
  cases h with
  | clustered attends =>
    obtain ⟨hattends, hheard, hwilling⟩ := attends.run_feed hholds hspares
    exact ⟨.clustered hattends, hwilling, fun habsent => absurd attends.member habsent,
      fun _ => hheard⟩
  | standalone absent unattended =>
    have hothers : ∀ act ∈ acts, ∀ feed ∈ act.listener?, Feed.isOf node feed = false :=
      fun act hmem => (hspares act hmem).2
    have habsent : node ∉ (hub.run (Feed.react env) acts indexes).cache.members :=
      fun hmem => absent ((mem_members_run fun act hact => (hspares act hact).1).mp hmem)
    exact ⟨.standalone habsent (unattended.run hholds hothers),
      .of_silent (unattended.silent_run hholds hothers) fun hmember => absurd hmember absent⟩

/-- No other node's table has the feed of the node. -/
theorem InStep.elsewhere (h : hub.InStep node phase) : hub.EachTable fun other t =>
    t.Tidy ∧ (other ≠ node → t.Without (Feed.isOf node)) := by
  intro other member hmember
  cases h with
  | clustered attends =>
    have hplaced := attends.tables other member hmember
    exact ⟨hplaced.1, hplaced.without⟩
  | standalone _ unattended =>
    have hwithout := unattended other member hmember
    exact ⟨hwithout.1, fun _ => hwithout.2⟩

/-- Whether a node joins for the first time or again, afterwards its feed is registered once. What
it writes meanwhile it does not hear. -/
theorem InStep.join (h : hub.InStep node phase) (hholds : hub.Holds contents) (name : String)
    (hcalls : ∀ act ∈ acts, ∃ request, act = .call (hub.join node).2 request) :
    (hub.run (Feed.react env) (.join node :: acts ++ [.listen (hub.join node).2 ⟨name, node⟩ true])
        indexes).cache.InStep node .clustered ∧
      hub.Serves env node contents
        (.join node :: acts ++ [.listen (hub.join node).2 ⟨name, node⟩ true]) indexes := by
  have hentered : (hub.join node).1.Unattended (Feed.isOf node) := by
    intro other member hmember
    have hfound : (hub.members.insert node ⟨hub.joins, {}⟩)[other]? = some member := hmember
    rw [Std.ExtTreeMap.getElem?_insert] at hfound
    split at hfound
    · cases hfound
      exact ⟨Listeners.tidy_empty, Listeners.without_empty⟩
    · next hne =>
      obtain ⟨htidy, hwithout⟩ := h.elsewhere other member hfound
      exact ⟨htidy, hwithout fun heq => hne (Std.LawfulEqOrd.compare_eq_iff_eq.mpr heq.symm)⟩
  have hothers : ∀ act ∈ acts, ∀ feed ∈ act.listener?, Feed.isOf node feed = false := by
    intro act hact
    obtain ⟨request, rfl⟩ := hcalls act hact
    exact nofun
  have hheld : (hub.join node).1.Holds contents := hholds
  have hfresh : (hub.join node).1.IsCurrent (hub.join node).2 := by simp [IsCurrent, Hub.join]
  have hcurrent : (hub.run (Feed.react env) (.join node :: acts) indexes).cache.IsCurrent
      (hub.join node).2 := hfresh.run_calls hcalls
  have hbefore : (hub.run (Feed.react env) (.join node :: acts) indexes).cache.Unattended
      (Feed.isOf node) := hentered.run hheld hothers
  constructor
  · rw [Hub.run, Change.run_append]
    exact .clustered (hbefore.attends hcurrent (decide_eq_true rfl))
  · refine .of_silent ?_ fun _ => HubAct.tidings_eq_nil ?_
    · intro hearing hmem
      rw [Hub.run, Change.run_append] at hmem
      rcases List.mem_append.mp hmem with hmem | hmem
      · exact hentered.silent_run hheld hothers hearing hmem
      · cases hmem
    · exact HubAct.forall_joining hcalls (fun _ => rfl)
        (fun _ _ => (HubAct.news_call _ _ _ _).trans (if_pos rfl)) fun _ => rfl

/-- A node that has left is not registered any more, whether it was before or not. -/
theorem InStep.leave (h : hub.InStep node phase) :
    (hub.run (Feed.react env) [.leave node] indexes).cache.InStep node .standalone ∧
      hub.Serves env node contents [.leave node] indexes := by
  refine ⟨.standalone ?_ ?_, .of_silent (fun _ hmem => absurd hmem List.not_mem_nil) fun _ => rfl⟩
  · exact fun hmem => (Std.ExtTreeMap.mem_erase.mp hmem).1 Std.ReflOrd.compare_self
  · intro other member hmember
    have hfound : (hub.members.erase node)[other]? = some member := hmember
    rw [Std.ExtTreeMap.getElem?_erase] at hfound
    split at hfound
    · cases hfound
    · next hne =>
      obtain ⟨htidy, hwithout⟩ := h.elsewhere other member hfound
      exact ⟨htidy, hwithout fun heq => hne (Std.LawfulEqOrd.compare_eq_iff_eq.mpr heq.symm)⟩

end Hub

/-! ## Steps -/

namespace Seat

variable {env : Environment} {seat : Seat} {node : NodeId} {contents : Contents} {phase : Phase}
  {operation : Operation}

/-- What a step of any node comes to, with one node in view: the hub stays in step with that node,
and its index follows what its feed hears, unless the node itself learns of a change of the
membership. -/
theorem Unheard.inStep_perform (h : seat.Unheard) (env : Environment)
    (hinstep : seat.fabric.hub.InStep node phase) (hholds : seat.fabric.hub.Holds contents)
    (hown : ∀ peer, operation ≠ .hubLeave peer)
    (hvalues : node = seat.node.id → seat.node.settings.includeValues = true)
    (hphase : node = seat.node.id → seat.node.phase = phase) :
    ∃ acts, (seat.perform env operation).Enacts env seat acts ∧
      seat.fabric.hub.Serves env node contents acts seat.fabric.indexes ∧
      (seat.perform env operation).seat.fabric.hub.InStep node
        (if node = seat.node.id then (seat.perform env operation).seat.node.phase else phase) ∧
      ((node = seat.node.id → ∀ event, operation ≠ .membership event) →
        (seat.perform env operation).seat.fabric.index node =
          Feed.follow env node (seat.fabric.index node)
            (heard (Feed.isOf node) (seat.perform env operation).hearings)) := by
  rw [phase_perform]
  by_cases hmoves : node = seat.node.id ∧
      (operation = .membership .localJoined ∨ operation = .membership .localLeft)
  · obtain ⟨rfl, rfl | rfl⟩ := hmoves
    · obtain ⟨calls, hcalls, hhub, hindex, hhearings⟩ := enacts_join env seat
      rw [hvalues rfl] at hhub hindex hhearings
      obtain ⟨hafter, hserves⟩ := hinstep.join hholds seat.node.settings.listenerName hcalls
      refine ⟨_, ⟨hhub, hindex, hhearings⟩, hserves, ?_, fun hother => absurd rfl (hother rfl _)⟩
      rw [if_pos rfl, if_pos rfl]
      exact hhub ▸ hafter
    · obtain ⟨hhub, hindex, hhearings⟩ := enacts_leave env seat
      obtain ⟨hafter, hserves⟩ := hinstep.leave
      refine ⟨_, ⟨hhub, hindex, hhearings⟩, hserves, ?_, fun hother => absurd rfl (hother rfl _)⟩
      rw [if_pos rfl, if_neg (by simp), if_pos rfl]
      exact hhub ▸ hafter
  · have hother : node = seat.node.id →
        operation ≠ .membership .localJoined ∧ operation ≠ .membership .localLeft :=
      fun heq => not_or.mp fun hmove => hmoves ⟨heq, hmove⟩
    obtain ⟨acts, hspares, henacts, hcomes⟩ := h.spares_perform env hown hother
    obtain ⟨hafter, hserves⟩ := hinstep.run hholds hspares
    refine ⟨acts, henacts, hserves, ?_, ?_⟩
    · rw [henacts.hub]
      by_cases heq : node = seat.node.id
      · rw [if_pos heq, if_neg (hother heq).1, if_neg (hother heq).2, hphase heq]
        exact hafter
      · rw [if_neg heq]
        exact hafter
    · intro hplain
      rw [henacts.hearings]
      refine Eq.trans ?_ (hholds.index_run env node acts seat.fabric.indexes)
      by_cases heq : node = seat.node.id
      · rw [Fabric.index, (hcomes (hplain heq)).indexes]
      · exact henacts.index node heq

end Seat

namespace Cluster

variable {c : Cluster} {node : NodeId} {seat : Seat} {step : Step} {steps : List Step}

/-- For the hub and the feeds the step is a sequence of these acts on the hub. -/
structure Does (c : Cluster) (step : Step) (acts : List (HubAct Feed)) : Prop where
  hub : (c.after step).fabric.hub =
    (c.fabric.hub.run (Feed.react step.env) acts c.fabric.indexes).cache
  hearings : (c.perform step.env step.node step.operation).hearings =
    (c.fabric.hub.run (Feed.react step.env) acts c.fabric.indexes).hearings

/-- What the feed of a node hears of a step, and what becomes of the index of the node. -/
structure Heeds (c : Cluster) (node : NodeId) (step : Step) : Prop where
  /-- The feed refuses nothing, and so it stays registered. -/
  willing : ∀ hearing ∈ (c.perform step.env step.node step.operation).hearings,
    hearing.registration.listener.node = node → hearing.refusal = none
  /-- While the node is not a member its feed hears nothing. -/
  silent : node ∉ c.fabric.hub.members → heard (Feed.isOf node)
    (c.perform step.env step.node step.operation).hearings = []
  /-- While the node is a member its feed hears of each act of others that there is an event of,
  once, in the order of the acts. -/
  told : node ∈ c.fabric.hub.members → ∃ contents acts, c.fabric.hub.Holds contents ∧
    c.Does step acts ∧ heard (Feed.isOf node)
      (c.perform step.env step.node step.operation).hearings = HubAct.tidings node contents acts
  /-- The index takes note of each event that the feed hears, once, and changes by nothing else but
  the node's own dealing with the membership. -/
  noted : (step.node = node → ∀ event, step.operation ≠ .membership event) →
    (c.after step).fabric.index node = Feed.follow step.env node (c.fabric.index node)
      (heard (Feed.isOf node) (c.perform step.env step.node step.operation).hearings)

/-- The hub is in step with the phase of the node, which has its feed registered with values. -/
structure Keeps (c : Cluster) (node : NodeId) : Prop where
  wired : c.Wired
  holds : ∃ contents, c.fabric.hub.Holds contents
  inStep : ∀ seat, c.seat? node = some seat →
    c.fabric.hub.InStep node seat.node.phase ∧ seat.node.settings.includeValues = true

private theorem keeps_start (hubName : String) {members : List (Server × Settings)}
    (hvalues : ∀ p ∈ members, p.1.node = node → p.2.includeValues = true) :
    (start hubName members).Keeps node where
  wired := wired_start hubName members
  holds := ⟨∅, Hub.holds_empty rfl⟩
  inStep := by
    intro seat hseat
    obtain ⟨hnode, hid, hfabric⟩ := seat?_ofNodes hseat
    obtain ⟨p, hp, hstart⟩ := List.mem_map.mp hnode
    constructor
    · rw [← fabric_of_seat? hseat, hfabric, ← hstart]
      exact .standalone (by simp) (Hub.unattended_start hubName)
    · rw [← hstart]
      exact hvalues p hp (by rw [← hid, ← hstart]; rfl)

/-- The node heeds a step that comes to acts by which it is served. -/
theorem Does.heeds {contents : Contents} {acts : List (HubAct Feed)} (hdoes : c.Does step acts)
    (hholds : c.fabric.hub.Holds contents)
    (hserves : c.fabric.hub.Serves step.env node contents acts c.fabric.indexes)
    (hnoted : (step.node = node → ∀ event, step.operation ≠ .membership event) →
      (c.after step).fabric.index node = Feed.follow step.env node (c.fabric.index node)
        (heard (Feed.isOf node) (c.perform step.env step.node step.operation).hearings)) :
    c.Heeds node step where
  willing := fun hearing hmem hfeed =>
    hserves.willing hearing (hdoes.hearings ▸ hmem) (decide_eq_true hfeed)
  silent := fun habsent => hdoes.hearings ▸ hserves.silent habsent
  told := fun hmember => ⟨contents, acts, hholds, hdoes, hdoes.hearings ▸ hserves.told hmember⟩
  noted := hnoted

/-- A step of a node that is not there comes to nothing. -/
theorem heeds_of_none {contents : Contents} (hholds : c.fabric.hub.Holds contents)
    (hactor : c.seat? step.node = none) : c.Heeds node step := by
  have hidle : c.perform step.env step.node step.operation =
      { answer := .done, cluster := c } := by
    rw [perform, hactor]
  have hafter : c.after step = c := after_of_none hactor
  have hdoes : c.Does step [] := ⟨by rw [hafter]; rfl, by rw [hidle]; rfl⟩
  refine hdoes.heeds hholds
    (.of_silent (fun _ hmem => absurd hmem List.not_mem_nil) fun _ => rfl) ?_
  rw [hidle, hafter]
  exact fun _ => rfl

/-- A step keeps the hub in step with a node, and reaches the node as it should. -/
theorem Keeps.after (h : c.Keeps node) (hseat : c.seat? node = some seat)
    (hown : ∀ peer, step.operation ≠ .hubLeave peer) :
    (c.after step).Keeps node ∧ c.Heeds node step := by
  obtain ⟨contents, hholds⟩ := h.holds
  obtain ⟨hinstep, hvalues⟩ := h.inStep seat hseat
  cases hactor : c.seat? step.node with
  | none =>
    have hafter : c.after step = c := after_of_none hactor
    rw [hafter]
    exact ⟨h, heeds_of_none hholds hactor⟩
  | some actor =>
    have hname : actor.node.id = step.node := h.wired.named step.node actor hactor
    have hfabric : actor.fabric = c.fabric := fabric_of_seat? hactor
    have hsame : node = actor.node.id → actor = seat := by
      intro heq
      rw [← hname, ← heq, hseat, Option.some.injEq] at hactor
      exact hactor.symm
    rw [← hfabric] at hinstep hholds
    obtain ⟨acts, henacts, hserves, hafter, hindex⟩ :=
      (h.wired.unheard step.node actor hactor).inStep_perform step.env hinstep hholds hown
        (fun heq => hsame heq ▸ hvalues) fun heq => by rw [hsame heq]
    have hcluster : c.after step =
        c.setSeat step.node (actor.perform step.env step.operation).seat := after_of_seat? hactor
    have hhearings : (c.perform step.env step.node step.operation).hearings =
        (actor.perform step.env step.operation).hearings := by
      rw [perform, hactor]
    obtain ⟨hhub, -, hheard⟩ := henacts
    rw [hfabric] at hhub hheard hindex hserves hholds
    have hdoes : c.Does step acts := ⟨hcluster ▸ hhub, hhearings.trans hheard⟩
    refine ⟨⟨h.wired.after step, ?_, ?_⟩, hdoes.heeds hholds hserves ?_⟩
    · exact ⟨_, hdoes.hub ▸ hholds.run (Feed.react step.env) c.fabric.indexes acts⟩
    · intro other hother
      rw [hcluster] at hother ⊢
      rcases seat?_setSeat_cases hother with ⟨heq, rfl⟩ | ⟨hne, old, hold, rfl⟩
      · rw [if_pos (heq.trans hname.symm)] at hafter
        refine ⟨hafter, ?_⟩
        rw [Seat.settings_perform, hsame (heq.trans hname.symm)]
        exact hvalues
      · rw [if_neg fun heq => hne (heq.trans hname)] at hafter
        rw [hseat, Option.some.injEq] at hold
        subst hold
        exact ⟨hafter, hvalues⟩
    · intro hplain
      rw [hcluster, hhearings]
      exact hindex fun heq => hplain (hname.symm.trans heq.symm)

private theorem keeps_run (hubName : String) {members : List (Server × Settings)}
    (hvalues : ∀ p ∈ members, p.1.node = node → p.2.includeValues = true)
    (hown : ∀ step ∈ steps, ∀ peer, step.operation ≠ .hubLeave peer)
    (hseat : ((start hubName members).run steps).seat? node = some seat) :
    ((start hubName members).run steps).Keeps node := by
  induction steps using List.reverseRecOn generalizing seat with
  | nil => exact keeps_start hubName hvalues
  | append_singleton steps step ih =>
    rw [run_concat] at hseat ⊢
    obtain ⟨before, hbefore⟩ := exists_seat_of_after hseat
    have hkeeps := ih (fun other hmem => hown other (List.mem_append_left _ hmem)) hbefore
    exact (hkeeps.after hbefore (hown step (by simp))).1

/-- A node has exactly one live listener while it is in the cluster, and none otherwise. Whatever
happens at whatever nodes, in whatever order, with shutdowns, evictions, clearings and failing
caches, as long as the node's feed asks for values and nodes leave the hub by themselves only: the
node is either in the cluster, and then it is a member of the hub and its feed is registered there
once, or it stands alone, and then it is no member and its feed is registered nowhere. In whatever
happens next its feed refuses nothing; if the node is a member the feed hears of each act of the
others once, and of nothing if it is not; and its index takes note of what the feed hears, once. -/
theorem listens_while_clustered (hubName : String) {members : List (Server × Settings)}
    (hvalues : ∀ p ∈ members, p.1.node = node → p.2.includeValues = true)
    (hown : ∀ step ∈ steps, ∀ peer, step.operation ≠ .hubLeave peer)
    (hseat : ((start hubName members).run steps).seat? node = some seat) :
    let c := (start hubName members).run steps
    ((seat.node.phase = .clustered ∧ node ∈ c.fabric.hub.members ∧ c.fabric.hub.Listens node ∧
        c.fabric.hub.Attends (Feed.isOf node) node) ∨
      (seat.node.phase = .standalone ∧ node ∉ c.fabric.hub.members ∧
        c.fabric.hub.Unattended (Feed.isOf node))) ∧
      ∀ next : Step, (∀ peer, next.operation ≠ .hubLeave peer) → c.Heeds node next := by
  intro c
  have hkeeps : c.Keeps node := keeps_run hubName hvalues hown hseat
  refine ⟨?_, fun next hnext => (hkeeps.after hseat hnext).2⟩
  have hinstep := (hkeeps.inStep seat hseat).1
  generalize hphase : seat.node.phase = phase at hinstep
  cases hinstep with
  | clustered attends =>
    exact .inl ⟨rfl, attends.member, attends.listens hkeeps.wired.dedicated, attends⟩
  | standalone absent unattended => exact .inr ⟨rfl, absent, unattended⟩

end Cluster

namespace Sample

/-- Both nodes join, and the first one leaves and joins twice more. -/
def rejoined : List Step :=
  [act "one" (.membership .localJoined), act "two" (.membership .localJoined),
    act "one" (.membership .localLeft), act "one" (.membership .localJoined),
    act "one" (.membership .localJoined)]

/-- However often the first node has joined, it hears of a delivery of the second one once. -/
theorem rejoined_listens_once :
    let c := (Cluster.start "hub" members).run rejoined
    let next := act "two" (.directedSent (.available sender) handler receiver)
    (∃ seat, c.seat? ⟨"one"⟩ = some seat ∧ seat.node.phase = .clustered) ∧
      c.fabric.hub.Listens ⟨"one"⟩ ∧ c.Heeds ⟨"one"⟩ next ∧
      (heard (Feed.isOf ⟨"one"⟩)
        (c.perform next.env next.node next.operation).hearings).length = 1 := by
  intro c next
  have hrun : (c.seat? ⟨"one"⟩).any (·.node.phase = .clustered) = true ∧
      (heard (Feed.isOf ⟨"one"⟩)
        (c.perform next.env next.node next.operation).hearings).length = 1 := by
    decide +kernel
  obtain ⟨seat, hseat, hphase⟩ := (Option.any_eq_true _ _).mp hrun.1
  have hclustered : seat.node.phase = .clustered := of_decide_eq_true hphase
  have hvalues : ∀ p ∈ members, p.1.node = ⟨"one"⟩ → p.2.includeValues = true := by decide
  have hown : ∀ step ∈ rejoined, ∀ peer, step.operation ≠ .hubLeave peer := by
    simp [rejoined, act]
  obtain ⟨hstands, hheeds⟩ := Cluster.listens_while_clustered "hub" hvalues hown hseat
  have hnext : ∀ peer, next.operation ≠ .hubLeave peer := fun _ => by simp [next, act]
  refine ⟨⟨seat, hseat, hclustered⟩, ?_, hheeds next hnext, hrun.2⟩
  rcases hstands with ⟨-, -, hlistens, -⟩ | ⟨hstandalone, -⟩
  · exact hlistens
  · cases hclustered.symm.trans hstandalone

end Sample

end DirectedPresence
