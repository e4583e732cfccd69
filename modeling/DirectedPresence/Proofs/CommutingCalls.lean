import DirectedPresence.Proofs.OrderlyDepartures
import DirectedPresence.Proofs.SenderFrames
import DirectedPresence.Services.Tables

/-!
Calls for different accounts commute. A call deals with senders of the account that it is about: it
leaves alone what is known of others anywhere, and depends on nothing but what is known of its own
(`Cluster.Calm.after_elsewhere`, `Cluster.Calm.outcome_alike`). So of two calls for different
accounts neither notices whether the other one came before it, and what is known in the end is the
same either way (`Cluster.Calm.commute`). In the end that is all there is: an index is determined by
the receivers that it knows, since it holds no node without senders (`Fabric.Compact`).
-/

namespace DirectedPresence

/-! ## Reachable clusters -/

namespace ReverseIndex

variable {index index' : ReverseIndex}

private theorem Compact.getElem?_nodes (h : index.Compact) (peer : NodeId) : index.nodes[peer]? =
    if (index.senders peer).isEmpty then none else some (index.senders peer) := by
  unfold senders
  cases hfound : index.nodes[peer]? with
  | none => simp
  | some senders => simp [h peer senders hfound]

/-- Compact indexes that know the same receivers are the same. -/
theorem Compact.ext (h : index.Compact) (h' : index'.Compact)
    (hsame : ∀ peer sender, index'.receivers? peer sender = index.receivers? peer sender) :
    index' = index := by
  have hsenders : ∀ peer, index'.senders peer = index.senders peer :=
    fun peer => Std.ExtTreeMap.ext_getElem? fun {sender} => hsame peer sender
  refine congrArg ReverseIndex.mk (Std.ExtTreeMap.ext_getElem? fun {peer} => ?_)
  rw [h.getElem?_nodes, h'.getElem?_nodes, hsenders]

private theorem Compact.follow (h : index.Compact) (env : Environment) (node : NodeId)
    (events : List CacheEvent) : (Feed.follow env node index events).Compact := by
  induction events generalizing index with
  | nil => exact h
  | cons event events ih => exact ih (h.noted event)

end ReverseIndex

def Fabric.Compact (f : Fabric) : Prop :=
  ∀ node, (f.index node).Compact

theorem Fabric.Compact.run {f : Fabric} (h : f.Compact) {contents : Contents}
    (hholds : f.hub.Holds contents) (env : Environment) (acts : List (HubAct Feed)) :
    Fabric.Compact ⟨(f.hub.run (Feed.react env) acts f.indexes).cache,
      (f.hub.run (Feed.react env) acts f.indexes).world⟩ := by
  intro node
  rw [Fabric.index, hholds.index_run env node acts f.indexes]
  exact (h node).follow env node _

namespace Seat

variable {env : Environment} {seat : Seat} {contents : Contents}

theorem compact_refilled (env : Environment) (hholds : seat.fabric.hub.Holds contents)
    (hcompact : seat.fabric.Compact) : (seat.refilled env).fabric.Compact := by
  obtain ⟨calls, -, hcomes, -⟩ := wrote_refilled env seat
  intro node
  rw [Fabric.index, refilled, hcomes.indexes]
  exact hcompact.run hholds env (.join seat.node.id :: calls) node

private theorem compact_join (env : Environment) (hholds : seat.fabric.hub.Holds contents)
    (hcompact : seat.fabric.Compact) :
    ((seat.join env).seat.fabric.index seat.node.id).Compact := by
  obtain ⟨-, -, -, hsame⟩ := wrote_refilled env seat
  have hid : (seat.refilled env).node.id = seat.node.id := hsame.id
  have hrefilled : ((seat.refilled env).fabric.index seat.node.id).Compact :=
    compact_refilled env hholds hcompact seat.node.id
  simp only [seat_join, seedIndex, hid]
  split
  · exact hrefilled
  · show ((Fabric.setIndex _ _ _).index _).Compact
    rw [Fabric.index_setIndex, if_pos rfl]
    exact hrefilled.seed

private theorem compact_leave (env : Environment) (hcompact : seat.fabric.Compact) :
    ((seat.leave env).seat.fabric.index seat.node.id).Compact := by
  cases hshutting : seat.node.server.shuttingDown with
  | true =>
    simp only [leave, hshutting, if_true]
    exact hcompact seat.node.id
  | false =>
    rw [leave_of_awake env hshutting]
    show ((Fabric.setIndex _ seat.node.id _).index _).Compact
    rw [Fabric.index_setIndex, if_pos rfl]
    exact ReverseIndex.compact_empty

/-- Whatever happens at a node comes to acts on the hub, and leaves the node's index compact. -/
theorem Unheard.compact_perform (h : seat.Unheard) (hholds : seat.fabric.hub.Holds contents)
    (hcompact : seat.fabric.Compact) (env : Environment) (operation : Operation) :
    ∃ acts, (seat.perform env operation).Enacts env seat acts ∧
      ((seat.perform env operation).seat.fabric.index seat.node.id).Compact := by
  by_cases hmember : ∃ event, operation = .membership event
  · obtain ⟨event, rfl⟩ := hmember
    cases event with
    | localJoined =>
      obtain ⟨calls, -, henacts⟩ := enacts_join env seat
      exact ⟨_, ⟨henacts.hub, henacts.index, henacts.hearings⟩, compact_join env hholds hcompact⟩
    | localLeft =>
      have henacts := enacts_leave env seat
      exact ⟨_, ⟨henacts.hub, henacts.index, henacts.hearings⟩, compact_leave env hcompact⟩
    | remoteJoined peer => exact ⟨[], ⟨rfl, fun _ _ => rfl, rfl⟩, hcompact seat.node.id⟩
    | remoteLeft peer =>
      refine ⟨[], ⟨rfl, fun node hne => ?_, rfl⟩, ?_⟩
      · exact (Fabric.index_setIndex _ _ _ _).trans (if_neg hne.symm)
      · show ((Fabric.setIndex _ seat.node.id _).index _).Compact
        rw [Fabric.index_setIndex, if_pos rfl]
        exact (hcompact seat.node.id).clearNode peer
  · have hplain : ∀ event, operation ≠ .membership event := not_exists.mp hmember
    obtain ⟨acts, -, henacts, hcomes⟩ := h.enacts_perform env (hplain _) (hplain _)
    refine ⟨acts, henacts, ?_⟩
    rw [Fabric.index, (hcomes hplain).indexes]
    exact hcompact.run hholds env acts seat.node.id

/-- Whatever happens at a node, the fabric stays calm and compact. -/
theorem Unheard.calm_perform (h : seat.Unheard) (hcalm : seat.fabric.Calm)
    (hcompact : seat.fabric.Compact) (env : Environment) (operation : Operation) :
    (seat.perform env operation).seat.fabric.Calm ∧
      (seat.perform env operation).seat.fabric.Compact := by
  obtain ⟨contents, hholds⟩ := hcalm.holds
  obtain ⟨acts, henacts, hown⟩ := h.compact_perform hholds hcompact env operation
  have hunattended : seat.fabric.hub.Unattended fun _ => false :=
    fun node member hmember => ⟨hcalm.tidy node member hmember, fun _ _ => rfl⟩
  have hrun : (seat.fabric.hub.run (Feed.react env) acts
      seat.fabric.indexes).cache.Unattended fun _ => false :=
    hunattended.run hholds fun _ _ _ _ => rfl
  refine ⟨⟨(h.confined hcalm.dedicated operation).dedicated, ?_, ?_⟩, fun node => ?_⟩
  · rw [henacts.hub]
    exact fun node member hmember => (hrun node member hmember).1
  · rw [henacts.hub]
    exact ⟨_, hholds.run (Feed.react env) seat.fabric.indexes acts⟩
  · by_cases heq : node = seat.node.id
    · exact heq ▸ hown
    · rw [henacts.index node heq]
      exact hcompact.run hholds env acts node

end Seat

namespace Cluster

variable {c c' c'' : Cluster} {who who' : Address → Prop} {node : NodeId} {seat seat' : Seat}
  {step : Step} {steps : List Step}

/-- What holds in every run whatsoever: listeners feed the index of their own node, the hub can be
read, and no index holds a node without senders. -/
structure Calm (c : Cluster) : Prop where
  wired : c.Wired
  fabric : c.fabric.Calm
  compact : c.fabric.Compact

theorem calm_start (hubName : String) (members : List (Server × Settings)) :
    (start hubName members).Calm where
  wired := wired_start hubName members
  fabric :=
    { dedicated := (wired_start hubName members).dedicated
      tidy := fun node member hmember => by simp [start, ofNodes] at hmember
      holds := ⟨∅, Hub.holds_empty rfl⟩ }
  compact := fun node => by simp [start, ofNodes, Fabric.index, ReverseIndex.compact_empty]

theorem Calm.at_seat (h : c.Calm) (hseat : c.seat? node = some seat) : seat.Calm :=
  ⟨fabric_of_seat? hseat ▸ h.fabric, h.wired.unheard node seat hseat⟩

theorem Calm.after (h : c.Calm) (step : Step) : (c.after step).Calm := by
  cases hseat : c.seat? step.node with
  | none =>
    rw [after_of_none hseat]
    exact h
  | some seat =>
    have hfabric := fabric_of_seat? hseat
    obtain ⟨hcalm, hcompact⟩ := (h.at_seat hseat).unheard.calm_perform (hfabric ▸ h.fabric)
      (hfabric ▸ h.compact) step.env step.operation
    exact ⟨h.wired.after step, after_of_seat? hseat ▸ hcalm, after_of_seat? hseat ▸ hcompact⟩

theorem Calm.run (h : c.Calm) (steps : List Step) : (c.run steps).Calm := by
  induction steps generalizing c with
  | nil => exact h
  | cons step steps ih => exact ih (h.after step)

end Cluster

/-! ## What is known of senders -/

/-- In two places there are nodes that are alike, or there is none in either. -/
abbrev Node.AlikeIfAny (who : Address → Prop) : Option Node → Option Node → Prop :=
  Option.Rel (Node.Alike who)

namespace Node.AlikeIfAny

variable {who who' : Address → Prop} {n? n'? n''? : Option Node}

theorem refl (who : Address → Prop) (n? : Option Node) : Node.AlikeIfAny who n? n? := by
  cases n? with
  | some n => exact .some (.refl who n)
  | none => exact .none

theorem symm (h : Node.AlikeIfAny who n? n'?) : Node.AlikeIfAny who n'? n? := by
  cases h with
  | some h => exact .some h.symm
  | none => exact .none

theorem trans (h : Node.AlikeIfAny who n? n'?) (h' : Node.AlikeIfAny who n'? n''?) :
    Node.AlikeIfAny who n? n''? := by
  cases h with
  | some h =>
    cases h' with
    | some h' => exact .some (h.trans h')
  | none => exact h'

theorem cover (h : Node.AlikeIfAny who n? n'?) (h' : Node.AlikeIfAny who' n? n'?)
    {all : Address → Prop} (hall : ∀ key, all key → who key ∨ who' key) :
    Node.AlikeIfAny all n? n'? := by
  cases h with
  | some h =>
    cases h' with
    | some h' => exact .some (h.cover h' hall)
  | none => exact .none

end Node.AlikeIfAny

namespace Cluster

variable {c c' c'' : Cluster} {who who' : Address → Prop} {node : NodeId} {seat seat' : Seat}
  {step : Step} {steps : List Step}

/-- Two clusters are alike but for what is known of senders, and at every node the same is known of
certain senders. -/
structure Alike (who : Address → Prop) (c c' : Cluster) : Prop where
  fabric : c.fabric.Alike who c'.fabric
  nodes : ∀ id : NodeId, Node.AlikeIfAny who c.nodes[id]? c'.nodes[id]?

namespace Alike

theorem refl (who : Address → Prop) (c : Cluster) : c.Alike who c :=
  ⟨.refl who _, fun _ => .refl who _⟩

theorem symm (h : c.Alike who c') : c'.Alike who c :=
  ⟨h.fabric.symm, fun id => (h.nodes id).symm⟩

theorem trans (h : c.Alike who c') (h' : c'.Alike who c'') : c.Alike who c'' :=
  ⟨h.fabric.trans h'.fabric, fun id => (h.nodes id).trans (h'.nodes id)⟩

theorem cover (h : c.Alike who c') (h' : c.Alike who' c') {all : Address → Prop}
    (hall : ∀ key, all key → who key ∨ who' key) : c.Alike all c' :=
  ⟨h.fabric.cover h'.fabric hall, fun id => (h.nodes id).cover (h'.nodes id) hall⟩

theorem mono (h : c.Alike who c') (himp : ∀ key, who' key → who key) : c.Alike who' c' :=
  h.cover h fun key hkey => .inl (himp key hkey)

/-- Where one cluster has a node the other one has a node that is alike. -/
theorem exists_seat (h : c.Alike who c') (hseat : c.seat? node = some seat) :
    ∃ seat', c'.seat? node = some seat' ∧ Seat.Alike who seat seat' := by
  obtain ⟨found, hfound, rfl⟩ := Option.map_eq_some_iff.mp hseat
  have hnode := h.nodes node
  rw [hfound] at hnode
  generalize hthere : c'.nodes[node]? = n'? at hnode
  cases hnode with
  | some hnode => exact ⟨_, congrArg (Option.map _) hthere, h.fabric, hnode⟩

theorem setSeat (h : c.Alike who c') (hseats : Seat.Alike who seat seat') :
    (c.setSeat node seat).Alike who (c'.setSeat node seat') := by
  refine ⟨hseats.fabric, fun id => ?_⟩
  simp only [Cluster.setSeat, Std.ExtTreeMap.getElem?_insert]
  split
  · exact .some hseats.node
  · exact h.nodes id

end Alike

private theorem alike_setSeat (hseat : c.seat? node = some seat)
    (hseats : Seat.Alike who seat seat') : c.Alike who (c.setSeat node seat') := by
  obtain ⟨found, hfound, rfl⟩ := Option.map_eq_some_iff.mp hseat
  refine ⟨hseats.fabric, fun id => ?_⟩
  simp only [Cluster.setSeat, Std.ExtTreeMap.getElem?_insert]
  split
  · next heq =>
    rw [← Std.LawfulEqOrd.eq_of_compare heq, hfound]
    exact .some hseats.node
  · exact .refl who _

/-- Clusters in which the same is known of all senders are the same, up to the listeners that get no
values. -/
theorem Alike.eq (h : c.Alike (fun _ => True) c') (hcalm : c.Calm) (hcalm' : c'.Calm) :
    c'.nodes = c.nodes ∧ c'.fabric.hub.data = c.fabric.hub.data ∧
      ∀ node, c'.fabric.index node = c.fabric.index node := by
  refine ⟨?_, ?_, fun node => ?_⟩
  · apply Std.ExtTreeMap.ext_getElem?
    intro id
    have hnode := h.nodes id
    generalize c.nodes[id]? = n?, c'.nodes[id]? = n'? at hnode
    cases hnode with
    | some hnode => exact congrArg some hnode.eq
    | none => rfl
  · exact Std.ExtTreeMap.ext_getElem? fun {key} => h.fabric.held key trivial
  · exact (hcalm.compact node).ext (hcalm'.compact node) fun peer key =>
      h.fabric.listed key trivial node peer

def outcome [Enumerates] (c : Cluster) (step : Step) : Transition :=
  c.perform step.env step.node step.operation

/-- A node that deals with certain senders changes nothing that is known of others anywhere. -/
theorem Calm.after_elsewhere (h : c.Calm) (hdealing : step.operation.isDealing = true) :
    c.Alike (fun key => ¬ step.operation.Accesses key) (c.after step) := by
  cases hseat : c.seat? step.node with
  | none => rw [after_of_none hseat]; exact .refl _ c
  | some seat =>
    have hdeals := Seat.deals_perform step.env seat.node.server hdealing
    rw [after_of_seat? hseat]
    exact alike_setSeat hseat (hdeals.elsewhere (h.at_seat hseat) rfl trivial).2

/-- What comes of a step depends on what is known of the senders that it may access. -/
theorem Calm.outcome_alike (h : c.Calm) (h' : c'.Calm)
    (hdealing : step.operation.isDealing = true) (halike : c.Alike step.operation.Accesses c') :
    (c'.outcome step).answer = (c.outcome step).answer ∧
      (c'.outcome step).trace.effects = (c.outcome step).trace.effects ∧
      (c.after step).Alike step.operation.Accesses (c'.after step) := by
  cases hseat : c.seat? step.node with
  | none =>
    cases hseat' : c'.seat? step.node with
    | some seat' =>
      obtain ⟨seat, hthere, -⟩ := halike.symm.exists_seat hseat'
      cases hseat.symm.trans hthere
    | none =>
      rw [after_of_none hseat, after_of_none hseat']
      simp only [outcome, perform, hseat, hseat']
      exact ⟨trivial, trivial, halike⟩
  | some seat =>
    obtain ⟨seat', hseat', hseats⟩ := halike.exists_seat hseat
    have hdeals := Seat.deals_perform step.env seat.node.server hdealing
    have hsame := hdeals.alike hseats (h.at_seat hseat) (h'.at_seat hseat') rfl trivial trivial
    rw [after_of_seat? hseat, after_of_seat? hseat']
    simp only [outcome, perform, hseat, hseat']
    exact ⟨hsame.answer, hsame.effects, halike.setSeat hsame.seat⟩

/-- The calls on services of a step are of the kinds that its operation may make. -/
theorem tells_of_outcome (c : Cluster) (hdealing : step.operation.isDealing = true) :
    ∀ e ∈ (c.outcome step).trace.effects, step.operation.Tells e := by
  unfold outcome perform
  cases c.seat? step.node with
  | none => simp
  | some seat =>
    have hdeals := Seat.deals_perform step.env seat.node.server hdealing
    exact hdeals.tells_of rfl trivial

end Cluster

/-! ## Marks of sessions -/

/-- No operation takes back the mark of a session. -/
theorem Operation.Tells.isLasting {operation : Operation} {e : Effect} (h : operation.Tells e) :
    e.isLasting = true := by
  cases operation with
  | process p => exact h
  | processDirected p handler =>
    obtain ⟨failure, rfl⟩ := h
    rfl
  | _ => exact absurd h id

namespace ServiceTables

/-- The session as it is kept after a call that may mark it. -/
def marked (e : Effect) (binding : Address) (session : SessionRecord) : SessionRecord :=
  match e with
  | .setInitialized other _ value =>
    if other = binding then { session with initialized := value } else session
  | _ => session

/-- Marks that are not taken back can be made in any order. -/
theorem marked_comm {e e' : Effect} (h : e.isLasting = true) (h' : e'.isLasting = true)
    (binding : Address) (session : SessionRecord) :
    marked e' binding (marked e binding session) =
      marked e binding (marked e' binding session) := by
  cases e with
  | setInitialized other own value =>
    cases e' with
    | setInitialized other' own' value' =>
      have hvalue : value = true := h
      have hvalue' : value' = true := h'
      subst hvalue hvalue'
      simp only [marked]
      split <;> split <;> rfl
    | _ => rfl
  | _ => rfl

private theorem sessions_absorb (t : ServiceTables) (e : Effect) (binding : Address) :
    (t.absorb e).sessions[binding]? = t.sessions[binding]?.map (marked e binding) := by
  cases e with
  | setInitialized other own value =>
    by_cases heq : other = binding
    · subst heq
      cases hfound : t.sessions[other]? <;> simp [absorb, marked, hfound]
    · have hsame : marked (.setInitialized other own value) binding = id :=
        funext fun _ => if_neg heq
      cases hfound : t.sessions[other]?
        <;> simp [absorb, hsame, hfound, heq, Std.ExtTreeMap.getElem?_insert]
  | _ => exact Option.map_id'.symm

private theorem stored_absorb (t : ServiceTables) (e : Effect) (user : String) :
    (t.absorb e).stored[user]? = if e = .takeMessages user then none else t.stored[user]? := by
  cases e with
  | setInitialized binding session value =>
    simp only [absorb, reduceCtorEq, if_false]
    split <;> rfl
  | takeMessages other => simp [absorb, Std.ExtTreeMap.getElem?_erase]
  | _ => rfl

/-- What the tables remember of two calls does not depend on their order, unless a mark is taken
back. -/
theorem absorb_comm (t : ServiceTables) {e e' : Effect} (h : e.isLasting = true)
    (h' : e'.isLasting = true) : (t.absorb e).absorb e' = (t.absorb e').absorb e := by
  have hsessions : ((t.absorb e).absorb e').sessions = ((t.absorb e').absorb e).sessions := by
    apply Std.ExtTreeMap.ext_getElem?
    intro binding
    simp only [sessions_absorb, Option.map_map]
    exact congrArg (Option.map · _) (funext (marked_comm h h' binding))
  have hstored : ((t.absorb e).absorb e').stored = ((t.absorb e').absorb e).stored := by
    apply Std.ExtTreeMap.ext_getElem?
    intro user
    simp only [stored_absorb]
    split <;> split <;> rfl
  have hrest : ∀ (t : ServiceTables) (e : Effect),
      t.absorb e = { t with sessions := (t.absorb e).sessions, stored := (t.absorb e).stored } := by
    intro t e
    cases e with
    | setInitialized binding own value =>
      cases hfound : t.sessions[binding]? <;> simp only [absorb, hfound]
    | _ => rfl
  rw [hrest (t.absorb e) e', hrest (t.absorb e') e, hsessions, hstored, hrest t e, hrest t e']

private theorem foldl_absorb_comm (t : ServiceTables) {effects more : List Effect}
    (h : ∀ e ∈ effects ++ more, e.isLasting = true) :
    (effects ++ more).foldl absorb t = (more ++ effects).foldl absorb t :=
  List.perm_append_comm.foldl_eq' (fun e he e' he' t => t.absorb_comm (h e he) (h e' he')) t

end ServiceTables

/-! ## Calls -/

/-- The sender that a dispatcher call is about. -/
def Operation.caller? : Operation → Option Address
  | .process p | .processDirected p _ | .directedSent p _ _ => p.sender
  | .hasDirected owner _ | .removeDirected owner _ => some owner
  | _ => none

section Callers

variable {operation : Operation} {caller : Address}

private theorem Operation.isDealing_of_caller? (h : operation.caller? = some caller) :
    operation.isDealing = true := by
  cases operation <;> first | rfl | cases h

/-- A call accesses senders of the account that it is about only. -/
theorem Operation.Accesses.sameBare {key : Address} (h : operation.Accesses key)
    (hcaller : operation.caller? = some caller) : key.sameBare caller = true := by
  have hself : caller.sameBare caller = true := Address.sameBare_iff.mpr rfl
  cases operation with
  | process p =>
    obtain ⟨account, haccount, hsame⟩ := h
    cases hcaller.symm.trans haccount
    exact hsame
  | processDirected p handler | directedSent p handler receiver =>
    cases hcaller.symm.trans h
    exact hself
  | hasDirected owner recipient | removeDirected owner recipient =>
    cases hcaller
    exact h ▸ hself
  | _ => cases hcaller

end Callers

namespace Cluster

/-- The two steps commute: each gets the same answer and makes the same calls on services, whether
it comes first or second, and in the end the nodes, what the hub holds, the indexes, and what the
services remember are the same. -/
structure Commute (c : Cluster) (first second : Step) : Prop where
  answer_first : ((c.after second).outcome first).answer = (c.outcome first).answer
  answer_second : ((c.after first).outcome second).answer = (c.outcome second).answer
  effects_first : ((c.after second).outcome first).trace.effects = (c.outcome first).trace.effects
  effects_second : ((c.after first).outcome second).trace.effects = (c.outcome second).trace.effects
  nodes : ((c.after second).after first).nodes = ((c.after first).after second).nodes
  held : ((c.after second).after first).fabric.hub.data =
    ((c.after first).after second).fabric.hub.data
  indexes : ∀ node, ((c.after second).after first).fabric.index node =
    ((c.after first).after second).fabric.index node
  remembered : ∀ tables : ServiceTables,
    ((c.outcome second).trace.effects ++ ((c.after second).outcome first).trace.effects).foldl
        ServiceTables.absorb tables =
      ((c.outcome first).trace.effects ++ ((c.after first).outcome second).trace.effects).foldl
        ServiceTables.absorb tables

variable {c : Cluster} {first second : Step}

/-- Steps that deal with different senders commute. -/
theorem Calm.commute (h : c.Calm) (hfirst : first.operation.isDealing = true)
    (hsecond : second.operation.isDealing = true)
    (hdisjoint : ∀ key, first.operation.Accesses key → ¬ second.operation.Accesses key) :
    c.Commute first second := by
  have hone := h.after_elsewhere hfirst
  have htwo := h.after_elsewhere hsecond
  have honeTwo := (h.after first).after_elsewhere hsecond
  have htwoOne := (h.after second).after_elsewhere hfirst
  obtain ⟨hanswer, heffects, hleft⟩ := h.outcome_alike (h.after second) hfirst
    (htwo.mono hdisjoint)
  obtain ⟨hanswer', heffects', hright⟩ := h.outcome_alike (h.after first) hsecond
    (hone.mono fun key hkey hkey' => hdisjoint key hkey' hkey)
  -- what each step knows is left alone by the other one, and the rest is left alone by both
  have hboth : ((c.after first).after second).Alike (fun _ => True)
      ((c.after second).after first) := by
    have hfirsts := (honeTwo.symm.mono hdisjoint).trans hleft
    have hseconds := hright.symm.trans (htwoOne.mono fun key hkey hkey' => hdisjoint key hkey' hkey)
    have hothers : ((c.after first).after second).Alike
        (fun key => ¬ first.operation.Accesses key ∧ ¬ second.operation.Accesses key)
        ((c.after second).after first) :=
      (honeTwo.symm.mono fun _ h => h.2).trans ((hone.symm.mono fun _ h => h.1).trans
        ((htwo.mono fun _ h => h.2).trans (htwoOne.mono fun _ h => h.1)))
    refine (hfirsts.cover hseconds fun _ => id).cover hothers fun key _ => ?_
    tauto
  obtain ⟨hnodes, hheld, hindexes⟩ := hboth.eq ((h.after first).after second)
    ((h.after second).after first)
  refine ⟨hanswer, hanswer', heffects, heffects', hnodes, hheld, hindexes, fun tables => ?_⟩
  rw [heffects, heffects']
  refine tables.foldl_absorb_comm fun e he => ?_
  rcases List.mem_append.mp he with he | he
  · exact (c.tells_of_outcome hsecond e he).isLasting
  · exact (c.tells_of_outcome hfirst e he).isLasting

/-- Calls for different accounts commute. After any run whatsoever, with writes to any cache, losses
in the hub and caches that fail, take two dispatcher calls for senders with different bare
addresses, at the same node or at different ones, and let the services answer each call the same
whether it comes first or second. Then each call has the same result and makes the same calls on
services in the same order, and either way the cluster ends with the same nodes, the same entries in
the hub and the same indexes, and the services with the same marks of sessions and the same stored
messages. -/
theorem calls_commute (hubName : String) (members : List (Server × Settings)) (steps : List Step)
    {a b : Address} (ha : first.operation.caller? = some a)
    (hb : second.operation.caller? = some b) (hdifferent : a.sameBare b = false) :
    ((start hubName members).run steps).Commute first second := by
  refine ((calm_start hubName members).run steps).commute (Operation.isDealing_of_caller? ha)
    (Operation.isDealing_of_caller? hb) fun key hkey hkey' => ?_
  have hfirst := Address.sameBare_iff.mp (hkey.sameBare ha)
  have hsecond := Address.sameBare_iff.mp (hkey'.sameBare hb)
  have hsame : a.sameBare b = true := Address.sameBare_iff.mpr (hfirst.symm.trans hsecond)
  rw [hdifferent] at hsame
  cases hsame

end Cluster

namespace Sample

/-- The sender of the sample run goes, and another one delivers a presence at the other node. -/
def parting : Step := act "one" (.process goodbye)

def nurse : Address := .ofParts (some "nurse") "example.org" (some "door")

def visit : Step := act "two" (.directedSent (.available nurse) handler receiver)

/-- The sender of the sample run is retracted, and what the other one delivers gets into the index
of the first node, whichever happens first. -/
theorem parting_and_visit_commute :
    let c := (Cluster.start "hub" members).run steps
    (c.outcome parting).trace.effects.length = 2 ∧
      ((c.after visit).fabric.index ⟨"one"⟩).receivers? ⟨"two"⟩ nurse = some {receiver} ∧
      c.Commute parting visit := by
  intro c
  have hrun : (c.outcome parting).trace.effects.length = 2 ∧
      ((c.after visit).fabric.index ⟨"one"⟩).receivers? ⟨"two"⟩ nurse = some {receiver} := by
    decide +kernel
  have hcallers : parting.operation.caller? = some sender ∧ visit.operation.caller? = some nurse :=
    ⟨rfl, rfl⟩
  exact ⟨hrun.1, hrun.2,
    Cluster.calls_commute "hub" members steps hcallers.1 hcallers.2 (by decide)⟩

end Sample

end DirectedPresence
