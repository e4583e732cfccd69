import DirectedPresence.Proofs.CommutingCalls

/-!
Relaying a presence is all or nothing. It fails only if the presence has no recipient or the router
refuses it, and then nothing at all has happened; otherwise the presence was routed first, and what
is recorded afterwards is the delivery to its own recipient (`Cluster.RelaysWhole`). The store is
written before the cache, so a cache that fails would leave half a record behind. No cache does,
unless it is made to: whatever the nodes do and whatever is done to the hub, every text that the hub
holds can be read back (`Seat.Dependable`).
-/

namespace DirectedPresence

/-- Why a presence cannot be relayed: it has no recipient, or the router refuses it. -/
def Services.Refuses (services : Services) (p : Presence) (cause : RouteError) : Prop :=
  p.recipient = none ∧ cause = .missingRecipient ∨
    p.recipient.isSome ∧ services.router (.presence p) = some cause

/-- The step does not make a cache fail, now or when its node joins. -/
structure Step.Unspoilt (step : Step) : Prop where
  keeps : ∀ faults, step.operation ≠ .failCache faults
  plain : (step.env step.node).viewFaults = Faults.none

namespace Seat

variable {env : Environment} {seat : Seat} {operation : Operation}

/-- A cache that does not fail does not start to by itself. -/
theorem faults_perform (env : Environment) (hkeeps : ∀ faults, operation ≠ .failCache faults)
    (hplain : (env seat.node.id).viewFaults = Faults.none)
    (h : seat.node.cache.faults = Faults.none) :
    (seat.perform env operation).seat.node.cache.faults = Faults.none := by
  cases operation with
  | membership event =>
    cases event with
    | localJoined =>
      obtain ⟨-, -, -, hsame⟩ := wrote_refilled env seat
      obtain ⟨indexes, hseed⟩ := seat_seedIndex env (seat.refilled env)
      simp only [perform, handle, Outcome.seat_map, seat_join, hseed]
      exact hsame.faults.trans hplain
    | localLeft =>
      have hsame : SameNode seat.detached (seat.recovered env) :=
        Touches.sameNode (touches_restore _)
      cases hshutting : seat.node.server.shuttingDown with
      | true =>
        simp only [perform, handle, leave, hshutting, if_true]
        exact h
      | false =>
        simp only [perform, handle, Outcome.seat_map, seat_leave env hshutting]
        exact hsame.faults
    | remoteJoined | remoteLeft => exact h
  | failCache faults => exact absurd rfl (hkeeps faults)
  | shutdown | hubLeave | hubEvict | hubEvictNode | hubClear => exact h
  | _ => exact (Touches.sameNode (touches_perform rfl : Touches env _ _)).faults.trans h

structure Dependable (seat : Seat) : Prop where
  faultless : seat.node.cache.faults = Faults.none
  holds : ∃ contents, seat.fabric.hub.Holds contents

private theorem Dependable.get (h : seat.Dependable) (key : Address) :
    ∃ found, seat.get key = .ok found := by
  obtain ⟨contents, hholds⟩ := h.holds
  unfold Seat.get
  rw [h.faultless]
  cases seat.node.cache.backing with
  | standalone cache => exact ⟨_, rfl⟩
  | clustered view => exact ⟨_, hholds.get key⟩

private theorem Dependable.put (h : seat.Dependable) (env : Environment) (key : Address)
    (value : Registry) : ∃ old, (seat.put env key value).answer = .ok old := by
  obtain ⟨contents, hholds⟩ := h.holds
  unfold Seat.put
  rw [h.faultless]
  cases seat.node.cache.backing with
  | standalone cache => exact ⟨_, rfl⟩
  | clustered view => exact ⟨_, (Hub.answer_put _ _ _ _ _ _).trans (hholds.get key)⟩

private theorem Dependable.remove (h : seat.Dependable) (env : Environment) (key : Address) :
    ∃ old, (seat.remove env key).answer = .ok old := by
  obtain ⟨contents, hholds⟩ := h.holds
  unfold Seat.remove
  rw [h.faultless]
  cases seat.node.cache.backing with
  | standalone cache => exact ⟨_, rfl⟩
  | clustered view => exact ⟨_, (Hub.answer_takeOut _ _ _ _ _ _).trans (hholds.get key)⟩

private theorem Dependable.answer_publish (h : seat.Dependable) (sender : Address)
    (registry : Registry) : (seat.publish env sender registry).answer = .ok () := by
  have hstored : (seat.setStore (seat.node.store.insert sender registry)).Dependable :=
    ⟨h.faultless, h.holds⟩
  obtain ⟨old, hold⟩ := hstored.put env sender registry
  rw [publish, Outcome.answer_map, hold]

private theorem Dependable.answer_withdraw (h : seat.Dependable) (sender : Address) :
    (seat.withdraw env sender).answer = .ok () := by
  obtain ⟨old, hold⟩ := h.remove env sender
  rw [withdraw, Outcome.answer_andThen, hold]

private theorem Dependable.answer_recordPair (h : seat.Dependable) (kind : PresenceKind)
    (sender handler receiver : Address) :
    (seat.recordPair env kind sender handler receiver).answer = .ok () := by
  obtain ⟨found, hfound⟩ := h.get sender
  unfold recordPair
  rw [hfound]
  simp only
  split
  · cases found with
    | none => rfl
    | some registry =>
      simp only
      split
      · exact h.answer_withdraw sender
      · exact h.answer_publish sender _
  · exact h.answer_publish sender _

/-- Taking note of a delivery does not fail. -/
theorem Dependable.answer_directedSent (h : seat.Dependable) (update : Presence)
    (handler receiver : Address) :
    (seat.directedSent env update handler receiver).answer = .ok () := by
  unfold directedSent
  split
  · rfl
  · split
    · rfl
    · simp only
      split
      · exact h.answer_recordPair update.kind _ handler receiver
      · rfl

end Seat

namespace Cluster

variable {c : Cluster} {node : NodeId} {seat : Seat} {step : Step} {steps : List Step}

def Faultless (c : Cluster) : Prop :=
  ∀ id seat, c.seat? id = some seat → seat.node.cache.faults = Faults.none

private theorem faultless_start (hubName : String) (members : List (Server × Settings)) :
    (start hubName members).Faultless := by
  intro id seat hseat
  obtain ⟨hnode, -, -⟩ := seat?_ofNodes hseat
  obtain ⟨p, -, hp⟩ := List.mem_map.mp hnode
  rw [← hp]
  rfl

private theorem Faultless.after (h : c.Faultless) (hwired : c.Wired) (hunspoilt : step.Unspoilt) :
    (c.after step).Faultless := by
  cases hseat : c.seat? step.node with
  | none =>
    rw [after_of_none hseat]
    exact h
  | some seat =>
    rw [after_of_seat? hseat]
    refine forall_node_setSeat (P := fun _ node => node.cache.faults = Faults.none) h ?_
    refine Seat.faults_perform step.env hunspoilt.keeps ?_ (h step.node seat hseat)
    rw [hwired.named step.node seat hseat]
    exact hunspoilt.plain

private theorem Faultless.run (h : c.Faultless) (hwired : c.Wired)
    (hsteps : ∀ step ∈ steps, step.Unspoilt) : (c.run steps).Faultless := by
  induction steps generalizing c with
  | nil => exact h
  | cons step steps ih =>
    exact ih (h.after hwired (hsteps step (by simp))) (hwired.after step) fun other hmem =>
      hsteps other (by simp [hmem])

/-- What comes of relaying a presence at a node: all that is due, or nothing. -/
structure RelaysWhole (c : Cluster) (env : Environment) (node : NodeId) (p : Presence)
    (handler : Address) : Prop where
  /-- It fails exactly if the presence cannot be routed, and for that reason. -/
  fails_iff : ∀ cause, (c.perform env node (.processDirected p handler)).answer = .failed cause ↔
    ∃ refusal, (env node).Refuses p refusal ∧ cause = .route refusal
  /-- If it fails then nothing has changed anywhere, and nobody has heard of anything. -/
  nothing : ∀ cause, (c.perform env node (.processDirected p handler)).answer = .failed cause →
    (c.perform env node (.processDirected p handler)).cluster = c ∧
      (c.perform env node (.processDirected p handler)).hearings = []
  /-- Otherwise the presence was routed, once and first, and what was done then is to take note of
  the delivery to its recipient, which does not fail and routes nothing. -/
  whole : ∀ receiver, p.recipient = some receiver → (env node).router (.presence p) = none →
    let noted := c.perform env node (.directedSent p handler receiver)
    c.perform env node (.processDirected p handler) =
        { noted with trace := .effect (.route (.presence p) none) ++ noted.trace } ∧
      noted.answer = .done ∧ noted.trace.effects = []

section Relaying

variable (hseat : c.seat? node = some seat) (hid : seat.node.id = node) (env : Environment)
  {p : Presence} (handler : Address)
include hseat

/-- A presence without a recipient is not routed at all. -/
theorem perform_of_unaddressed (hrecipient : p.recipient = none) :
    c.perform env node (.processDirected p handler) =
      { answer := .failed (.route .missingRecipient), cluster := c } := by
  simp only [perform, hseat, Seat.perform, Seat.processDirected, hrecipient, Outcome.map,
    Answer.ofPresence, setSeat_eq_self hseat]

include hid

/-- A presence that the router refuses is routed, and that is all. -/
theorem perform_of_refused (hrecipient : p.recipient.isSome) {cause : RouteError}
    (hrefused : (env node).router (.presence p) = some cause) :
    c.perform env node (.processDirected p handler) =
      { answer := .failed (.route cause), cluster := c,
        trace := .effect (.route (.presence p) (some cause)) } := by
  obtain ⟨receiver, hreceiver⟩ := Option.isSome_iff_exists.mp hrecipient
  simp only [perform, hseat, Seat.perform, Seat.processDirected, hreceiver, Seat.services, hid,
    hrefused, Outcome.map, Answer.ofPresence, setSeat_eq_self hseat]

/-- A presence that the router accepts is routed, and then noted. -/
theorem perform_of_routed {receiver : Address} (hrecipient : p.recipient = some receiver)
    (hrouted : (env node).router (.presence p) = none) :
    let noted := c.perform env node (.directedSent p handler receiver)
    c.perform env node (.processDirected p handler) =
      { noted with trace := .effect (.route (.presence p) none) ++ noted.trace } := by
  simp only [perform, hseat, Seat.perform, Seat.processDirected, hrecipient, Seat.services, hid,
    hrouted]
  rfl

end Relaying

private theorem relaysWhole_of_dependable (hseat : c.seat? node = some seat)
    (hid : seat.node.id = node) (hdependable : seat.Dependable) (env : Environment) (p : Presence)
    (handler : Address) :
    c.RelaysWhole env node p handler := by
  have hnoted : ∀ receiver,
      (c.perform env node (.directedSent p handler receiver)).answer = .done := by
    intro receiver
    simp only [perform, hseat, Seat.perform, Outcome.answer_map,
      hdependable.answer_directedSent p handler receiver, Answer.ofPresence]
  have hsilent : ∀ receiver,
      (c.perform env node (.directedSent p handler receiver)).trace.effects = [] := by
    intro receiver
    let noting : Step := ⟨env, node, .directedSent p handler receiver⟩
    have htells : ∀ e ∈ (c.outcome noting).trace.effects, noting.operation.Tells e :=
      c.tells_of_outcome rfl
    exact List.eq_nil_iff_forall_not_mem.mpr htells
  cases hrecipient : p.recipient with
  | none =>
    have hperformed := perform_of_unaddressed hseat env handler hrecipient
    constructor
    · intro cause
      rw [hperformed]
      simp [Services.Refuses, hrecipient, eq_comm]
    · intro cause _
      rw [hperformed]
      exact ⟨rfl, rfl⟩
    · intro receiver hreceiver
      rw [hrecipient] at hreceiver
      cases hreceiver
  | some receiver =>
    have hsome : p.recipient.isSome := hrecipient ▸ rfl
    cases hrouter : (env node).router (.presence p) with
    | none =>
      have hperformed := perform_of_routed hseat hid env handler hrecipient hrouter
      have hanswer : (c.perform env node (.processDirected p handler)).answer = .done := by
        rw [hperformed]
        exact hnoted receiver
      constructor
      · intro cause
        rw [hanswer]
        simp [Services.Refuses, hrecipient, hrouter]
      · intro cause hfailed
        rw [hanswer] at hfailed
        cases hfailed
      · intro other hother _
        rw [hrecipient] at hother
        cases hother
        exact ⟨hperformed, hnoted receiver, hsilent receiver⟩
    | some refusal =>
      have hperformed := perform_of_refused hseat hid env handler hsome hrouter
      constructor
      · intro cause
        rw [hperformed]
        simp [Services.Refuses, hrecipient, hrouter, eq_comm]
      · intro cause _
        rw [hperformed]
        exact ⟨rfl, rfl⟩
      · rintro other - hrouted
        rw [hrouter] at hrouted
        cases hrouted

/-- After every run in which no cache is made to fail, with losses in the hub, crashes and direct
writes, relaying a presence is all or nothing. -/
theorem relays_whole (hubName : String) (members : List (Server × Settings))
    (hsteps : ∀ step ∈ steps, step.Unspoilt)
    (hseat : ((start hubName members).run steps).seat? node = some seat) (env : Environment)
    (p : Presence) (handler : Address) :
    ((start hubName members).run steps).RelaysWhole env node p handler := by
  have hcalm : ((start hubName members).run steps).Calm := (calm_start hubName members).run steps
  have hfaultless : ((start hubName members).run steps).Faultless :=
    (faultless_start hubName members).run (wired_start hubName members) hsteps
  have hdependable : seat.Dependable :=
    ⟨hfaultless node seat hseat, (hcalm.at_seat hseat).fabric.holds⟩
  have hid : seat.node.id = node := hcalm.wired.named node seat hseat
  exact relaysWhole_of_dependable hseat hid hdependable env p handler

end Cluster

namespace Sample

def cutOff : Services :=
  { Services.agreeable with router := fun _ => some (.noRoute receiver) }

def greeting : Presence :=
  (Presence.available sender).readdressed (.ofParts (some "tybalt") "example.org" none)

private theorem steps_unspoilt : ∀ step ∈ steps, step.Unspoilt := by
  intro step hmem
  simp only [steps, List.mem_cons, List.not_mem_nil, or_false] at hmem
  rcases hmem with rfl | rfl | rfl <;> exact ⟨fun faults h => (by cases h), rfl⟩

/-- The first node of the sample run relays a greeting whole, and cut off it does nothing. -/
theorem greeting_relayed_or_not :
    let c := (Cluster.start "hub" members).run steps
    (∃ seat, c.seat? ⟨"one"⟩ = some seat) ∧
      (c.perform (fun _ => .agreeable) ⟨"one"⟩ (.processDirected greeting handler)).answer = .done ∧
      c.RelaysWhole (fun _ => .agreeable) ⟨"one"⟩ greeting handler ∧
      (c.perform (fun _ => cutOff) ⟨"one"⟩ (.processDirected greeting handler)).answer =
        .failed (.route (.noRoute receiver)) ∧
      c.RelaysWhole (fun _ => cutOff) ⟨"one"⟩ greeting handler := by
  intro c
  have hrun : (c.seat? ⟨"one"⟩).isSome = true := by
    decide +kernel
  obtain ⟨seat, hseat⟩ := Option.isSome_iff_exists.mp hrun
  have hrelays := Cluster.relays_whole "hub" members steps_unspoilt hseat
  refine ⟨⟨seat, hseat⟩, ?_, hrelays (fun _ => .agreeable) greeting handler, ?_,
    hrelays (fun _ => cutOff) greeting handler⟩
  · decide +kernel
  · decide +kernel

end Sample

end DirectedPresence
