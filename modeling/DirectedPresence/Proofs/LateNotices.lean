import DirectedPresence.Proofs.IndexAgreement
import DirectedPresence.Proofs.WaitingNotices

/-!
The index once nothing waits any more. When a member has heard of all departures, its index says
nothing that the hub does not hold: what a departed node left behind is gone, even if the node has
joined again meanwhile. That the index also says everything holds if every notice of a departure was
heard before the departed node joined again. A notice does not tell which departure it is about, so
a late one takes away what the node has written since (`Sample.late_notice_erases`).
-/

namespace DirectedPresence

/-- The reverse index of a node says nothing but what the hub holds. -/
structure Fabric.IndexWithin (isLocal : Address → Bool) (fabric : Fabric) (node : NodeId) :
    Prop where
  /-- What it shows of another node are all receivers of entries whose handler is served here. -/
  shown : ∀ peer, peer ≠ node → ∀ sender receivers,
    (fabric.index node).receivers? peer sender = some receivers →
      receivers ≠ ∅ ∧ ∃ (holding : Holding) (registry : Registry),
        fabric.hub.data[sender]? = some holding ∧ holding.owner = peer ∧
        holding.registry = .ok registry ∧ ∀ receiver, receiver ∈ receivers ↔
          ∃ entry ∈ registry.entries, isLocal entry.handler = true ∧ receiver ∈ entry.receivers
  own : ∀ sender, (fabric.index node).receivers? node sender = none

/-- An index that agrees shows every receiver that is reached here. -/
theorem Fabric.IndexAgrees.receivers?_of_estate {isLocal : Address → Bool} {fabric : Fabric}
    {node peer : NodeId} {sender receiver : Address} {registry : Registry}
    (h : fabric.IndexAgrees isLocal node) (hne : peer ≠ node)
    (hestate : fabric.hub.estate peer sender = some registry)
    (hmem : receiver ∈ registry.receiversWhere isLocal) :
    (fabric.index node).receivers? peer sender = some (registry.receiversWhere isLocal) := by
  obtain ⟨holding, hfound, howner, hread⟩ := Hub.estate_eq_some.mp hestate
  refine (h.shown peer hne sender _).mpr ⟨fun hempty => ?_, holding, registry, hfound, howner,
    hread, fun _ => Registry.mem_receiversWhere⟩
  rw [hempty] at hmem
  exact absurd hmem Std.ExtTreeSet.not_mem_empty

namespace Fabric.Outlook

variable {serves : NodeId → Address → Bool} {lenient : Prop} {crashed : NodeId → Prop}
  {untold : NodeId → NodeId → Prop} {fabric : Fabric} {node : NodeId}

private theorem own (h : fabric.Outlook serves lenient crashed untold) (halive : ¬ crashed node)
    (sender : Address) : (fabric.index node).receivers? node sender = none := by
  have hshows := h.shows node node halive (fun _ hne => absurd rfl hne) sender
  rw [due_self] at hshows
  exact hshows.eq_none

/-- Whatever came late, a member that has heard of all departures shows nothing stale. -/
theorem indexWithin (h : fabric.Outlook serves lenient crashed untold)
    (hmember : node ∈ fabric.hub.members) (hheard : ∀ peer, ¬ untold node peer) :
    fabric.IndexWithin (serves node) node where
  shown := by
    intro peer hne sender receivers hreceivers
    have halive : ¬ crashed node := fun hcrashed => h.gone node hcrashed hmember
    have hshows := h.shows node peer halive (fun _ _ => hheard peer) sender
    rw [due_of_member hmember hne, shown, hreceivers] at hshows
    rcases hshows with hdue | ⟨-, hnone⟩
    · obtain ⟨registry, hestate, hlocal⟩ := Option.bind_eq_some_iff.mp hdue.symm
      obtain ⟨hsome, hunion⟩ := Registry.localReceivers?_eq_some.mp hlocal
      obtain ⟨holding, hfound, howner, hread⟩ := Hub.estate_eq_some.mp hestate
      exact ⟨hsome, holding, registry, hfound, howner, hread,
        Registry.eq_receiversWhere_iff.mp hunion⟩
    · cases hnone
  own := h.own fun hcrashed => h.gone node hcrashed hmember

/-- Where nothing came late, a member that has heard of all departures shows what the hub holds. -/
theorem indexAgrees (h : fabric.Outlook serves False crashed untold)
    (hmember : node ∈ fabric.hub.members) (hheard : ∀ peer, ¬ untold node peer) :
    fabric.IndexAgrees (serves node) node := by
  have halive : ¬ crashed node := fun hcrashed => h.gone node hcrashed hmember
  refine fabric.indexAgrees_of_estates (h.compact node) ?_ (h.own halive)
  intro peer hne sender
  have hshows := h.shows node peer halive (fun _ _ => hheard peer) sender
  rw [due_of_member hmember hne] at hshows
  exact hshows.eq_of_not_lenient not_false

end Fabric.Outlook

namespace Post

variable {host : Address → NodeId} {serves : NodeId → Address → Bool} {lenient : Prop}
  {post : Post} {happenings : List Happening} {node peer : NodeId} {seat : Seat}

private theorem prompt_act (post : Post) (step : Step) : post.Prompt (.act step) :=
  fun _ _ _ _ hact => nomatch hact

/-- The node, if any, whose departure would be heard next. -/
def leaver? (post : Post) (node : NodeId) : Option NodeId :=
  match post.waiting node with
  | .left peer :: _ => some peer
  | _ => none

private theorem leaver?_eq_some {post : Post} :
    post.leaver? node = some peer ↔ ∃ rest, post.waiting node = .left peer :: rest := by
  unfold leaver?
  split
  · next left rest hwaiting => simp [hwaiting]
  · next hwaiting =>
    constructor
    · rintro ⟨⟩
    · rintro ⟨rest, heq⟩
      exact absurd heq (hwaiting peer rest)

private theorem prompt_deliver {env : Environment} :
    post.Prompt (.deliver env node) ↔ ∀ peer ∈ post.leaver? node, ¬ post.Joined peer := by
  simp only [Option.mem_def, leaver?_eq_some]
  constructor
  · rintro h peer ⟨rest, hwaiting⟩
    exact h env node peer rest rfl hwaiting
  · rintro h _ _ peer rest ⟨⟩ hwaiting
    exact h peer ⟨rest, hwaiting⟩

instance (post : Post) : (happening : Happening) → Decidable (post.Prompt happening)
  | .act step => .isTrue (prompt_act post step)
  | .deliver _ _ => decidable_of_iff' _ prompt_deliver

instance decidableAlong {condition : Post → Happening → Prop}
    [∀ post happening, Decidable (condition post happening)] :
    (post : Post) → (happenings : List Happening) → Decidable (Along condition post happenings)
  | _, [] => .isTrue trivial
  | post, happening :: happenings =>
    have : Decidable (Along condition (post.after happening) happenings) :=
      decidableAlong (post.after happening) happenings
    inferInstanceAs (Decidable (condition post happening ∧ _))

private theorem Sound.joined (h : post.Sound host serves lenient)
    (hseat : post.cluster.seat? node = some seat) (hphase : seat.node.phase = .clustered)
    (halive : ¬ post.crashed node) : post.Joined node := by
  obtain ⟨hsound, hsettled⟩ := h.cluster.live node seat hseat halive
  obtain ⟨-, -, hmember⟩ := hsound.phase_eq_clustered hsettled hphase
  rwa [h.cluster.named node seat hseat, Cluster.fabric_of_seat? hseat] at hmember

/-- In every run, once a clustered node has heard of all departures, its index says nothing but what
the hub holds; and it says all of it, if no notice of a departure came after the departed node had
joined again. -/
theorem index_after_notices (host : Address → NodeId) (serves : NodeId → Address → Bool)
    (hubName : String) {members : List (Server × Settings)}
    (hawake : ∀ p ∈ members, p.1.shuttingDown = false)
    (hroutes : ∀ happening ∈ happenings, ∀ node,
      (happening.env node).routes.isLocal = serves node)
    (hallowed : Along (Allows host) (start hubName members) happenings)
    (hseat : ((start hubName members).run happenings).cluster.seat? node = some seat)
    (hphase : seat.node.phase = .clustered)
    (halive : ¬ ((start hubName members).run happenings).crashed node)
    (hheard : ∀ peer, .left peer ∉ ((start hubName members).run happenings).waiting node) :
    seat.fabric.IndexWithin (serves node) node ∧
      (Along Prompt (start hubName members) happenings →
        seat.fabric.IndexAgrees (serves node) node) := by
  have hlate : ((start hubName members).run happenings).Sound host serves True :=
    (sound_start host serves True hubName hawake).run hroutes hallowed
      fun hstrict => absurd trivial hstrict
  have hmember := hlate.joined hseat hphase halive
  rw [Cluster.fabric_of_seat? hseat]
  refine ⟨hlate.outlook.indexWithin hmember hheard, fun hprompt => ?_⟩
  have hsound : ((start hubName members).run happenings).Sound host serves False :=
    (sound_start host serves False hubName hawake).run hroutes hallowed fun _ => hprompt
  exact hsound.outlook.indexAgrees hmember hheard

end Post

namespace Sample

/-- A node hears the first tiding that waits for it, while the services are agreeable. -/
def hear (node : String) : Happening :=
  .deliver (fun _ => .agreeable) ⟨node⟩

/-- Both nodes join the cluster, and the first one delivers a directed presence and leaves. -/
def absence : List Happening :=
  [.act (act "two" (.membership .localJoined)),
    .act (act "one" (.membership .localJoined)),
    hear "two",
    .act (act "one" (.directedSent (.available sender) handler receiver)),
    .act (act "one" (.membership .localLeft))]

/-- The second node hears of the absence of the first one before that is over. -/
def promptly : List Happening :=
  absence ++ [hear "two", .act (act "one" (.membership .localJoined)), hear "two"]

/-- The second node hears of the absence of the first one when that is over. -/
def late : List Happening :=
  absence ++ [.act (act "one" (.membership .localJoined)), hear "two", hear "two"]

/-- Nothing out of the ordinary happens, and the routers serve every domain. -/
theorem late_ordinary : ∀ happening ∈ promptly ++ late, happening.Ordinary host ∧
    ∀ node, (happening.env node).routes.isLocal = fun _ => true := by
  have htold : ∀ (node : String) (event : MembershipEvent),
      (∀ tiding : Tiding, event ≠ tiding.event) →
        Happening.Ordinary host (.act (act node (.membership event))) ∧ ∀ other,
          ((Happening.act (act node (.membership event))).env other).routes.isLocal =
            fun _ => true := by
    intro node event hown
    exact ⟨⟨.membership rfl rfl, fun tiding heq => hown tiding (by cases heq; rfl)⟩, fun _ => rfl⟩
  have hjoins := fun node => htold node .localJoined fun tiding => by cases tiding <;> nofun
  have hleaves := fun node => htold node .localLeft fun tiding => by cases tiding <;> nofun
  have hsent : Happening.Ordinary host
        (.act (act "one" (.directedSent (.available sender) handler receiver))) ∧ ∀ other,
          ((Happening.act (act "one" (.directedSent (.available sender) handler receiver))).env
            other).routes.isLocal = fun _ => true :=
    ⟨⟨⟨Or.inl rfl, fun _ _ => rfl, rfl⟩, nofun⟩, fun _ => rfl⟩
  have hheard : Happening.Ordinary host (hear "two") ∧ ∀ other,
      ((hear "two").env other).routes.isLocal = fun _ => true := ⟨rfl, fun _ => rfl⟩
  simp only [promptly, late, absence, List.cons_append, List.nil_append, List.forall_mem_cons,
    hjoins, hleaves, hsent, hheard, implies_true, and_true, List.not_mem_nil, false_implies]

private theorem start_valued (node : NodeId) : (Post.start "hub" members).Valued node := by
  intro seat hseat
  obtain ⟨hnode, -, -⟩ := Cluster.seat?_ofNodes hseat
  obtain ⟨p, hp, hstart⟩ := List.mem_map.mp hnode
  rw [← hstart]
  exact (members_ready p hp).2

private theorem allowed (happenings : List Happening)
    (hpart : ∀ h ∈ happenings, h ∈ promptly ++ late) :
    Post.Along (Post.Allows host) (Post.start "hub" members) happenings ∧
      ∀ node, ¬ ((Post.start "hub" members).run happenings).crashed node :=
  (Post.sound_start host (fun _ _ => true) True "hub" members_awake).allowed_of_ordinary
    (fun happening hmem => (late_ordinary happening (hpart happening hmem)).2)
    (fun _ => not_false) start_valued
    fun happening hmem => (late_ordinary happening (hpart happening hmem)).1

/-- A node that hears of the absence in time shows what is delivered afterwards. -/
theorem index_after_prompt_notice : ∃ seat,
    ((Post.start "hub" members).run promptly).cluster.seat? ⟨"two"⟩ = some seat ∧
      (seat.fabric.index ⟨"two"⟩).isEmpty = false ∧
      seat.fabric.IndexWithin (fun _ => true) ⟨"two"⟩ ∧
      seat.fabric.IndexAgrees (fun _ => true) ⟨"two"⟩ := by
  have hrun : (((Post.start "hub" members).run promptly).cluster.seat? ⟨"two"⟩).any (fun seat =>
      seat.node.phase = .clustered ∧ (seat.fabric.index ⟨"two"⟩).isEmpty = false) = true := by
    decide +kernel
  have hqueue : ((Post.start "hub" members).run promptly).waiting ⟨"two"⟩ = [] := by
    decide +kernel
  have hprompt : Post.Along Post.Prompt (Post.start "hub" members) promptly := by
    decide +kernel
  obtain ⟨seat, hseat, hfacts⟩ := (Option.any_eq_true _ _).mp hrun
  obtain ⟨hphase, hsome⟩ := of_decide_eq_true hfacts
  have hpart : ∀ h ∈ promptly, h ∈ promptly ++ late := fun _ hmem => List.mem_append_left _ hmem
  obtain ⟨hallowed, halive⟩ := allowed promptly hpart
  obtain ⟨hwithin, hagrees⟩ := Post.index_after_notices host (fun _ _ => true) "hub" members_awake
    (fun happening hmem => (late_ordinary happening (hpart happening hmem)).2) hallowed hseat
    hphase (halive _) (fun peer hleft => by rw [hqueue] at hleft; cases hleft)
  exact ⟨seat, hseat, hsome, hwithin, hagrees hprompt⟩

/-- A notice that comes late erases the index of a node that has joined again: the second node is
clustered and has heard everything, but it shows nothing of what the first one has in the hub. -/
theorem late_notice_erases :
    Post.Along (Post.Allows host) (Post.start "hub" members) late ∧
      ((Post.start "hub" members).run late).waiting ⟨"two"⟩ = [] ∧
      ((Post.start "hub" members).run late).Joined ⟨"one"⟩ ∧ ∃ seat,
        ((Post.start "hub" members).run late).cluster.seat? ⟨"two"⟩ = some seat ∧
        seat.node.phase = .clustered ∧ ¬ seat.fabric.IndexAgrees (fun _ => true) ⟨"two"⟩ := by
  have hone : (((Post.start "hub" members).run late).cluster.seat? ⟨"one"⟩).any (fun seat =>
      seat.node.phase = .clustered ∧ (seat.node.store.get? sender).any fun registry =>
        receiver ∈ registry.receiversWhere fun _ => true) = true := by
    decide +kernel
  have htwo : (((Post.start "hub" members).run late).cluster.seat? ⟨"two"⟩).any (fun seat =>
      seat.node.phase = .clustered ∧
        (seat.fabric.index ⟨"two"⟩).receivers? ⟨"one"⟩ sender = none) = true := by
    decide +kernel
  have hqueue : ((Post.start "hub" members).run late).waiting ⟨"two"⟩ = [] := by
    decide +kernel
  obtain ⟨owner, howner, hheld⟩ := (Option.any_eq_true _ _).mp hone
  obtain ⟨hclustered, hstored⟩ := of_decide_eq_true hheld
  obtain ⟨registry, hregistry, hmem⟩ := (Option.any_eq_true _ _).mp hstored
  obtain ⟨seat, hseat, hfacts⟩ := (Option.any_eq_true _ _).mp htwo
  obtain ⟨hphase, hblank⟩ := of_decide_eq_true hfacts
  have hpart : ∀ h ∈ late, h ∈ promptly ++ late := fun _ hmem => List.mem_append_right _ hmem
  obtain ⟨hallowed, halive⟩ := allowed late hpart
  have hsound : ((Post.start "hub" members).run late).Sound host (fun _ _ => true) True :=
    (Post.sound_start host (fun _ _ => true) True "hub" members_awake).run
      (fun happening hmem => (late_ordinary happening (hpart happening hmem)).2) hallowed
      fun hstrict => absurd trivial hstrict
  obtain ⟨ledgers, htracks⟩ := hsound.tracks
  refine ⟨hallowed, hqueue, hsound.joined howner hclustered (halive _), seat, hseat, hphase, ?_⟩
  intro hagrees
  have hestate : seat.fabric.hub.estate ⟨"one"⟩ sender = some registry := by
    rw [Cluster.fabric_of_seat? hseat,
      htracks.estate hsound.cluster howner hclustered (halive _), hregistry]
  have hshown := hagrees.receivers?_of_estate (by decide) hestate (of_decide_eq_true hmem)
  rw [hblank] at hshown
  cases hshown

end Sample

end DirectedPresence
