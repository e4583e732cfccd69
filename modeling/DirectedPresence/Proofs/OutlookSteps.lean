import DirectedPresence.Proofs.ClusterRuns
import DirectedPresence.Proofs.IndexOutlook

/-!
Every ordinary step keeps the outlook. A node that joins seeds its index from what the hub holds, so
of every peer whose departures it has heard it shows exactly what is due, whatever it showed before.
A node that leaves is out of the hub with a blank index, and the members have to be told of it.
-/

namespace DirectedPresence

namespace Seat

variable {host : Address → NodeId} {env : Environment} {serves : NodeId → Address → Bool}
  {lenient : Prop} {crashed : NodeId → Prop} {untold untold' : NodeId → NodeId → Prop}
  {seat : Seat} {node watcher peer : NodeId} {sender : Address}

/-! ## Joining -/

private theorem Sound.follows_refilled (h : seat.Sound host)
    (ho : seat.fabric.Outlook serves lenient crashed untold)
    (henv : ∀ node, (env node).routes.isLocal = serves node)
    (hplain : (env seat.node.id).viewFaults = Faults.none) :
    Fabric.Follows serves (seat.entered env).fabric (seat.refilled env).fabric := by
  refine (h.entered hplain).follows_edits henv ?_ h.steady.edits_refilled
  intro node hmember hne
  have hold : node ∈ seat.fabric.hub.members := (mem_members_entered.mp hmember).resolve_left hne
  exact (ho.listening node hold).congr (getElem?_members_entered hne)

/-- Entering the hub changes what is due to no other node, nor to one that is in it. -/
theorem due_entered (hmember : watcher ≠ seat.node.id ∨ seat.node.id ∈ seat.fabric.hub.members) :
    (seat.entered env).fabric.due serves watcher peer sender =
      seat.fabric.due serves watcher peer sender := by
  refine Fabric.due_congr ?_ rfl
  rw [mem_members_entered]
  rcases hmember with hne | hin
  · simp [hne]
  · constructor
    · rintro (rfl | hold)
      · exact hin
      · exact hold
    · exact Or.inr

section Refilled

variable (h : seat.Sound host) (ho : seat.fabric.Outlook serves lenient crashed untold)
  (henv : ∀ node, (env node).routes.isLocal = serves node)
  (hplain : (env seat.node.id).viewFaults = Faults.none)

include h ho henv hplain

private theorem Sound.shows_refilled (halive : ¬ crashed watcher) (hne : watcher ≠ seat.node.id)
    (hinformed : seat.fabric.Informed untold watcher peer) :
    Shows lenient ((seat.refilled env).fabric.shown watcher peer sender)
      ((seat.refilled env).fabric.due serves watcher peer sender) := by
  rcases (h.follows_refilled ho henv hplain).shows watcher peer sender with
    hexact | ⟨hshown, hdue⟩
  · exact Or.inl hexact
  · rw [hshown, hdue, due_entered (Or.inl hne)]
    exact ho.shows watcher peer halive hinformed sender

/-- Of a peer whose departures it has heard, the node itself shows nothing but what is due. -/
theorem Sound.shown_refilled (halive : ¬ crashed seat.node.id)
    (hinformed : peer ≠ seat.node.id → ¬ untold seat.node.id peer) :
    (seat.refilled env).fabric.shown seat.node.id peer sender =
        (seat.refilled env).fabric.due serves seat.node.id peer sender ∨
      (seat.refilled env).fabric.shown seat.node.id peer sender = none := by
  have hbefore := ho.shows seat.node.id peer halive (fun _ => hinformed) sender
  rcases (h.follows_refilled ho henv hplain).shows seat.node.id peer sender with
    hexact | ⟨hshown, hdue⟩
  · exact Or.inl hexact
  · have hkept : (seat.refilled env).fabric.shown seat.node.id peer sender =
        seat.fabric.shown seat.node.id peer sender := hshown
    rw [hkept]
    by_cases hold : seat.node.id ∈ seat.fabric.hub.members
    · rw [hdue, due_entered (Or.inr hold)]
      exact hbefore.imp_right fun hnone => hnone.2
    · rw [Fabric.due_of_absent hold] at hbefore
      exact Or.inr hbefore.eq_none

/-- Seeded with what the hub holds, the index of the node shows exactly what is due. -/
theorem Sound.shown_seed {entries : List (Address × Registry)} (halive : ¬ crashed seat.node.id)
    (hentries : ∀ key registry, (key, registry) ∈ entries ↔
      (seat.refilled env).fabric.hub.lookup key = some registry)
    (hinformed : peer ≠ seat.node.id → ¬ untold seat.node.id peer) :
    (ReverseIndex.seed (serves seat.node.id) seat.node.id entries
        ((seat.refilled env).fabric.index seat.node.id)).receivers? peer sender =
      (seat.refilled env).fabric.due serves seat.node.id peer sender := by
  have hedits : Edits env host (seat.entered env) (seat.refilled env) := h.steady.edits_refilled
  have hrefilled : (seat.refilled env).Sound host := (h.entered hplain).edits hedits
  have hin : seat.node.id ∈ (seat.refilled env).fabric.hub.members :=
    (h.mem_members_refilled hplain).mpr (Or.inl rfl)
  have hlisted : ((seat.refilled env).fabric.hub.lookup sender).bind
      (ReverseIndex.shown (serves seat.node.id) seat.node.id peer) =
      (seat.refilled env).fabric.due serves seat.node.id peer sender := by
    rw [hrefilled.shown_lookup, Fabric.due]
    simp only [hin, true_and]
  rw [receivers?_seed_lookup hentries, hlisted]
  rw [← Fabric.shown]
  rcases h.shown_refilled ho henv hplain halive hinformed with hdue | hnone
  · rw [hdue, Option.or_self]
  · rw [hnone, Option.or_none]

end Refilled

private theorem Sound.outlook_join (h : seat.Sound host)
    (ho : seat.fabric.Outlook serves lenient crashed untold)
    (henv : ∀ node, (env node).routes.isLocal = serves node)
    (hplain : (env seat.node.id).viewFaults = Faults.none)
    (hvalued : seat.node.settings.includeValues = true) (halive : ¬ crashed seat.node.id) :
    (seat.join env).seat.fabric.Outlook serves lenient crashed untold := by
  have hfollows := h.follows_refilled ho henv hplain
  have hmembers : ∀ node, node ∈ (seat.refilled env).fabric.hub.members ↔
      node = seat.node.id ∨ node ∈ seat.fabric.hub.members :=
    fun node => h.mem_members_refilled hplain
  obtain ⟨entries, name, hentries, hfabric⟩ :=
    h.fabric_join hplain hvalued ((hmembers _).mpr (Or.inl rfl))
  rw [hfabric, henv]
  refine ⟨?_, ?_, ?_, ?_⟩
  · intro node hmember
    have hmem := (hmembers node).mp (Hub.mem_members_addListener.mp hmember)
    by_cases hnode : node = seat.node.id
    · rw [hnode]
      apply listens_addListener
      rw [hfollows.members]
      exact getElem?_members_entered_self
    · apply (ho.listening node (hmem.resolve_left hnode)).congr
      exact (getElem?_members_addListener hnode).trans
        ((congrArg (·[node]?) hfollows.members).trans (getElem?_members_entered hnode))
  · intro node hcrashed hmem
    rw [Hub.mem_members_addListener, hmembers] at hmem
    rcases hmem with rfl | hold
    · exact halive hcrashed
    · exact ho.gone node hcrashed hold
  · intro node
    show ((Fabric.setIndex _ _ _).index node).Compact
    rw [Fabric.index_setIndex]
    split
    · exact (hfollows.compact _ (ho.compact _)).seed
    · exact hfollows.compact node (ho.compact node)
  · intro watcher peer hwatcher hinformed sender
    have hinformed' : watcher = seat.node.id ∨ watcher ∈ seat.fabric.hub.members →
        peer ≠ watcher → ¬ untold watcher peer :=
      fun hmem => hinformed (Hub.mem_members_addListener.mpr ((hmembers watcher).mpr hmem))
    have hdue : ∀ indexes, Fabric.due serves
        ⟨(seat.refilled env).fabric.hub.addListener (seat.fabric.hub.join seat.node.id).2
          ⟨name, seat.node.id⟩ true, indexes⟩ watcher peer sender =
        (seat.refilled env).fabric.due serves watcher peer sender := by
      intro indexes
      exact Fabric.due_congr Hub.mem_members_addListener
        (Hub.estate_congr (congrArg (·[sender]?) (Hub.data_addListener _ _ _ _)) peer)
    rw [hdue]
    show Shows lenient (((Fabric.setIndex _ _ _).index watcher).receivers? peer sender) _
    rw [Fabric.index_setIndex]
    by_cases heq : seat.node.id = watcher
    · subst heq
      rw [if_pos rfl]
      exact Or.inl (h.shown_seed ho henv hplain halive hentries (hinformed' (Or.inl rfl)))
    · rw [if_neg heq]
      exact h.shows_refilled ho henv hplain hwatcher (fun h => heq h.symm)
        fun hmem => hinformed' (Or.inr hmem)

/-! ## Leaving -/

private theorem Sound.outlook_leave (h : seat.Sound host)
    (ho : seat.fabric.Outlook serves lenient crashed untold)
    (henv : ∀ node, (env node).routes.isLocal = serves node)
    (hkept : ∀ watcher peer, watcher ≠ seat.node.id → untold watcher peer → untold' watcher peer)
    (hleft : seat.node.id ∈ seat.fabric.hub.members → ∀ watcher ∈ seat.fabric.hub.members,
      watcher ≠ seat.node.id → untold' watcher seat.node.id) :
    (seat.leave env).seat.fabric.Outlook serves lenient crashed untold' := by
  have hedits : Edits env host seat.detached (seat.recovered env) := h.steady.edits_recovered
  have hid : (seat.recovered env).node.id = seat.node.id := (Edits.sameNode hedits).id
  have habsent : seat.node.id ∉ seat.detached.fabric.hub.members :=
    fun hmem => (mem_members_detached.mp hmem).1 rfl
  have hdetached : seat.detached.fabric.Outlook serves lenient
      (fun other => crashed other ∨ other = seat.node.id) untold' :=
    ho.depart h.held rfl (fun _ => rfl) (fun _ => Iff.rfl) hkept hleft
  have hfollows : Fabric.Follows serves seat.detached.fabric (seat.recovered env).fabric :=
    h.detached.follows_edits henv (hdetached.heardBy _) hedits
  have hrecovered := hdetached.follows hfollows
  rw [seat_leave env h.awake]
  show (Fabric.setIndex _ (seat.recovered env).node.id _).Outlook _ _ _ _
  rw [hid]
  apply hrecovered.clear (by rwa [hfollows.members])
  · exact ReverseIndex.Compact.nodesDown (hrecovered.compact _)
  · exact fun peer sender => ReverseIndex.receivers?_nodesDown_nodeIds peer sender

/-! ## Every ordinary step -/

/-- A node need no longer be told of a departure when it hears of it or leaves itself; and if it
leaves, the other members have to be told. -/
theorem Sound.outlook_ordinary {step : Step} (h : seat.Sound host)
    (ho : seat.fabric.Outlook serves lenient crashed untold)
    (henv : ∀ node, (step.env node).routes.isLocal = serves node)
    (hordinary : step.Ordinary host) (hid : seat.node.id = step.node)
    (halive : ¬ crashed step.node)
    (hvalued : step.operation = .membership .localJoined →
      seat.node.settings.includeValues = true)
    (hprompt : ¬ lenient → ∀ peer, step.operation = .membership (.remoteLeft peer) →
      peer ∉ seat.fabric.hub.members)
    (hkept : ∀ watcher peer, untold watcher peer → untold' watcher peer ∨ watcher = step.node ∧
      (step.operation = .membership (.remoteLeft peer) ∨
        step.operation = .membership .localLeft))
    (hleft : step.operation = .membership .localLeft → step.node ∈ seat.fabric.hub.members →
      ∀ watcher ∈ seat.fabric.hub.members, watcher ≠ step.node → untold' watcher step.node) :
    (seat.perform step.env step.operation).seat.fabric.Outlook serves lenient crashed untold' := by
  obtain ⟨hkind, hosted, hplain⟩ := hordinary
  rw [← hid] at hosted hplain halive
  rw [← hid] at hkept hleft
  rcases hkind with htracking | ⟨event, hevent⟩
  · have hedits : Edits step.env host seat (seat.perform step.env step.operation).seat :=
      h.steady.edits_perform htracking hosted
    refine (ho.follows (h.follows_edits henv (ho.heardBy _) hedits)).mono fun watcher peer _ hold =>
      (hkept watcher peer hold).resolve_right ?_
    rintro ⟨-, hevent | hevent⟩ <;> simp [hevent, Operation.isTracking] at htracking
  · rw [hevent] at hvalued hprompt hkept hleft
    rw [hevent]
    cases event with
    | localJoined =>
      have hjoined : (seat.join step.env).seat.fabric.Outlook serves lenient crashed untold :=
        h.outlook_join ho henv hplain (hvalued rfl) halive
      exact hjoined.mono fun watcher peer _ hold =>
        (hkept watcher peer hold).resolve_right fun hown => hown.2.elim nofun nofun
    | localLeft =>
      refine h.outlook_leave ho henv (fun watcher peer hne hold => ?_) (hleft rfl)
      exact (hkept watcher peer hold).resolve_right fun hown => hne hown.1
    | remoteJoined other =>
      exact ho.mono fun watcher peer _ hold =>
        (hkept watcher peer hold).resolve_right fun hown => hown.2.elim nofun nofun
    | remoteLeft other =>
      refine ho.hear h.held (fun watcher peer hold => ?_) fun hstrict => hprompt hstrict other rfl
      refine (hkept watcher peer hold).imp_right fun hown => ⟨hown.1, ?_⟩
      rcases hown.2 with heq | heq
      · cases heq
        rfl
      · cases heq

end Seat

/-- Before anything happened all indexes are blank. -/
theorem Cluster.outlook_start {serves : NodeId → Address → Bool} {lenient : Prop}
    {untold : NodeId → NodeId → Prop} (hubName : String) (members : List (Server × Settings)) :
    (start hubName members).fabric.Outlook serves lenient (fun _ => False) untold := by
  have hindex : ∀ node, (start hubName members).fabric.index node = {} := by
    intro node
    simp [start, ofNodes, Fabric.index]
  refine ⟨fun _ hmember => absurd hmember Std.ExtTreeMap.not_mem_empty, fun _ => False.elim, ?_, ?_⟩
  · intro node
    rw [hindex]
    exact ReverseIndex.compact_empty
  · intro watcher peer _ _ sender
    rw [Fabric.shown, hindex, Fabric.due_of_absent Std.ExtTreeMap.not_mem_empty]
    simp [Shows, ReverseIndex.receivers?, ReverseIndex.senders]

end DirectedPresence
