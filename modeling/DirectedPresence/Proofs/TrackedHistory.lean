import DirectedPresence.Proofs.ClusterRuns

/-!
What a node tracks is what its history says. The ledger of a node is computed from the steps of a
run alone; after every run the store of the node holds the pairs of the ledger, and what the node
answers about its senders, or counts when it forgets some of their pairs, is what the ledger says.
-/

namespace DirectedPresence

/-- What a node holds and answers is said by a ledger. -/
structure Seat.Follows (host : Address → NodeId) (seat : Seat) (ledger : Ledger) : Prop where
  /-- The store holds the pairs of the ledger, each once, and no sender without pairs. -/
  stored : ∀ sender, host sender = seat.node.id →
    Registry.pairsOf (seat.node.store.get? sender) = ledger sender ∧
      (seat.node.store.contains sender = true ↔ (ledger sender).Nonempty)
  distinct : ∀ (sender : Address) (registry : Registry),
    seat.node.store.get? sender = some registry → registry.pairs.Nodup
  /-- A query finds a receiver of the account among the pairs. -/
  found : ∀ (env : Environment) (owner recipient : Address), host owner = seat.node.id →
    (seat.perform env (.hasDirected owner recipient)).answer =
      .flag (decide (∃ pair ∈ ledger owner, pair.2.sameBare recipient = true))
  /-- A removal counts the pairs that it forgets. -/
  removed : ∀ (env : Environment) (owner recipient : Address), host owner = seat.node.id →
    (seat.perform env (.removeDirected owner recipient)).answer =
      .count ((ledger owner).filter fun pair => pair.2.sameBare recipient).card
  /-- A sweep counts, for every sender with pairs, the handlers that it forgets. -/
  swept : ∀ env : Environment, ∃ senders : Finset Address,
    (∀ sender, sender ∈ senders ↔ host sender = seat.node.id ∧ (ledger sender).Nonempty) ∧
      (seat.perform env .sweep).answer =
        .count (∑ sender ∈ senders, (ledger.lost (env seat.node.id).routes sender).card)

namespace Seat

variable {host : Address → NodeId} {seat : Seat} {ledger : Ledger}

private theorem contains_iff_mem_senders {store : Store} {sender : Address} :
    store.contains sender = true ↔ sender ∈ store.senders := by
  rw [Store.contains, Std.ExtTreeMap.contains_iff_mem, Store.senders, Std.ExtTreeMap.mem_keys]

private theorem Tracks.follows (h : seat.Sound host) (ht : seat.Tracks host ledger) :
    seat.Follows host ledger where
  stored := by
    intro sender hosted
    obtain ⟨hagree, hledger⟩ := ht sender hosted
    rw [contains_iff_mem_senders, hagree]
    exact ⟨hledger, h.mem_senders_iff ht hosted⟩
  distinct := by
    intro sender registry hstored
    exact (h.stored sender registry hstored).2.regular.nodup_pairs
  found := by
    intro env owner recipient hosted
    exact congrArg Answer.flag (ht.hasDirected h hosted recipient)
  removed := by
    intro env owner recipient hosted
    have hanswer : (seat.removeDirected env owner recipient).answer = _ :=
      (ht.removeDirected h hosted recipient).1
    simp only [Seat.perform, Outcome.answer_map, hanswer, Answer.ofPresence]
  swept := by
    intro env
    have hanswer : (seat.sweep env).answer = _ := (ht.sweep h).1
    refine ⟨seat.node.store.senders.toFinset, ?_, congrArg Answer.count hanswer⟩
    intro sender
    rw [List.mem_toFinset]
    constructor
    · intro hmem
      have hosted := h.steady.hosted_of_mem_senders hmem
      exact ⟨hosted, (h.mem_senders_iff ht hosted).mp hmem⟩
    · rintro ⟨hosted, hsome⟩
      exact (h.mem_senders_iff ht hosted).mpr hsome

end Seat

namespace Cluster

/-- After every run each node holds and answers what its own steps add up to. -/
theorem follows_history (host : Address → NodeId) (hubName : String)
    {members : List (Server × Settings)} (hawake : ∀ p ∈ members, p.1.shuttingDown = false)
    {steps : List Step} (hsteps : ∀ step ∈ steps, step.Ordinary host) (node : NodeId)
    {seat : Seat} (hseat : ((start hubName members).run steps).seat? node = some seat) :
    seat.node.id = node ∧
      seat.Follows host (Ledger.along seat.node.server node steps fun _ => ∅) := by
  obtain ⟨hid, hsound, -, htracks⟩ := seat_of_run host hubName hawake hsteps hseat
  exact ⟨hid, htracks.follows hsound⟩

/-- The first node of the sample run tracks the pair that it delivered. -/
theorem follows_sample_run : ∃ seat,
    ((start "hub" Sample.members).run Sample.steps).seat? ⟨"one"⟩ = some seat ∧
      Ledger.along seat.node.server ⟨"one"⟩ Sample.steps (fun _ => ∅) Sample.sender =
        {(Sample.handler, Sample.receiver)} ∧
      seat.Follows Sample.host
        (Ledger.along seat.node.server ⟨"one"⟩ Sample.steps fun _ => ∅) := by
  have hrun : (((start "hub" Sample.members).run Sample.steps).seat? ⟨"one"⟩).any
      (fun seat => Ledger.along seat.node.server ⟨"one"⟩ Sample.steps (fun _ => ∅)
        Sample.sender = {(Sample.handler, Sample.receiver)}) = true := by
    decide +kernel
  obtain ⟨seat, hseat, hledger⟩ := (Option.any_eq_true _ _).mp hrun
  have hfollows := follows_history Sample.host "hub" Sample.members_awake
    Sample.steps_ordinary ⟨"one"⟩ hseat
  exact ⟨seat, hseat, of_decide_eq_true hledger, hfollows.2⟩

end Cluster

end DirectedPresence
