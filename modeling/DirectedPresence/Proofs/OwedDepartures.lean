import DirectedPresence.Proofs.IndexAgreement

/-!
Courses without evictions. There the hub holds what the stores of its members hold
(`Course.Agrees`). What is owed of a departure is what the node had then; it is owed to a member as
long as the member stays and has not heard of it, and afterwards nothing is owed until the node has
joined again.
-/

namespace DirectedPresence

/-- Something is taken out of the hub behind the back of its owner. -/
def Step.Evicts (step : Step) : Prop :=
  (∃ key, step.operation = .hubEvict key) ∨ ∃ peer, step.operation = .hubEvictNode peer

namespace Course

variable {host : Address → NodeId} {serves : NodeId → Address → Bool} {course : Course}
  {step : Step} {steps : List Step} {node peer watcher : NodeId} {seat : Seat}

/-- The store and the cache of every node that has not crashed agree. -/
def Agrees (host : Address → NodeId) (course : Course) : Prop :=
  ∃ ledgers, course.cluster.Tracks host course.crashed ledgers

private theorem Agrees.after (ha : course.Agrees host) (h : course.Sound host serves)
    (hallows : course.Allows host step) (hkept : ¬ step.Evicts) :
    (course.after step).Agrees host := by
  obtain ⟨ledgers, htracks⟩ := ha
  cases hseat : course.cluster.seat? step.node with
  | none =>
    rw [after_of_none hseat]
    exact ⟨ledgers, htracks⟩
  | some seat =>
    cases hallows with
    | act hordinary halive =>
      have hcrashed : (course.after step).crashed = course.crashed :=
        crashed_after fun peer => hordinary.ne_hubLeave peer
      have htracks' := htracks.after h.cluster (Cluster.servedBy_self _) hordinary halive
      rw [Agrees, hcrashed, after_of_seat? hseat]
      rw [Cluster.after_of_seat? hseat] at htracks'
      exact ⟨_, htracks'⟩
    | crash hgone =>
      refine ⟨ledgers, ?_⟩
      rw [after_of_seat? hseat]
      unfold crashedAfter
      rw [hgone]
      exact htracks.crash h.cluster hseat
    | evict key hevicted => exact absurd (Or.inl ⟨key, hevicted⟩) hkept
    | evictNode peer hevicted => exact absurd (Or.inr ⟨peer, hevicted⟩) hkept

private theorem Agrees.run (ha : course.Agrees host) (h : course.Sound host serves)
    (hroutes : ∀ step ∈ steps, ∀ node, (step.env node).routes.isLocal = serves node)
    (hlawful : course.Lawful host steps) (hkept : ∀ step ∈ steps, ¬ step.Evicts) :
    (course.run steps).Agrees host := by
  induction steps generalizing course with
  | nil => exact ha
  | cons step steps ih =>
    refine ih (ha.after h hlawful.1 (hkept step (by simp)))
      (h.after (hroutes step (by simp)) hlawful.1) ?_ hlawful.2 ?_
    · exact fun other hmem => hroutes other (by simp [hmem])
    · exact fun other hmem => hkept other (by simp [hmem])

/-- What every lawful course without evictions leads to. -/
theorem sound_of_lawful (host : Address → NodeId) (serves : NodeId → Address → Bool)
    (hubName : String) {members : List (Server × Settings)}
    (hmembers : ∀ p ∈ members, p.1.shuttingDown = false ∧ p.2.includeValues = true)
    (hroutes : ∀ step ∈ steps, ∀ node, (step.env node).routes.isLocal = serves node)
    (hlawful : (start hubName members).Lawful host steps) (hkept : ∀ step ∈ steps, ¬ step.Evicts) :
    ((start hubName members).run steps).Sound host serves ∧
      ((start hubName members).run steps).Agrees host := by
  have hstart := sound_start host serves hubName hmembers
  have htracks := (Cluster.sound_start host hubName fun p hp => (hmembers p hp).1).2
  exact ⟨hstart.run hroutes hlawful, Agrees.run ⟨_, htracks⟩ hstart hroutes hlawful hkept⟩

/-- What the hub holds of a clustered node is what its store holds. -/
theorem Agrees.estate (ha : course.Agrees host) (h : course.Sound host serves)
    (hseat : course.cluster.seat? node = some seat) (hphase : seat.node.phase = .clustered)
    (halive : ¬ course.crashed node) (sender : Address) :
    course.cluster.fabric.hub.estate node sender = seat.node.store.get? sender := by
  obtain ⟨ledgers, htracks⟩ := ha
  exact htracks.estate h.cluster hseat hphase halive sender

/-! ## What is owed of a departure -/

/-- Whatever happens, as long as the watcher stays and has not heard it, the notice stays the same.
-/
theorem Sound.notices_after (h : course.Sound host serves) {estate : Estate}
    (hnotice : course.notices peer watcher = some estate) (hkept : ¬ step.Evicts)
    (hstays : step.node = watcher → step.operation ≠ .membership .localLeft ∧
      (∀ other, step.operation ≠ .hubLeave other) ∧
      step.operation ≠ .membership (.remoteLeft peer)) :
    (course.after step).notices peer watcher = some estate := by
  have habsent : ¬ course.Joined peer := (h.mirrored.noticed peer watcher estate hnotice).1
  rcases course.notices_after_cases step with
    hsame | ⟨hdeparts, hlost⟩ | ⟨other, hleft, hheard⟩ | ⟨other, hevicted, -⟩
  · rw [hsame]
    exact hnotice
  · have hne : watcher ≠ step.node := by
      intro heq
      rcases hdeparts with hleave | ⟨other, hleave⟩
      · exact (hstays heq.symm).1 hleave
      · exact (hstays heq.symm).2.1 other hleave
    rw [hlost, Notices.depart_of_absent habsent hne]
    exact hnotice
  · have hunheard : ¬ (peer = other ∧ watcher = step.node) := by
      rintro ⟨rfl, heq⟩
      exact (hstays heq.symm).2.2 hleft
    simp only [hheard, Notices.hear, hunheard, if_false]
    exact hnotice
  · exact absurd (Or.inr ⟨other, hevicted⟩) hkept

theorem Sound.notices_run (h : course.Sound host serves) {estate : Estate}
    (hroutes : ∀ step ∈ steps, ∀ node, (step.env node).routes.isLocal = serves node)
    (hlawful : course.Lawful host steps) (hkept : ∀ step ∈ steps, ¬ step.Evicts)
    (hnotice : course.notices peer watcher = some estate)
    (hstays : ∀ step ∈ steps, step.node = watcher → step.operation ≠ .membership .localLeft ∧
      (∀ other, step.operation ≠ .hubLeave other) ∧
      step.operation ≠ .membership (.remoteLeft peer)) :
    (course.run steps).notices peer watcher = some estate := by
  induction steps generalizing course with
  | nil => exact hnotice
  | cons step steps ih =>
    have hnotice' : (course.after step).notices peer watcher = some estate :=
      h.notices_after hnotice (hkept step (by simp)) (hstays step (by simp))
    refine ih (h.after (hroutes step (by simp)) hlawful.1) ?_ hlawful.2 ?_ hnotice' ?_
    · exact fun other hmem => hroutes other (by simp [hmem])
    · exact fun other hmem => hkept other (by simp [hmem])
    · exact fun other hmem => hstays other (by simp [hmem])

/-- Who is no member is none until it joins. -/
theorem Sound.not_joined_after (h : course.Sound host serves) (hallows : course.Allows host step)
    (habsent : ¬ course.Joined node)
    (hstays : step.node = node → step.operation ≠ .membership .localJoined) :
    ¬ (course.after step).Joined node := by
  cases hseat : course.cluster.seat? step.node with
  | none =>
    rw [after_of_none hseat]
    exact habsent
  | some seat =>
    have hid : seat.node.id = step.node := h.cluster.named step.node seat hseat
    rw [Joined, ← Cluster.fabric_of_seat? hseat] at habsent
    rw [after_of_seat? hseat]
    show node ∉ (seat.perform step.env step.operation).seat.fabric.hub.members
    cases hallows with
    | act hordinary halive =>
      obtain ⟨hsound, hsettled⟩ := h.cluster.live step.node seat hseat halive
      obtain ⟨hsound', hsettled', hframe⟩ := hsound.ordinary hsettled hordinary hid
      -- the frame speaks of the other nodes only
      by_cases heq : step.node = node
      · rcases hordinary.kind with htracking | ⟨event, hevent⟩
        · have hedits : Seat.Edits step.env host seat (seat.perform step.env step.operation).seat :=
            hsound.steady.edits_perform htracking fun sender hsender =>
              (hordinary.hosted sender hsender).trans hid.symm
          rwa [hsound.steady.mem_members_edits hedits]
        · have hsame := hframe.id
          rw [hevent] at hsound' hsettled' hsame hstays ⊢
          cases event with
          | localJoined => exact absurd rfl (hstays heq)
          | localLeft =>
            have hphase : (seat.leave step.env).seat.node.phase = .standalone := by
              rw [Seat.seat_leave step.env hsound.awake]
              rfl
            obtain ⟨-, -, habsent'⟩ := hsound'.phase_eq_standalone hsettled' hphase
            rwa [hsame, hid, heq] at habsent'
          | remoteJoined peer => exact habsent
          | remoteLeft peer => exact habsent
      · rwa [hframe.members node fun hnode => heq (hid.symm.trans hnode.symm)]
    | crash hgone =>
      rw [hgone]
      exact fun hmember => habsent (Hub.mem_members_leave.mp hmember).2
    | evict key hevicted =>
      rw [hevicted]
      exact fun hmember => habsent ((Hub.mem_members_takeOut _).mp hmember)
    | evictNode peer hevicted =>
      rw [hevicted]
      exact fun hmember => habsent ((Hub.mem_members_evictNode _).mp hmember)

/-- Of a node that is no member nothing new is owed. -/
theorem heard_after_of_absent (habsent : ¬ course.Joined peer)
    (hheard : course.Heard peer watcher) : (course.after step).Heard peer watcher := by
  rw [Heard] at hheard ⊢
  rcases course.notices_after_cases step with
    hsame | ⟨-, hlost⟩ | ⟨other, -, hheard'⟩ | ⟨other, -, hevicted⟩
  · rw [hsame, hheard]
  · rw [hlost]
    by_cases heq : watcher = step.node
    · rw [heq, Notices.depart_self]
    · rw [Notices.depart_of_absent habsent heq, hheard]
  · simp only [hheard', Notices.hear, hheard, ite_self]
  · simp only [hevicted, Notices.evict, hheard, Option.map_none, ite_self]

end Course

end DirectedPresence
