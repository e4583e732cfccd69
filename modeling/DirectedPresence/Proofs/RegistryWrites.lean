import DirectedPresence.Proofs.OperationEdits

/-!
What the operations write, as one equation for the store and one for the cache (`Seat.Rewrites`):
one sender gets another registry there, or loses the one that it has, and all others keep theirs.
The equations hold at every steady seat, whether or not the store and the cache agree. Where a
removal finds no cached copy it leaves the store alone too; where it finds one, the store gets what
the copy is then (`Seat.Recopies`).
-/

namespace DirectedPresence

namespace Seat

/-- The store and the cache got other registries for one sender, or lost theirs. -/
structure Rewrites (sender : Address) (stored cached : Option Registry) (before after : Seat) :
    Prop where
  id : after.node.id = before.node.id
  store : ∀ other, after.node.store.get? other =
    if sender = other then stored else before.node.store.get? other
  cache : ∀ other, after.cached other = if sender = other then cached else before.cached other

/-- The cached copy of one sender, if there is one, is changed, and the store gets the result. -/
def Recopies (sender : Address) (change : Registry → Option Registry)
    (before after : Seat) : Prop :=
  Rewrites sender ((before.cached sender).elim (before.node.store.get? sender) change)
    ((before.cached sender).bind change) before after

variable {host : Address → NodeId} {env : Environment} {seat seat' : Seat} {sender : Address}
  {registry : Registry} {change : Registry → Option Registry}

theorem Rewrites.refl (seat : Seat) (sender : Address) :
    Rewrites sender (seat.node.store.get? sender) (seat.cached sender) seat seat where
  id := rfl
  store other := by
    split
    · next heq => rw [heq]
    · rfl
  cache other := by
    split
    · next heq => rw [heq]
    · rfl

private theorem Recopies.of_lost (hlost : seat.cached sender = none) :
    Recopies sender change seat seat := by
  have hsame := Rewrites.refl seat sender
  rw [hlost] at hsame
  rwa [Recopies, hlost]

theorem recopies_iff (hcached : seat.cached sender = some registry) :
    Recopies sender change seat seat' ↔
      Rewrites sender (change registry) (change registry) seat seat' := by
  rw [Recopies, hcached]
  rfl

/-! ## Tracking -/

private theorem Steady.rewrites_publish (h : seat.Steady host) (hosted : host sender = seat.node.id)
    (proper : registry.Proper seat.node.id) :
    Rewrites sender (some registry) (some registry) seat
      (seat.publish env sender registry).seat where
  id := (edits_publish hosted proper).sameNode.id
  store other := by
    simp only [publish, Outcome.seat_map, store_put]
    rw [setStore, Store.get?_insert, proper.nonempty]
    rfl
  cache other := (h.storeInsert hosted proper).cached_put sender other registry

theorem Steady.rewrites_forgetting (h : seat.Steady host) (sender : Address) :
    Rewrites sender none none seat (seat.forgetting env sender) where
  id := (sameNode_remove seat env sender).id
  store other := Store.get?_remove seat.node.store sender other
  cache other := h.cached_remove sender other

private theorem Steady.seat_withdraw (h : seat.Steady host) (env : Environment) (sender : Address) :
    (seat.withdraw env sender).seat = seat.forgetting env sender := by
  simp only [withdraw, Outcome.seat_andThen, h.answer_remove sender, store_remove, forgetting]

/-- A delivery is added to the cached copy, or to nothing if the copy is lost. -/
theorem Steady.rewrites_recordPair (h : seat.Steady host) (hosted : host sender = seat.node.id)
    {kind : PresenceKind} (hkind : kind ≠ .unavailable) (handler receiver : Address) :
    Rewrites sender
      (some (((seat.cached sender).getD .empty).add handler seat.node.id receiver).1)
      (some (((seat.cached sender).getD .empty).add handler seat.node.id receiver).1) seat
      (seat.recordPair env kind sender handler receiver).seat := by
  unfold recordPair
  rw [h.get sender]
  simp only
  rw [if_neg hkind]
  exact h.rewrites_publish hosted (h.proper_grown hosted handler receiver)

/-- A delivery is taken back from the cached copy, if there is one. -/
theorem Steady.recopies_recordPair (h : seat.Steady host) (hosted : host sender = seat.node.id)
    (handler receiver : Address) :
    Recopies sender (fun registry => (registry.remove handler receiver).1.orNone) seat
      (seat.recordPair env .unavailable sender handler receiver).seat := by
  unfold recordPair
  rw [h.get sender]
  cases hcached : seat.cached sender with
  | none => exact .of_lost hcached
  | some registry =>
    have hproper := h.cached_proper hosted hcached
    rw [recopies_iff hcached]
    simp only [if_true]
    unfold Registry.orNone
    split
    · rw [h.seat_withdraw]
      exact h.rewrites_forgetting sender
    · next hleft =>
      exact h.rewrites_publish hosted (hproper.remove handler receiver (by simpa using hleft))

/-! ## Forgetting accounts -/

/-- What the cache is left with after a sender lost some of its registry. -/
theorem Steady.cached_keepOrRemove (h : seat.Steady host) (sender other : Address)
    (left : Registry) :
    (if left.isEmpty then seat.remove env sender else seat.put env sender left).seat.cached other =
      if sender = other then left.orNone else seat.cached other := by
  unfold Registry.orNone
  split
  · exact h.cached_remove sender other
  · exact h.cached_put sender other left

private theorem Steady.answer_keepOrRemove (h : seat.Steady host) (env : Environment)
    (sender : Address) (left : Registry) :
    (if left.isEmpty then seat.remove env sender else seat.put env sender left).answer =
      .ok (seat.cached sender) := by
  split
  · exact h.answer_remove sender
  · exact h.answer_put sender left

theorem store_keepOrRemove (seat : Seat) (sender : Address) (left : Registry) :
    (if left.isEmpty then seat.remove env sender else seat.put env sender left).seat.node.store =
      seat.node.store := by
  split <;> simp

theorem get?_modify {α : Type} (store : Store) (sender : Address)
    (change : Registry → Registry × α) (other : Address) :
    (store.modify sender change).1.get? other =
      if sender = other then (store.get? sender).bind fun registry => (change registry).1.orNone
      else store.get? other := by
  unfold Store.modify
  cases hstored : store.get? sender with
  | none =>
    simp only [Option.bind_none]
    split
    · next heq => rw [← heq, hstored]
    · rfl
  | some registry => exact Store.get?_insert store sender other (change registry).1

/-- The receivers of the account are removed from the cached copy, if there is one. -/
theorem Steady.recopies_removeDirected (h : seat.Steady host) {owner : Address}
    (hosted : host owner = seat.node.id) (recipient : Address)
    (hcopy : ∀ registry, seat.cached owner = some registry →
      seat.node.store.get? owner = some registry) :
    Recopies owner (fun registry => (registry.removeAccount recipient).1.orNone) seat
      (seat.removeDirected env owner recipient).seat := by
  unfold removeDirected
  rw [h.get owner]
  cases hcached : seat.cached owner with
  | none => exact .of_lost hcached
  | some registry =>
    have hproper := h.cached_proper hosted hcached
    have hstored := hcopy registry hcached
    rw [recopies_iff hcached]
    simp only
    split
    · next hzero =>
      have hsame := Rewrites.refl seat owner
      rw [hcached, hstored] at hsame
      rwa [hproper.regular.removeAccount_eq_self hzero, hproper.orNone]
    · simp only [Outcome.seat_andThen, h.answer_keepOrRemove]
      refine ⟨?_, fun other => ?_, fun other => ?_⟩
      · have hcache : Edits env host seat _ :=
          edits_keepOrRemove hosted (hproper.removeAccount recipient)
        exact hcache.sameNode.id
      · simp only [setStore, store_keepOrRemove]
        rw [get?_modify, hstored, Option.bind_some]
      · exact h.cached_keepOrRemove owner other _

/-- A removal counts the pairs that go from the cached copy. -/
theorem Steady.answer_removeDirected (h : seat.Steady host) {owner : Address}
    (hosted : host owner = seat.node.id) (recipient : Address) :
    (seat.removeDirected env owner recipient).answer = .ok
      ((Registry.pairsOf (seat.cached owner)).filter fun pair =>
        pair.2.sameBare recipient).card := by
  unfold removeDirected
  rw [h.get owner]
  cases hcached : seat.cached owner with
  | none => rfl
  | some registry =>
    have hproper := h.cached_proper hosted hcached
    have hcount := hproper.regular.count_removeAccount recipient
    show _ = Except.ok (Finset.filter _ registry.pairSet).card
    rw [← hcount]
    simp only
    split
    · next hzero => rw [hzero]
    · simp only [Outcome.answer_andThen, h.answer_keepOrRemove]

end Seat

end DirectedPresence
