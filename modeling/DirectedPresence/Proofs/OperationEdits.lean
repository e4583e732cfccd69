import DirectedPresence.Proofs.Ledgers

/-!
Whatever a call of the dispatcher or a sweep does to a seat is a sequence of edits. The senders that
it writes are the one that it is about, if it is about one (`Operation.tracked?`), or senders of the
node's own store. So is the refilling of a cache from the store.
-/

namespace DirectedPresence

namespace Seat

variable {host : Address → NodeId} {env : Environment} {seat seat' : Seat}

/-! ## Tracking -/

theorem edits_publish {sender : Address} {registry : Registry}
    (hosted : host sender = seat.node.id) (proper : registry.Proper seat.node.id) :
    Edits env host seat (seat.publish env sender registry).seat := by
  have hstore : Edit env host seat (seat.setStore (seat.node.store.insert sender registry)) :=
    .storeInsert seat sender registry hosted proper
  exact (Relation.ReflTransGen.single hstore).tail (.put _ sender registry hosted proper)

private theorem edits_withdraw {sender : Address} (hosted : host sender = seat.node.id) :
    Edits env host seat (seat.withdraw env sender).seat := by
  have hcache : Edit env host seat (seat.remove env sender).seat := .remove seat sender hosted
  rw [withdraw, Outcome.seat_andThen]
  split
  · exact (Relation.ReflTransGen.single hcache).tail (.storeRemove _ sender)
  · exact .single hcache

/-- The registry of a sender with one more pair. -/
theorem Steady.proper_grown (h : seat.Steady host) {sender : Address}
    (hosted : host sender = seat.node.id) (handler receiver : Address) :
    (((seat.cached sender).getD .empty).add handler seat.node.id receiver).1.Proper
      seat.node.id := by
  cases hcached : seat.cached sender with
  | none =>
    exact Registry.proper_add Registry.regular_empty (Registry.recordedBy_empty _) handler receiver
  | some registry =>
    have hproper := h.cached_proper hosted hcached
    exact Registry.proper_add hproper.regular hproper.recorded handler receiver

private theorem Steady.edits_recordPair (h : seat.Steady host) {sender : Address}
    (hosted : host sender = seat.node.id) (kind : PresenceKind) (handler receiver : Address) :
    Edits env host seat (seat.recordPair env kind sender handler receiver).seat := by
  unfold recordPair
  rw [h.get sender]
  simp only
  split
  · cases hcached : seat.cached sender with
    | none => exact .refl
    | some registry =>
      have hproper := h.cached_proper hosted hcached
      simp only
      split
      · exact edits_withdraw hosted
      · next hleft =>
        exact edits_publish hosted (hproper.remove handler receiver (by simpa using hleft))
  · exact edits_publish hosted (h.proper_grown hosted handler receiver)

/-- What is left of a proper registry is written to the cache, or the entry is removed. -/
theorem edits_keepOrRemove {sender : Address} {left : Registry}
    (hosted : host sender = seat.node.id)
    (hleft : left.isEmpty = false → left.Proper seat.node.id) :
    Edits env host seat
      (if left.isEmpty then seat.remove env sender else seat.put env sender left).seat := by
  split
  · exact .single (.remove seat sender hosted)
  · next hne => exact .single (.put seat sender left hosted (hleft (by simpa using hne)))

/-- The store's copy of a sender is changed, where there is one. -/
theorem Steady.edits_modify (h : seat.Steady host) {α : Type} (sender : Address)
    (change : Registry → Registry × α)
    (hchange : ∀ registry : Registry, registry.Proper seat.node.id →
      (change registry).1.isEmpty = false → (change registry).1.Proper seat.node.id) :
    Edits env host seat (seat.setStore (seat.node.store.modify sender change).1) := by
  unfold Store.modify
  cases hstored : seat.node.store.get? sender with
  | none => exact .refl
  | some registry =>
    obtain ⟨hosted, hproper⟩ := h.stored sender registry hstored
    cases hempty : (change registry).1.isEmpty with
    | true =>
      have hremove : seat.node.store.insert sender (change registry).1 =
          seat.node.store.remove sender := by
        simp [Store.insert, hempty]
      simp only [hremove]
      exact .single (.storeRemove seat sender)
    | false =>
      exact .single (.storeInsert seat sender _ hosted (hchange registry hproper hempty))

theorem Steady.edits_removeDirected (h : seat.Steady host) {owner : Address}
    (hosted : host owner = seat.node.id) (recipient : Address) :
    Edits env host seat (seat.removeDirected env owner recipient).seat := by
  unfold removeDirected
  rw [h.get owner]
  cases hcached : seat.cached owner with
  | none => exact .refl
  | some registry =>
    have hproper := h.cached_proper hosted hcached
    simp only
    split
    · exact .refl
    · have hcache : Edits env host seat _ :=
        edits_keepOrRemove hosted (hproper.removeAccount recipient)
      rw [Outcome.seat_andThen]
      split
      · exact hcache
      · have hstore : Edits env host _ _ := (h.edits hcache).edits_modify owner
          (·.removeAccount recipient) fun registry hp hne => hp.removeAccount recipient hne
        exact hcache.trans hstore

/-- The given senders are hosted here, as all senders of the store are. -/
theorem Steady.edits_dropDirected (h : seat.Steady host) (contact : Address)
    {senders : List Address} (hosted : ∀ sender ∈ senders, host sender = seat.node.id) :
    Edits env host seat (dropDirected env contact senders seat).seat := by
  induction senders generalizing seat with
  | nil => exact .refl
  | cons sender senders ih =>
    have hfirst : Edits env host seat (seat.removeDirected env sender contact).seat :=
      h.edits_removeDirected (hosted sender (by simp)) contact
    have hid := hfirst.sameNode.id
    have hrest := ih (h.edits hfirst) fun other hmem => by
      rw [hid]
      exact hosted other (by simp [hmem])
    exact hfirst.trans hrest

theorem Steady.hosted_of_mem_senders (h : seat.Steady host) {sender : Address}
    (hmem : sender ∈ seat.node.store.senders) : host sender = seat.node.id := by
  have hin : sender ∈ seat.node.store.registries := by
    simpa [Store.senders] using hmem
  obtain ⟨registry, hget⟩ := Option.isSome_iff_exists.mp
    (Std.ExtTreeMap.mem_iff_isSome_getElem?.mp hin)
  exact (h.stored sender registry hget).1

/-! ## Sweeps -/

private theorem Steady.edits_sweepCached (h : seat.Steady host) {sender : Address}
    (hosted : host sender = seat.node.id) :
    Edits env host seat (seat.sweepCached env sender).seat := by
  unfold sweepCached
  rw [h.get sender]
  cases hcached : seat.cached sender with
  | none => exact .refl
  | some registry =>
    have hproper := h.cached_proper hosted hcached
    simp only
    split
    · exact .refl
    · exact edits_keepOrRemove hosted (hproper.retain _)

theorem Steady.edits_sweepSender (h : seat.Steady host) {sender : Address}
    (hosted : host sender = seat.node.id) :
    Edits env host seat (seat.sweepSender env sender).seat := by
  have hstore : Edits env host seat _ := h.edits_modify sender
    (·.retain (HandlerEntry.isServed (seat.services env).routes))
    fun registry hp hne => hp.retain _ hne
  have hid := hstore.sameNode.id
  exact hstore.trans ((h.edits hstore).edits_sweepCached (by rwa [hid]))

theorem Steady.edits_sweepEach (h : seat.Steady host) {registries : List (Address × Registry)}
    (hosted : ∀ p ∈ registries, host p.1 = seat.node.id) :
    Edits env host seat (sweepEach env registries seat).seat := by
  induction registries generalizing seat with
  | nil => exact .refl
  | cons p rest ih =>
    obtain ⟨sender, registry⟩ := p
    unfold sweepEach
    split
    · exact ih h fun q hq => hosted q (by simp [hq])
    · have hfirst : Edits env host seat (seat.sweepSender env sender).seat :=
        h.edits_sweepSender (hosted (sender, registry) (by simp))
      have hid := hfirst.sameNode.id
      have hrest := ih (h.edits hfirst) fun q hq => by
        rw [hid]
        exact hosted q (by simp [hq])
      exact hfirst.trans hrest

theorem Steady.hosted_of_mem_toList (h : seat.Steady host) {p : Address × Registry}
    (hmem : p ∈ seat.node.store.toList) :
    host p.1 = seat.node.id ∧ p.2.Proper seat.node.id :=
  h.stored p.1 p.2 (Store.mem_toList_iff.mp hmem)

/-! ## Every deed -/

theorem edits_forgetting {sender : Address} (hosted : host sender = seat.node.id) :
    Edits env host seat (seat.forgetting env sender) := by
  have hcache : Edit env host seat (seat.remove env sender).seat := .remove seat sender hosted
  have hstore : Edit env host (seat.remove env sender).seat _ :=
    .storeRemove (seat.remove env sender).seat sender
  rw [store_remove] at hstore
  exact (Relation.ReflTransGen.single hcache).tail hstore

private theorem Steady.edits_deed (h : seat.Steady host) {ledger ledger' : Ledger}
    {operation : Operation}
    (hosted : ∀ sender, operation.tracked? = some sender → host sender = seat.node.id)
    (hdeed : Deed env seat ledger operation seat' ledger') : Edits env host seat seat' := by
  cases hdeed with
  | idle => exact .refl
  | record delivery delivered =>
    have hsender := hosted _ (Operation.sender_of_delivery? delivered).1
    exact h.edits_recordPair hsender delivery.kind delivery.handler delivery.receiver
  | forget sender tracked => exact edits_forgetting (hosted sender tracked)
  | remove owner recipient tracked => exact h.edits_removeDirected (hosted owner tracked) recipient
  | drop account contact =>
    exact h.edits_dropDirected contact fun sender hmem =>
      h.hosted_of_mem_senders (List.mem_of_mem_filter hmem)
  | sweep => exact h.edits_sweepEach fun p hp => (h.hosted_of_mem_toList hp).1

/-- A dispatcher call or a sweep edits the seat, if the sender that it is about lives here. -/
theorem Steady.edits_perform (h : seat.Steady host) {operation : Operation}
    (hkind : operation.isTracking = true)
    (hosted : ∀ sender, operation.tracked? = some sender → host sender = seat.node.id) :
    Edits env host seat (seat.perform env operation).seat := by
  have hdeed : Deed env seat (fun _ => ∅) operation _ _ := perform_deed hkind
  exact h.edits_deed hosted hdeed

/-! ## Refilling -/

theorem edits_restore {registries : List (Address × Registry)}
    (hproper : ∀ p ∈ registries, host p.1 = seat.node.id ∧ p.2.Proper seat.node.id) :
    Edits env host seat (restore env registries seat).seat := by
  induction registries generalizing seat with
  | nil => exact .refl
  | cons p rest ih =>
    obtain ⟨sender, registry⟩ := p
    obtain ⟨hosted, hp⟩ := hproper (sender, registry) (by simp)
    have hfirst : Edits env host seat (seat.put env sender registry).seat :=
      .single (.put seat sender registry hosted hp)
    have hid := hfirst.sameNode.id
    refine hfirst.trans (ih fun q hq => ?_)
    rw [hid]
    exact hproper q (by simp [hq])

end Seat

end DirectedPresence
