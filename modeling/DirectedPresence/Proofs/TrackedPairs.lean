import DirectedPresence.Proofs.RegistryWrites

/-!
What a node tracks, as plain sets of pairs. `Seat.Tracks` says that the store and the cache of a
node agree and that both hold the pairs of a ledger. What the dispatcher does to the seat it also
does to the ledger.
-/

namespace DirectedPresence.Seat

/-- The store and the cache hold the same registries for the senders that the node hosts, with the
pairs of the ledger. -/
def Tracks (host : Address → NodeId) (seat : Seat) (ledger : Ledger) : Prop :=
  ∀ sender, host sender = seat.node.id →
    seat.node.store.get? sender = seat.cached sender ∧
      Registry.pairsOf (seat.cached sender) = ledger sender

variable {host : Address → NodeId} {env : Environment} {seat seat' : Seat} {ledger : Ledger}
  {sender : Address}

theorem Tracks.congr {ledger' : Ledger} (ht : seat.Tracks host ledger)
    (heq : ∀ sender, host sender = seat.node.id → ledger sender = ledger' sender) :
    seat.Tracks host ledger' := by
  intro sender hosted
  rw [← heq sender hosted]
  exact ht sender hosted

/-- The store and the cache got the same registry for one sender. -/
theorem Tracks.rewrite (ht : seat.Tracks host ledger) {value : Option Registry}
    (hwrite : Rewrites sender value value seat seat') :
    seat'.Tracks host (Function.update ledger sender (Registry.pairsOf value)) := by
  intro other hosted
  rw [hwrite.id] at hosted
  rw [hwrite.store, hwrite.cache, Function.update_apply]
  by_cases heq : sender = other
  · simp [heq]
  · have hne : other ≠ sender := fun h => heq h.symm
    simpa [heq, hne] using ht other hosted

/-- The store and the cache got what a change that drops some pairs makes of the cached copy. -/
theorem Tracks.thin (ht : seat.Tracks host ledger) (hosted : host sender = seat.node.id)
    {change : Registry → Option Registry} {keep : Address × Address → Prop} [DecidablePred keep]
    (hchange : ∀ registry, seat.cached sender = some registry →
      Registry.pairsOf (change registry) = registry.pairSet.filter keep)
    (hwrite : Rewrites sender ((seat.cached sender).bind change) ((seat.cached sender).bind change)
      seat seat') :
    seat'.Tracks host (Function.update ledger sender ((ledger sender).filter keep)) := by
  have hafter := ht.rewrite hwrite
  rwa [Registry.pairsOf_bind hchange, (ht sender hosted).2] at hafter

/-- Where the store and the cache agree they still do after the copy was changed. -/
theorem Tracks.rewrites_of_recopies (ht : seat.Tracks host ledger)
    (hosted : host sender = seat.node.id) {change : Registry → Option Registry}
    (hcopied : Recopies sender change seat seat') :
    Rewrites sender ((seat.cached sender).bind change) ((seat.cached sender).bind change)
      seat seat' := by
  have hagree := (ht sender hosted).1
  unfold Recopies at hcopied
  cases hcached : seat.cached sender with
  | none => rwa [hagree, hcached] at hcopied
  | some registry => rwa [hcached] at hcopied

/-! ## Tracking -/

/-- A pair is recorded or taken back in the store and in the cache. -/
theorem Tracks.recordPair (h : seat.Sound host) (ht : seat.Tracks host ledger)
    (hosted : host sender = seat.node.id) (kind : PresenceKind) (handler receiver : Address) :
    (seat.recordPair env kind sender handler receiver).seat.Tracks host
      (Function.update ledger sender
        (if kind = .unavailable then (ledger sender).erase (handler, receiver)
          else insert (handler, receiver) (ledger sender))) := by
  by_cases hkind : kind = .unavailable
  · subst hkind
    have hcopied : Recopies sender _ seat
        (seat.recordPair env .unavailable sender handler receiver).seat :=
      h.steady.recopies_recordPair hosted handler receiver
    rw [if_pos rfl, ← Finset.filter_ne']
    refine ht.thin hosted (fun registry hcached => ?_) (ht.rewrites_of_recopies hosted hcopied)
    exact (h.steady.cached_proper hosted hcached).regular.pairsOf_remove handler receiver
  · have hgrown : Registry.pairsOf
        (some (((seat.cached sender).getD .empty).add handler seat.node.id receiver).1) =
          insert (handler, receiver) (ledger sender) := by
      rw [← (ht sender hosted).2]
      exact Registry.pairsOf_add (seat.cached sender)
    rw [if_neg hkind, ← hgrown]
    exact ht.rewrite (h.steady.rewrites_recordPair hosted hkind handler receiver)

theorem Tracks.forgetting (h : seat.Sound host) (ht : seat.Tracks host ledger) (sender : Address) :
    (seat.forgetting env sender).Tracks host (Function.update ledger sender ∅) :=
  ht.rewrite (h.steady.rewrites_forgetting sender)

/-! ## Forgetting accounts -/

/-- A removal forgets the account's pairs in the store and in the cache, and counts them. -/
theorem Tracks.removeDirected (h : seat.Sound host) (ht : seat.Tracks host ledger)
    {owner : Address} (hosted : host owner = seat.node.id) (recipient : Address) :
    (seat.removeDirected env owner recipient).answer =
        .ok ((ledger owner).filter fun pair => pair.2.sameBare recipient).card ∧
      (seat.removeDirected env owner recipient).seat.Tracks host
        (ledger.dropAccount recipient (· = owner)) := by
  obtain ⟨hagree, hledger⟩ := ht owner hosted
  have hcopied : Recopies owner _ seat (seat.removeDirected env owner recipient).seat :=
    h.steady.recopies_removeDirected hosted recipient fun registry hcached => hagree.trans hcached
  constructor
  · rw [h.steady.answer_removeDirected hosted recipient, hledger]
  · rw [Ledger.dropAccount_eq_update]
    refine ht.thin hosted (fun registry hcached => ?_) (ht.rewrites_of_recopies hosted hcopied)
    exact (h.steady.cached_proper hosted hcached).regular.pairsOf_removeAccount recipient

private theorem Tracks.dropDirected (h : seat.Sound host) (ht : seat.Tracks host ledger)
    (contact : Address) {senders : List Address}
    (hosted : ∀ sender ∈ senders, host sender = seat.node.id) :
    (dropDirected env contact senders seat).seat.Tracks host
      (ledger.dropAccount contact (· ∈ senders)) := by
  induction senders generalizing seat ledger with
  | nil => exact ht.congr fun sender _ => by simp [Ledger.dropAccount]
  | cons sender senders ih =>
    have hsender : host sender = seat.node.id := hosted sender (by simp)
    have hedits : Edits env host seat (seat.removeDirected env sender contact).seat :=
      h.steady.edits_removeDirected hsender contact
    have hid := hedits.sameNode.id
    have hfirst : (seat.removeDirected env sender contact).seat.Tracks host _ :=
      (ht.removeDirected h hsender contact).2
    have hrest := ih (h.edits hedits) hfirst fun other hmem => by
      rw [hid]
      exact hosted other (by simp [hmem])
    refine hrest.congr fun other _ => ?_
    simp only [Ledger.dropAccount, decide_eq_true_eq, List.mem_cons]
    by_cases heq : other = sender
    · by_cases hmem : sender ∈ senders <;> simp [heq, hmem, Finset.filter_filter]
    · simp [heq]

theorem Sound.mem_senders_iff (h : seat.Sound host) (ht : seat.Tracks host ledger)
    (hosted : host sender = seat.node.id) :
    sender ∈ seat.node.store.senders ↔ (ledger sender).Nonempty := by
  obtain ⟨hagree, hledger⟩ := ht sender hosted
  rw [← hledger, ← hagree, Store.senders, Std.ExtTreeMap.mem_keys,
    Std.ExtTreeMap.mem_iff_isSome_getElem?]
  cases hstored : seat.node.store.get? sender with
  | none =>
    have hnone : seat.node.store.registries[sender]? = none := hstored
    simp [hnone, Registry.pairsOf]
  | some registry =>
    have hsome : seat.node.store.registries[sender]? = some registry := hstored
    simpa [hsome, Registry.pairsOf] using (h.stored sender registry hstored).2.pairSet_nonempty

/-- An accepted subscription drops the contact from every sender of the account. -/
theorem Tracks.dropAccount (h : seat.Sound host) (ht : seat.Tracks host ledger)
    (account contact : Address) :
    (Seat.dropDirected env contact (seat.node.store.senders.filter (·.sameBare account))
      seat).seat.Tracks host (ledger.dropAccount contact (·.sameBare account)) := by
  have hosted : ∀ sender ∈ seat.node.store.senders.filter (·.sameBare account),
      host sender = seat.node.id :=
    fun sender hmem => h.steady.hosted_of_mem_senders (List.mem_of_mem_filter hmem)
  have hedits : Edits env host seat _ := h.steady.edits_dropDirected contact hosted
  refine (ht.dropDirected h contact hosted).congr fun sender hsender => ?_
  rw [(Edits.sameNode hedits).id] at hsender
  simp only [Ledger.dropAccount, decide_eq_true_eq, List.mem_filter,
    h.mem_senders_iff ht hsender]
  cases hledger : (ledger sender).eq_empty_or_nonempty with
  | inl hnone => simp [hnone]
  | inr hsome => simp [hsome]

end DirectedPresence.Seat
