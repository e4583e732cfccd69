import DirectedPresence.Proofs.LedgerSteps

/-!
What a node keeps when its cached copies get lost. The hub may drop the entry of a sender, or the
node itself; then the cache has nothing of the sender, while the store has all of it. A removal
leaves the store alone if there is no copy, and retracting falls back on the store, so the store
still has every pair of the ledger (`Seat.Backs`). A delivery is added to the copy, and the store
gets what the copy is then: if the copy is lost, the new pair replaces all that the store had
(`Seat.Overwrites`).
-/

namespace DirectedPresence

namespace Ledger

variable {ledger : Ledger}

theorem mem_record {delivery : Delivery} (hkind : delivery.kind ≠ .unavailable)
    (pair : Address × Address) : pair ∈ ledger.record delivery delivery.sender ↔
      pair = delivery.pair ∨ pair ∈ ledger delivery.sender := by
  rw [record, Function.update_self, if_neg hkind, Finset.mem_insert]

end Ledger

namespace Seat

/-- For every hosted sender the cache has nothing or what the store has, and the store has at least
the pairs of the ledger. -/
def Backs (host : Address → NodeId) (seat : Seat) (ledger : Ledger) : Prop :=
  ∀ sender, host sender = seat.node.id →
    (seat.cached sender = none ∨ seat.cached sender = seat.node.store.get? sender) ∧
      ledger sender ⊆ Registry.pairsOf (seat.node.store.get? sender)

/-- The operation records a delivery of a sender that has made others, while its cached copy is
lost. -/
def Overwrites (env : Environment) (seat : Seat) (ledger : Ledger) (operation : Operation) : Prop :=
  ∃ delivery, operation.delivery? (seat.services env) seat.node.server = some delivery ∧
    delivery.kind ≠ .unavailable ∧ seat.get delivery.sender = .ok none ∧
    ¬ ledger delivery.sender ⊆ {delivery.pair}

variable {host : Address → NodeId} {env : Environment} {seat seat' : Seat}
  {ledger ledger' : Ledger} {sender : Address}

/-- A cached copy is what the store has. -/
theorem Backs.stored (hb : seat.Backs host ledger) (hosted : host sender = seat.node.id)
    {registry : Registry} (hcached : seat.cached sender = some registry) :
    seat.node.store.get? sender = some registry := by
  rcases (hb sender hosted).1 with hnone | hcopy
  · rw [hcached] at hnone
    cases hnone
  · rw [← hcopy, hcached]

theorem Backs.mono (hb : seat.Backs host ledger)
    (hle : ∀ sender, host sender = seat.node.id → ledger' sender ⊆ ledger sender) :
    seat.Backs host ledger' :=
  fun sender hosted => ⟨(hb sender hosted).1, (hle sender hosted).trans (hb sender hosted).2⟩

/-- The store and the cache got other registries for one sender. -/
theorem Backs.rewrite (hb : seat.Backs host ledger) {stored cached : Option Registry}
    (hwrite : Rewrites sender stored cached seat seat')
    (hcopy : cached = none ∨ cached = stored) (hpairs : ledger' sender ⊆ Registry.pairsOf stored)
    (hothers : ∀ other, other ≠ sender → ledger' other = ledger other) :
    seat'.Backs host ledger' := by
  intro other hosted
  rw [hwrite.id] at hosted
  rw [hwrite.store, hwrite.cache]
  split
  · next heq => exact heq ▸ ⟨hcopy, hpairs⟩
  · next hne =>
    rw [hothers other fun heq => hne heq.symm]
    exact hb other hosted

/-- The copy was changed, if there was one, and the change drops no pair of the ledger. -/
theorem Backs.recopy (hb : seat.Backs host ledger) (hosted : host sender = seat.node.id)
    {change : Registry → Option Registry} {keep : Address × Address → Prop} [DecidablePred keep]
    (hchange : ∀ registry, seat.cached sender = some registry →
      Registry.pairsOf (change registry) = registry.pairSet.filter keep)
    (hkept : ∀ pair ∈ ledger sender, keep pair)
    (hcopied : Recopies sender change seat seat') : seat'.Backs host ledger := by
  have hpairs := (hb sender hosted).2
  cases hcached : seat.cached sender with
  | none =>
    rw [Recopies, hcached] at hcopied
    exact hb.rewrite hcopied (Or.inl rfl) hpairs fun _ _ => rfl
  | some registry =>
    rw [recopies_iff hcached] at hcopied
    refine hb.rewrite hcopied (Or.inr rfl) (fun pair hpair => ?_) fun _ _ => rfl
    rw [hchange registry hcached, Finset.mem_filter]
    rw [hb.stored hosted hcached] at hpairs
    exact ⟨hpairs hpair, hkept pair hpair⟩

/-! ## Tracking -/

/-- Recording loses nothing unless the copy is lost and the sender has other pairs. -/
theorem Backs.recordPair (h : seat.Steady host) (hb : seat.Backs host ledger)
    (hosted : host sender = seat.node.id) (kind : PresenceKind) (handler receiver : Address)
    (hkept : kind ≠ .unavailable → seat.cached sender = none →
      ledger sender ⊆ {(handler, receiver)}) :
    (seat.recordPair env kind sender handler receiver).seat.Backs host
      (Function.update ledger sender
        (if kind = .unavailable then (ledger sender).erase (handler, receiver)
          else insert (handler, receiver) (ledger sender))) := by
  by_cases hkind : kind = .unavailable
  · subst hkind
    have hcopied : Recopies sender _ seat
        (seat.recordPair env .unavailable sender handler receiver).seat :=
      h.recopies_recordPair hosted handler receiver
    rw [if_pos rfl]
    have hthinned : seat.Backs host
        (Function.update ledger sender ((ledger sender).erase (handler, receiver))) :=
      hb.mono fun other _ => by
        rw [Function.update_apply]
        split
        · next heq => exact heq ▸ Finset.erase_subset _ _
        · exact subset_rfl
    refine hthinned.recopy hosted (fun registry hcached =>
      (h.cached_proper hosted hcached).regular.pairsOf_remove handler receiver)
      (fun pair hpair => ?_) hcopied
    rw [Function.update_self] at hpair
    exact Finset.ne_of_mem_erase hpair
  · rw [if_neg hkind]
    refine hb.rewrite (h.rewrites_recordPair hosted hkind handler receiver) (Or.inr rfl) ?_
      fun other hne => Function.update_of_ne hne _ _
    rw [Function.update_self, Registry.pairsOf_add]
    refine Finset.insert_subset (Finset.mem_insert_self _ _) ?_
    cases hcached : seat.cached sender with
    | none => exact hkept hkind hcached
    | some registry =>
      rw [← hb.stored hosted hcached]
      exact (hb sender hosted).2.trans (Finset.subset_insert _ _)

private theorem Backs.forgetting (h : seat.Steady host) (hb : seat.Backs host ledger)
    (sender : Address) :
    (seat.forgetting env sender).Backs host (Function.update ledger sender ∅) := by
  refine hb.rewrite (h.rewrites_forgetting sender) (Or.inl rfl) ?_
    fun other hne => Function.update_of_ne hne _ _
  rw [Function.update_self]
  exact Finset.empty_subset _

/-! ## Forgetting accounts -/

/-- A removal costs no pair that the ledger still has. -/
theorem Backs.removeDirected (h : seat.Steady host) (hb : seat.Backs host ledger)
    {owner : Address} (hosted : host owner = seat.node.id) {recipient : Address}
    (hgone : ∀ pair ∈ ledger owner, pair.2.sameBare recipient = false) :
    (seat.removeDirected env owner recipient).seat.Backs host ledger := by
  have hcopied : Recopies owner _ seat (seat.removeDirected env owner recipient).seat :=
    h.recopies_removeDirected hosted recipient fun registry => hb.stored hosted
  refine hb.recopy hosted (fun registry hcached =>
    (h.cached_proper hosted hcached).regular.pairsOf_removeAccount recipient)
    (fun pair hpair => ?_) hcopied
  rw [hgone pair hpair, Bool.not_false]

private theorem Backs.dropDirected (h : seat.Steady host) (hb : seat.Backs host ledger)
    {contact : Address} {senders : List Address}
    (hosted : ∀ sender ∈ senders, host sender = seat.node.id)
    (hgone : ∀ sender ∈ senders, ∀ pair ∈ ledger sender, pair.2.sameBare contact = false) :
    (dropDirected env contact senders seat).seat.Backs host ledger := by
  induction senders generalizing seat with
  | nil => exact hb
  | cons sender senders ih =>
    have hsender : host sender = seat.node.id := hosted sender (by simp)
    have hedits : Edits env host seat (seat.removeDirected env sender contact).seat :=
      h.edits_removeDirected hsender contact
    have hid := hedits.sameNode.id
    have hfirst : (seat.removeDirected env sender contact).seat.Backs host ledger :=
      hb.removeDirected h hsender (hgone sender (by simp))
    refine ih (h.edits hedits) hfirst (fun other hmem => ?_) fun other hmem =>
      hgone other (by simp [hmem])
    rw [hid]
    exact hosted other (by simp [hmem])

private theorem Backs.dropAccount (h : seat.Steady host) (hb : seat.Backs host ledger)
    (account contact : Address) :
    (Seat.dropDirected env contact (seat.node.store.senders.filter (·.sameBare account))
      seat).seat.Backs host (ledger.dropAccount contact (·.sameBare account)) := by
  have hdropped : seat.Backs host (ledger.dropAccount contact (·.sameBare account)) :=
    hb.mono fun sender _ => Ledger.dropAccount_subset sender
  refine hdropped.dropDirected h (fun sender hmem =>
    h.hosted_of_mem_senders (List.mem_of_mem_filter hmem)) fun sender hmem pair hpair => ?_
  have hwho : sender.sameBare account = true := (List.mem_filter.mp hmem).2
  rw [Ledger.dropAccount, if_pos hwho, Finset.mem_filter, Bool.not_eq_true'] at hpair
  exact hpair.2

/-! ## Sweeps -/

/-- A sweep costs no pair whose handler is served. -/
theorem Backs.sweep (h : seat.Steady host) (hb : seat.Backs host ledger) :
    (seat.sweep env).seat.Backs host (ledger.reached (seat.services env).routes) := by
  obtain ⟨hid, -, hleft⟩ := h.sweep env fun sender hosted => (hb sender hosted).1
  intro sender hosted
  rw [hid] at hosted
  obtain ⟨hstore, hcache⟩ := hleft sender hosted
  obtain ⟨hcopy, hpairs⟩ := hb sender hosted
  rw [hstore, hcache]
  constructor
  · rcases hcopy with hlost | hcopy
    · exact Or.inl (by rw [hlost, Option.bind_none])
    · exact Or.inr (by rw [hcopy])
  · rw [Registry.pairsOf_bind fun registry hstored =>
      (h.stored sender registry hstored).2.regular.pairsOf_served? _]
    exact Finset.filter_subset_filter _ hpairs

/-! ## Every operation -/

private theorem Backs.deed (h : seat.Steady host) (hb : seat.Backs host ledger)
    {operation : Operation}
    (hosted : ∀ sender, operation.tracked? = some sender → host sender = seat.node.id)
    (hkept : ¬ seat.Overwrites env ledger operation)
    (hdeed : Deed env seat ledger operation seat' ledger') : seat'.Backs host ledger' := by
  cases hdeed with
  | idle => exact hb
  | record delivery delivered =>
    have hsender := hosted _ (Operation.sender_of_delivery? delivered).1
    refine hb.recordPair h hsender delivery.kind delivery.handler delivery.receiver
      fun hkind hlost => ?_
    by_contra hmore
    exact hkept ⟨delivery, delivered, hkind, by rw [h.get, hlost], hmore⟩
  | forget sender => exact hb.forgetting h sender
  | remove owner recipient tracked =>
    have hdropped : seat.Backs host (ledger.dropAccount recipient (· = owner)) :=
      hb.mono fun sender _ => Ledger.dropAccount_subset sender
    refine hdropped.removeDirected h (hosted owner tracked) fun pair hpair => ?_
    rw [Ledger.dropAccount, if_pos (decide_eq_true rfl), Finset.mem_filter, Bool.not_eq_true']
      at hpair
    exact hpair.2
  | drop account contact => exact hb.dropAccount h account contact
  | sweep => exact hb.sweep h

/-- A dispatcher call or a sweep that overwrites nothing costs no pair of the ledger after it. -/
theorem Backs.perform (h : seat.Steady host) (hb : seat.Backs host ledger) {operation : Operation}
    (hkind : operation.isTracking = true)
    (hosted : ∀ sender, operation.tracked? = some sender → host sender = seat.node.id)
    (hkept : ¬ seat.Overwrites env ledger operation) :
    (seat.perform env operation).seat.Backs host
      (ledger.after (seat.services env) seat.node.server operation) :=
  hb.deed h hosted hkept (perform_deed hkind)

/-- What is recorded while the copy is lost is all that the store has afterwards. -/
theorem Steady.stored_noting_of_lost (h : seat.Steady host) {delivery : Delivery}
    (hosted : host delivery.sender = seat.node.id) (hkind : delivery.kind ≠ .unavailable)
    (hlost : seat.get delivery.sender = .ok none) :
    Registry.pairsOf ((seat.noting env (some delivery)).node.store.get? delivery.sender) =
      {delivery.pair} := by
  have hwrite : Rewrites delivery.sender _ _ seat (seat.noting env (some delivery)) :=
    h.rewrites_recordPair hosted hkind delivery.handler delivery.receiver
  rw [h.get] at hlost
  rw [hwrite.store, if_pos rfl, Registry.pairsOf_add, Except.ok.inj hlost]
  rfl

end Seat

end DirectedPresence
