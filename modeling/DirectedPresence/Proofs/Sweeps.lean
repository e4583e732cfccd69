import Mathlib.Algebra.GroupWithZero.Nat
import DirectedPresence.Proofs.RegistryWrites

/-!
What a sweep leaves. A registry is left with the entries whose handler is served somewhere, just as
they are, and goes with the last of them (`Registry.served?`). A sweep does that to what the store
has of each sender and to the cached copy, each for itself, and to nothing else (`Seat.Prunes`); it
counts the entries that go from the store.
-/

namespace DirectedPresence

namespace Registry

/-- Whether the handlers of all entries are served somewhere. -/
def isServed (routes : Routes) (r : Registry) : Bool :=
  r.entries.all (HandlerEntry.isServed routes)

/-- The entries whose handler is served somewhere, if there are any. -/
def served? (routes : Routes) (r : Registry) : Option Registry :=
  orNone ⟨r.entries.filter (HandlerEntry.isServed routes)⟩

/-- The number of entries whose handler is served nowhere. -/
def unserved (routes : Routes) (r : Registry) : Nat :=
  r.entries.countP fun e => !e.isServed routes

variable {r left : Registry} {routes : Routes} {node : NodeId}

theorem unserved_eq_zero_iff : r.unserved routes = 0 ↔ r.isServed routes = true := by
  simp [unserved, isServed]

/-- A retention of the served entries counts the others. -/
theorem count_retain_served :
    (r.retain (HandlerEntry.isServed routes)).2 = r.unserved routes := by
  have hsplit := List.length_eq_countP_add_countP (l := r.entries) (HandlerEntry.isServed routes)
  rw [List.countP_eq_length_filter] at hsplit
  simp only [retain, unserved, decide_not, Bool.decide_eq_true] at hsplit ⊢
  omega

private theorem Proper.served?_eq_self (h : r.Proper node) (hserved : r.isServed routes = true) :
    r.served? routes = some r := by
  have hall : r.entries.filter (HandlerEntry.isServed routes) = r.entries :=
    List.filter_eq_self.mpr (List.all_eq_true.mp hserved)
  rw [served?, hall]
  exact h.orNone

theorem isServed_of_served? (h : r.served? routes = some left) : left.isServed routes = true := by
  obtain ⟨-, hleft⟩ := Option.ite_none_left_eq_some.mp h
  cases hleft
  exact List.all_eq_true.mpr fun e he => (List.mem_filter.mp he).2

theorem Regular.pairsOf_served? (h : r.Regular) (routes : Routes) :
    pairsOf (r.served? routes) = r.pairSet.filter fun pair => routes.reaches pair.1 := by
  have hleft : (r.retain (HandlerEntry.isServed routes)).1.Regular := h.retain _
  exact hleft.pairsOf_orNone.trans (pairSet_retain routes.reaches)

/-- The entries that are not served are as many as their handlers. -/
theorem Regular.unserved_eq_card (h : r.Regular) (routes : Routes) : r.unserved routes =
    ((r.pairSet.filter fun pair => !routes.reaches pair.1).image Prod.fst).card :=
  count_retain_served.symm.trans (h.count_retain routes.reaches)

/-- The services matter only by the handlers that are served. -/
theorem isServed_congr {routes' : Routes}
    (h : ∀ handler, routes'.reaches handler = routes.reaches handler) :
    r.isServed routes' = r.isServed routes :=
  congrArg r.entries.all (funext fun e => h e.handler)

end Registry

namespace Seat

/-- Of these senders the store and the cache kept the served entries, each for itself, and of all
others everything. -/
structure Prunes (routes : Routes) (senders : List Address) (before after : Seat) : Prop where
  id : after.node.id = before.node.id
  store : ∀ other, after.node.store.get? other =
    if other ∈ senders then (before.node.store.get? other).bind (Registry.served? routes)
    else before.node.store.get? other
  cache : ∀ other, after.cached other =
    if other ∈ senders then (before.cached other).bind (Registry.served? routes)
    else before.cached other

variable {host : Address → NodeId} {env : Environment} {seat seat' seat'' : Seat}
  {routes : Routes} {sender : Address} {senders : List Address} {registry : Registry}
  {registries : List (Address × Registry)}

theorem Prunes.nil (seat : Seat) : Prunes routes [] seat seat :=
  ⟨rfl, fun _ => rfl, fun _ => rfl⟩

/-- One more sender was pruned first. -/
theorem Prunes.cons (hfirst : Rewrites sender
      ((seat.node.store.get? sender).bind (Registry.served? routes))
      ((seat.cached sender).bind (Registry.served? routes)) seat seat')
    (hnew : sender ∉ senders) (hrest : Prunes routes senders seat' seat'') :
    Prunes routes (sender :: senders) seat seat'' := by
  have hjoined : ∀ (before : Address → Option Registry) (other : Address),
      (let first := if sender = other then (before sender).bind (Registry.served? routes)
          else before other
        if other ∈ senders then first.bind (Registry.served? routes) else first) =
        if other ∈ sender :: senders then (before other).bind (Registry.served? routes)
        else before other := by
    intro before other
    by_cases heq : sender = other
    · subst heq
      simp [hnew]
    · have hne : other ≠ sender := fun h => heq h.symm
      simp [heq, hne]
  refine ⟨hrest.id.trans hfirst.id, fun other => ?_, fun other => ?_⟩
  · rw [hrest.store, hfirst.store]
    exact hjoined seat.node.store.get? other
  · rw [hrest.cache, hfirst.cache]
    exact hjoined seat.cached other

/-! ## One sender -/

private theorem store_sweepCached (seat : Seat) (env : Environment) (sender : Address) :
    (seat.sweepCached env sender).seat.node.store = seat.node.store := by
  unfold sweepCached
  split
  · rfl
  · rfl
  · simp only
    split
    · rfl
    · simp only [Outcome.seat_map, store_keepOrRemove]

private theorem Steady.cached_sweepCached (h : seat.Steady host)
    (hosted : host sender = seat.node.id) (other : Address) :
    (seat.sweepCached env sender).seat.cached other =
      if sender = other then (seat.cached sender).bind (Registry.served? (seat.services env).routes)
      else seat.cached other := by
  have hkept := (Rewrites.refl seat sender).cache other
  unfold sweepCached
  rw [h.get sender]
  cases hcached : seat.cached sender with
  | none => rwa [hcached] at hkept
  | some registry =>
    simp only [Option.bind_some]
    split
    · next hzero =>
      rw [Registry.count_retain_served, Registry.unserved_eq_zero_iff] at hzero
      rwa [(h.cached_proper hosted hcached).served?_eq_self hzero, ← hcached]
    · exact h.cached_keepOrRemove sender other _

/-- The entries of unserved handlers are dropped from the store and from the cached copy. -/
theorem Steady.rewrites_sweepSender (h : seat.Steady host) (hosted : host sender = seat.node.id) :
    Rewrites sender
      ((seat.node.store.get? sender).bind (Registry.served? (seat.services env).routes))
      ((seat.cached sender).bind (Registry.served? (seat.services env).routes)) seat
      (seat.sweepSender env sender).seat := by
  have hedits : Edits env host seat (seat.sweepSender env sender).seat :=
    h.edits_sweepSender hosted
  have hstore : Edits env host seat _ := h.edits_modify sender
    (·.retain (HandlerEntry.isServed (seat.services env).routes)) fun _ hp hne => hp.retain _ hne
  unfold sweepSender
  simp only [Outcome.seat_andThen]
  refine ⟨(Edits.sameNode hedits).id, fun other => ?_, fun other => ?_⟩
  · simp only [store_sweepCached]
    exact get?_modify seat.node.store sender _ other
  · exact (h.edits hstore).cached_sweepCached hosted other

/-- Where all entries are served there is nothing to prune. -/
theorem rewrites_of_served (h : seat.Steady host)
    (hstored : seat.node.store.get? sender = some registry)
    (hcopy : seat.cached sender = none ∨ seat.cached sender = some registry)
    (hserved : registry.isServed routes = true) :
    Rewrites sender ((seat.node.store.get? sender).bind (Registry.served? routes))
      ((seat.cached sender).bind (Registry.served? routes)) seat seat := by
  have hkept := (h.stored sender registry hstored).2.served?_eq_self hserved
  have hsame := Rewrites.refl seat sender
  rcases hcopy with hlost | hcopy
  · rw [hlost, hstored] at hsame ⊢
    rwa [Option.bind_some, hkept, Option.bind_none]
  · rw [hcopy, hstored] at hsame ⊢
    rwa [Option.bind_some, hkept]

/-- A sweep counts the entries that go from the store. -/
theorem answer_sweepSender_of_stored (env : Environment)
    (hstored : seat.node.store.get? sender = some registry) :
    (seat.sweepSender env sender).answer = registry.unserved (seat.services env).routes := by
  simp only [sweepSender, Outcome.answer_andThen, Store.modify, hstored, Option.getD_some,
    Registry.count_retain_served]

/-- A sweep of one sender leaves those alone that are still to come. -/
theorem Steady.kept_sweepSender (env : Environment) (h : seat.Steady host)
    (hosted : host sender = seat.node.id) (hnew : sender ∉ registries.map Prod.fst)
    (hstored : ∀ p ∈ registries, seat.node.store.get? p.1 = some p.2) :
    ∀ p ∈ registries,
      (seat.sweepSender env sender).seat.node.store.get? p.1 = some p.2 ∧
        (seat.sweepSender env sender).seat.cached p.1 = seat.cached p.1 := by
  have hwrite : Rewrites sender _ _ seat (seat.sweepSender env sender).seat :=
    h.rewrites_sweepSender hosted
  intro p hp
  have hne : sender ≠ p.1 := fun heq => hnew (List.mem_map.mpr ⟨p, hp, heq.symm⟩)
  rw [hwrite.store, hwrite.cache, if_neg hne, if_neg hne]
  exact ⟨hstored p hp, rfl⟩

/-! ## All senders -/

/-- The registries are those of the store, each sender once, and a cached copy is the store's. -/
theorem Steady.sweepEach (env : Environment) (h : seat.Steady host)
    (hdistinct : (registries.map Prod.fst).Nodup)
    (hstored : ∀ p ∈ registries, seat.node.store.get? p.1 = some p.2)
    (hcopies : ∀ p ∈ registries, seat.cached p.1 = none ∨ seat.cached p.1 = some p.2) :
    (Seat.sweepEach env registries seat).answer =
        (registries.map fun p => p.2.unserved (seat.services env).routes).sum ∧
      Prunes (seat.services env).routes (registries.map Prod.fst) seat
        (Seat.sweepEach env registries seat).seat := by
  induction registries generalizing seat with
  | nil => exact ⟨rfl, .nil seat⟩
  | cons p rest ih =>
    obtain ⟨sender, registry⟩ := p
    obtain ⟨hnew, hdistinct⟩ := List.nodup_cons.mp hdistinct
    have hfirst := hstored (sender, registry) (by simp)
    have hcopy := hcopies (sender, registry) (by simp)
    have hhosted := (h.stored sender registry hfirst).1
    rw [Seat.sweepEach]
    cases hserved : registry.entries.all (HandlerEntry.isServed (seat.services env).routes) with
    | true =>
      obtain ⟨hanswer, hprunes⟩ := ih h hdistinct (fun q hq => hstored q (by simp [hq]))
        fun q hq => hcopies q (by simp [hq])
      rw [if_pos rfl, hanswer]
      refine ⟨?_, .cons (rewrites_of_served h hfirst hcopy hserved) hnew hprunes⟩
      simp [Registry.unserved_eq_zero_iff.mpr hserved]
    | false =>
      have hwrite : Rewrites sender _ _ seat (seat.sweepSender env sender).seat :=
        h.rewrites_sweepSender hhosted
      have hedits : Edits env host seat (seat.sweepSender env sender).seat :=
        h.edits_sweepSender hhosted
      have hkept := h.kept_sweepSender env hhosted hnew fun q hq => hstored q (by simp [hq])
      obtain ⟨hanswer, hprunes⟩ := ih (h.edits hedits) hdistinct (fun q hq => (hkept q hq).1)
        fun q hq => by
          rw [(hkept q hq).2]
          exact hcopies q (by simp [hq])
      rw [Seat.services, hwrite.id] at hanswer hprunes
      rw [if_neg Bool.false_ne_true]
      refine ⟨?_, .cons hwrite hnew hprunes⟩
      rw [Outcome.answer_andThen, Outcome.answer_map, answer_sweepSender_of_stored env hfirst,
        hanswer]
      simp [Seat.services]

/-- A sweep leaves of every sender what is served of its store's registry and of its cached copy. -/
theorem Steady.sweep (env : Environment) (h : seat.Steady host)
    (hcopies : ∀ sender, host sender = seat.node.id →
      seat.cached sender = none ∨ seat.cached sender = seat.node.store.get? sender) :
    (seat.sweep env).seat.node.id = seat.node.id ∧
      (seat.sweep env).answer =
        (seat.node.store.toList.map fun p => p.2.unserved (seat.services env).routes).sum ∧
      ∀ sender, host sender = seat.node.id →
        (seat.sweep env).seat.node.store.get? sender =
            (seat.node.store.get? sender).bind (Registry.served? (seat.services env).routes) ∧
          (seat.sweep env).seat.cached sender =
            (seat.cached sender).bind (Registry.served? (seat.services env).routes) := by
  have hstored : ∀ p ∈ seat.node.store.toList, seat.node.store.get? p.1 = some p.2 :=
    fun p hp => Store.mem_toList_iff.mp hp
  obtain ⟨hanswer, hprunes⟩ := h.sweepEach env seat.node.store.nodup_toList hstored
    fun p hp => by
      rw [← hstored p hp]
      exact hcopies p.1 (h.hosted_of_mem_toList hp).1
  refine ⟨hprunes.id, hanswer, fun sender hosted => ?_⟩
  by_cases hlisted : sender ∈ seat.node.store.toList.map Prod.fst
  · exact ⟨(hprunes.store sender).trans (if_pos hlisted),
      (hprunes.cache sender).trans (if_pos hlisted)⟩
  · have hnone : seat.node.store.get? sender = none := by
      rw [Option.eq_none_iff_forall_not_mem]
      exact fun registry hstored =>
        hlisted (List.mem_map.mpr ⟨_, Store.mem_toList_iff.mpr hstored, rfl⟩)
    have hlost : seat.cached sender = none := by
      rcases hcopies sender hosted with hlost | hcopy
      · exact hlost
      · rw [hcopy, hnone]
    refine ⟨(hprunes.store sender).trans ?_, (hprunes.cache sender).trans ?_⟩
    · rw [if_neg hlisted, hnone, Option.bind_none]
    · rw [if_neg hlisted, hlost, Option.bind_none]

end Seat

end DirectedPresence
