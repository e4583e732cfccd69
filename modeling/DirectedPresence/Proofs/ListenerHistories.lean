import Mathlib.Data.List.Forall2
import Mathlib.Data.List.Nodup
import DirectedPresence.Proofs.ListenerTables

/-!
Tables of listeners, over whole histories. Listeners are registered with a table and events are
dispatched through it in any order (`Listeners.run`), and any call of a listener may be refused. A
dispatch works on the registrations as they are, and drops those that refused it by their numbers
afterwards. As the numbers go up along the table (`Listeners.InOrder`), it never drops another one:
a registration is called for each event after it, once, until it refuses one, whatever the others do
(`Listeners.faithful_run`).
-/

namespace DirectedPresence

/-- What is done with a table of listeners. -/
inductive TableAct (L : Type) where
  | register (listener : L) (includesValues : Bool)
  | dispatch (event : CacheEvent)
deriving DecidableEq

namespace TableAct

variable {L : Type}

def events : List (TableAct L) → List CacheEvent
  | [] => []
  | .register .. :: acts => events acts
  | .dispatch event :: acts => event :: events acts

/-- The registrations that are made, in order, if this is the number of the first one. -/
def made (first : Nat) : List (TableAct L) → List (Registration L)
  | [] => []
  | .register listener includesValues :: acts =>
    ⟨first, listener, includesValues⟩ :: made (first + 1) acts
  | .dispatch _ :: acts => made first acts

end TableAct

open TableAct

namespace CacheEvent

def mapValues (f : Option Registry → Option Registry) : CacheEvent → CacheEvent
  | added key value node => added key (f value) node
  | updated key old new node => updated key (f old) (f new) node
  | removed key old node => removed key (f old) node
  | evicted key old node => evicted key (f old) node
  | mapEvicted node => mapEvicted node
  | mapCleared node => mapCleared node

end CacheEvent

namespace Registration

variable {L : Type}

/-- A registration gets every event as it is, but for the values if it is without them. -/
theorem view_eq_mapValues (r : Registration L) (event : CacheEvent) :
    r.view event = event.mapValues fun value => if r.includesValues then value else none := by
  cases hvalues : r.includesValues <;> cases event <;>
    simp [view, hvalues, CacheEvent.withoutValues, CacheEvent.mapValues]

/-- What a registration hears, event by event: each one as the registration gets it, up to the first
that it refuses, and nothing of those after that. -/
inductive Delivered (r : Registration L) : List CacheEvent → List (List (Hearing L)) → Prop
  | nil : Delivered r [] []
  | accepted {event : CacheEvent} {events : List CacheEvent} {share : List (List (Hearing L))} :
      Delivered r events share →
      Delivered r (event :: events) ([⟨r, r.view event, none⟩] :: share)
  | refused {event : CacheEvent} {events : List CacheEvent} (refusal : ListenerError) :
      Delivered r (event :: events)
        ([⟨r, r.view event, some refusal⟩] :: List.replicate events.length [])

def refused (r : Registration L) (hearings : List (Hearing L)) : Bool :=
  (hearings.filter (·.registration.id = r.id)).any (·.refusal.isSome)

@[simp] theorem refused_nil (r : Registration L) : r.refused [] = false := rfl

@[simp] theorem refused_append (r : Registration L) (hearings more : List (Hearing L)) :
    r.refused (hearings ++ more) = (r.refused hearings || r.refused more) := by
  simp [refused]

end Registration

/-- What of each event is heard by the registration with this number. -/
def sharesOf {L : Type} (id : Nat) (log : List (List (Hearing L))) : List (List (Hearing L)) :=
  log.map fun hearings => hearings.filter (·.registration.id = id)

/-- The hearings are the calls of the listeners, one after another, with their answers. -/
inductive Called {L σ : Type} (react : Reaction L σ) : σ → List (Hearing L) → σ → Prop
  | nil {world : σ} : Called react world [] world
  | cons {world next last : σ} {hearing : Hearing L} {hearings : List (Hearing L)} :
      react hearing.registration.listener hearing.event world = (next, hearing.refusal) →
      Called react next hearings last → Called react world (hearing :: hearings) last

theorem Called.append {L σ : Type} {react : Reaction L σ} {world next last : σ}
    {hearings more : List (Hearing L)} (h : Called react world hearings next)
    (hmore : Called react next more last) : Called react world (hearings ++ more) last := by
  induction h with
  | nil => exact hmore
  | cons hcall _ ih => exact .cons hcall (ih hmore)

@[simp] theorem sharesOf_cons {L : Type} (id : Nat) (hearings : List (Hearing L))
    (log : List (List (Hearing L))) : sharesOf id (hearings :: log) =
      hearings.filter (·.registration.id = id) :: sharesOf id log := rfl

@[simp] theorem sharesOf_append {L : Type} (id : Nat) (log more : List (List (Hearing L))) :
    sharesOf id (log ++ more) = sharesOf id log ++ sharesOf id more :=
  List.map_append

namespace Listeners

variable {L σ : Type} {t : Listeners L} {r : Registration L} {react : Reaction L σ} {world : σ}
  {acts : List (TableAct L)} {id : Nat}

/-- What comes of several acts, one after another, and what the listeners heard of each event. -/
def run (react : Reaction L σ) :
    Listeners L → List (TableAct L) → σ → Listeners L × σ × List (List (Hearing L))
  | t, [], world => (t, world, [])
  | t, .register listener includesValues :: acts, world =>
    run react (t.add listener includesValues) acts world
  | t, .dispatch event :: acts, world =>
    let (t, world, hearings) := t.dispatch react event world
    let (t, world, log) := run react t acts world
    (t, world, hearings :: log)

/-- The registrations are in the order of their numbers. -/
structure InOrder (t : Listeners L) : Prop extends t.Tidy where
  sorted : (t.registrations.map (·.id)).Pairwise (· < ·)

private theorem inOrder_empty : (empty : Listeners L).InOrder :=
  ⟨tidy_empty, List.Pairwise.nil⟩

private theorem InOrder.add (h : t.InOrder) (listener : L) (includesValues : Bool) :
    (t.add listener includesValues).InOrder := by
  refine ⟨h.toTidy.add listener includesValues, ?_⟩
  simp only [Listeners.add, List.map_append, List.pairwise_append]
  refine ⟨h.sorted, List.pairwise_singleton _ _, ?_⟩
  intro id hid other hother
  obtain ⟨r, hr, rfl⟩ := List.mem_map.mp hid
  rw [List.mem_singleton.mp hother]
  exact h.lt_nextId r hr

private theorem InOrder.dispatch (h : t.InOrder) (event : CacheEvent) (world : σ) :
    (t.dispatch react event world).1.InOrder :=
  ⟨h.toTidy.dispatch react event world,
    h.sorted.sublist ((sublist_dispatch react event world).map _)⟩

/-! ## One event -/

private theorem called_deliver (react : Reaction L σ) (event : CacheEvent)
    (registrations : List (Registration L)) (world : σ) :
    Called react world (deliver react event registrations world).2
      (deliver react event registrations world).1 := by
  induction registrations generalizing world with
  | nil => exact .nil
  | cons r rs ih => exact .cons rfl (ih _)

/-- Those who refuse an event are dropped, and no one else. -/
theorem registrations_dispatch (react : Reaction L σ) (t : Listeners L) (event : CacheEvent)
    (world : σ) : (t.dispatch react event world).1.registrations =
      t.registrations.filter fun r => !r.refused (t.dispatch react event world).2.2 := by
  refine List.filter_congr fun r _ => ?_
  rw [Registration.refused, List.any_filter, List.not_any_eq_all_not, Bool.eq_iff_iff]
  simp only [decide_eq_true_eq, List.mem_map, List.mem_filter, not_exists, not_and, and_imp,
    List.all_eq_true, Bool.not_eq_true', Bool.and_eq_false_iff, decide_eq_false_iff_not]
  refine forall₂_congr fun hearing _ => ?_
  cases hearing.refusal <;> simp

/-- Whoever hears an event is registered, and hears it as it gets it. -/
theorem registration_of_mem_dispatch {event : CacheEvent} {hearing : Hearing L}
    (hmem : hearing ∈ (t.dispatch react event world).2.2) :
    hearing.registration ∈ t.registrations := by
  rw [← map_registration_deliver react event world t.registrations]
  exact List.mem_map_of_mem hmem

/-- A registration hears an event once, and stays if it does not refuse it. -/
theorem Tidy.exists_hearing (h : t.Tidy) (hmem : r ∈ t.registrations) (react : Reaction L σ)
    (event : CacheEvent) (world : σ) : ∃ refusal,
      (t.dispatch react event world).2.2.filter (·.registration.id = r.id) =
        [⟨r, r.view event, refusal⟩] ∧
      (r ∈ (t.dispatch react event world).1.registrations ↔ refusal = none) := by
  have hregistrations := map_registration_deliver react event world t.registrations
  have hids : ((t.dispatch react event world).2.2.map (·.registration.id)).Nodup := by
    have hnodup := h.nodup
    rw [← hregistrations, List.map_map] at hnodup
    exact hnodup
  obtain ⟨hearing, hheard, heq⟩ := List.mem_map.mp (hregistrations ▸ hmem)
  have honly : ∀ other ∈ (t.dispatch react event world).2.2,
      other.registration.id = r.id ↔ other = hearing := by
    intro other hother
    constructor
    · exact fun hid => List.inj_on_of_nodup_map hids hother hheard (heq ▸ hid)
    · rintro rfl
      rw [heq]
  have hself : hearing = ⟨r, r.view event, hearing.refusal⟩ := by
    rw [← heq, ← event_of_mem_deliver hheard]
  have hshare : (t.dispatch react event world).2.2.filter (·.registration.id = r.id) =
      [⟨r, r.view event, hearing.refusal⟩] := by
    rw [← hself, ← List.perm_singleton]
    refine (List.perm_ext_iff_of_nodup (hids.of_map.filter _) (List.nodup_singleton _)).mpr ?_
    intro other
    rw [List.mem_filter, decide_eq_true_eq, List.mem_singleton]
    constructor
    · exact fun hother => (honly other hother.1).mp hother.2
    · rintro rfl
      exact ⟨hheard, (honly other hheard).mpr rfl⟩
  refine ⟨hearing.refusal, hshare, ?_⟩
  rw [registrations_dispatch, List.mem_filter, Registration.refused, hshare]
  simp [hmem]

/-- A number that is not in the table is not heard. -/
theorem filter_dispatch_of_absent (habsent : ∀ r ∈ t.registrations, r.id ≠ id)
    (react : Reaction L σ) (event : CacheEvent) (world : σ) :
    (t.dispatch react event world).2.2.filter (·.registration.id = id) = [] := by
  refine List.filter_eq_nil_iff.mpr fun hearing hheard => ?_
  rw [decide_eq_true_eq]
  exact habsent _ (registration_of_mem_dispatch hheard)

/-! ## Histories -/

private theorem run_append (react : Reaction L σ) (t : Listeners L)
    (before after : List (TableAct L)) (world : σ) :
    t.run react (before ++ after) world =
      let first := t.run react before world
      let second := first.1.run react after first.2.1
      (second.1, second.2.1, first.2.2 ++ second.2.2) := by
  induction before generalizing t world with
  | nil => rfl
  | cons act before ih =>
    cases act with
    | register listener includesValues => exact ih _ _
    | dispatch event => simp only [List.cons_append, run, ih]

private theorem log_run_dispatch (react : Reaction L σ) (t : Listeners L) (event : CacheEvent)
    (acts : List (TableAct L)) (world : σ) :
    (t.run react (.dispatch event :: acts) world).2.2 =
      (t.dispatch react event world).2.2 ::
        ((t.dispatch react event world).1.run react acts (t.dispatch react event world).2.1).2.2 :=
  rfl

private theorem InOrder.run (h : t.InOrder) (react : Reaction L σ) (acts : List (TableAct L))
    (world : σ) : (t.run react acts world).1.InOrder := by
  induction acts generalizing t world with
  | nil => exact h
  | cons act acts ih =>
    cases act with
    | register listener includesValues => exact ih (h.add listener includesValues) world
    | dispatch event => exact ih (h.dispatch event world) _

/-- The numbers are given out one after another. -/
theorem nextId_run (react : Reaction L σ) (t : Listeners L) (acts : List (TableAct L))
    (world : σ) :
    (t.run react acts world).1.nextId = t.nextId + (made t.nextId acts).length := by
  induction acts generalizing t world with
  | nil => rfl
  | cons act acts ih =>
    cases act with
    | register listener includesValues =>
      have hrest := ih (t.add listener includesValues) world
      simp only [run, made, List.length_cons]
      rw [hrest]
      simp only [Listeners.add]
      omega
    | dispatch event => exact ih (t.dispatch react event world).1 _

private theorem length_run (react : Reaction L σ) (t : Listeners L) (acts : List (TableAct L))
    (world : σ) : (t.run react acts world).2.2.length = (events acts).length := by
  induction acts generalizing t world with
  | nil => rfl
  | cons act acts ih =>
    cases act with
    | register listener includesValues => exact ih _ _
    | dispatch event => exact congrArg (· + 1) (ih _ _)

/-- Whoever hears an event is registered before it. -/
theorem registration_of_mem_run {hearings : List (Hearing L)} {hearing : Hearing L}
    (hlog : hearings ∈ (t.run react acts world).2.2) (hmem : hearing ∈ hearings) :
    hearing.registration ∈ t.registrations ++ made t.nextId acts := by
  induction acts generalizing t world with
  | nil => cases hlog
  | cons act acts ih =>
    cases act with
    | register listener includesValues =>
      have hrest := ih hlog
      rw [Listeners.add, List.append_assoc] at hrest
      exact hrest
    | dispatch event =>
      rcases List.mem_cons.mp hlog with rfl | hlog
      · exact List.mem_append_left _ (registration_of_mem_dispatch hmem)
      · rcases List.mem_append.mp (ih hlog) with hkept | hnew
        · exact List.mem_append_left _ ((sublist_dispatch react event world).subset hkept)
        · exact List.mem_append_right _ hnew

/-- A number that is not given out again hears nothing if it is not in the table. -/
theorem sharesOf_run_of_absent
    (habsent : ∀ r ∈ t.registrations ++ made t.nextId acts, r.id ≠ id) :
    sharesOf id (t.run react acts world).2.2 = List.replicate (events acts).length [] := by
  refine List.eq_replicate_iff.mpr ⟨by rw [sharesOf, List.length_map, length_run], ?_⟩
  intro share hshare
  obtain ⟨hearings, hlog, rfl⟩ := List.mem_map.mp hshare
  refine List.filter_eq_nil_iff.mpr fun hearing hmem => ?_
  rw [decide_eq_true_eq]
  exact habsent _ (registration_of_mem_run hlog hmem)

private theorem id_of_mem_made {first : Nat} (hmem : r ∈ made first acts) :
    first ≤ r.id ∧ r.id < first + (made first acts).length := by
  induction acts generalizing first with
  | nil => cases hmem
  | cons act acts ih =>
    cases act with
    | register listener includesValues =>
      rw [made, List.length_cons]
      rcases List.mem_cons.mp hmem with rfl | hrest
      · exact ⟨Nat.le_refl _, Nat.lt_add_of_pos_right (Nat.succ_pos _)⟩
      · have hbounds := ih hrest
        omega
    | dispatch event => exact ih hmem

/-- A registration hears one event after another until it refuses one. -/
theorem InOrder.delivered (h : t.InOrder) (hmem : r ∈ t.registrations) (react : Reaction L σ)
    (acts : List (TableAct L)) (world : σ) :
    r.Delivered (events acts) (sharesOf r.id (t.run react acts world).2.2) := by
  induction acts generalizing t world with
  | nil => exact .nil
  | cons act acts ih =>
    cases act with
    | register listener includesValues =>
      exact ih (h.add listener includesValues) (List.mem_append_left _ hmem) world
    | dispatch event =>
      obtain ⟨refusal, hshare, hstays⟩ := h.exists_hearing hmem react event world
      rw [events, log_run_dispatch, sharesOf_cons, hshare]
      cases refusal with
      | none => exact .accepted (ih (h.dispatch event world) (hstays.mpr rfl) _)
      | some refusal =>
        -- Its number is neither in the table any more nor given out again.
        have habsent : ∀ other ∈ (t.dispatch react event world).1.registrations ++
            made t.nextId acts, other.id ≠ r.id := by
          intro other hother hid
          rcases List.mem_append.mp hother with hkept | hnew
          · have hsame : other = r :=
              List.inj_on_of_nodup_map h.nodup
                ((sublist_dispatch react event world).subset hkept) hmem hid
            exact absurd (hstays.mp (hsame ▸ hkept)) (by simp)
          · have hfresh := (id_of_mem_made hnew).1
            have hold := h.lt_nextId r hmem
            omega
        rw [sharesOf_run_of_absent habsent]
        exact .refused refusal

/-- In the table are all that have been registered but for those that refused an event. -/
theorem InOrder.registrations_run (h : t.InOrder) (react : Reaction L σ)
    (acts : List (TableAct L)) (world : σ) :
    (t.run react acts world).1.registrations =
      (t.registrations ++ made t.nextId acts).filter
        fun r => !r.refused (t.run react acts world).2.2.flatten := by
  induction acts generalizing t world with
  | nil => simp [made, show t.run react [] world = (t, world, []) from rfl]
  | cons act acts ih =>
    cases act with
    | register listener includesValues =>
      have hrest := ih (h.add listener includesValues) world
      rw [Listeners.add, List.append_assoc] at hrest
      exact hrest
    | dispatch event =>
      have hnew : ∀ r ∈ made t.nextId acts,
          r.refused (t.dispatch react event world).2.2 = false := by
        intro r hmem
        have habsent : ∀ other ∈ t.registrations, other.id ≠ r.id := fun other hother =>
          Nat.ne_of_lt (Nat.lt_of_lt_of_le (h.lt_nextId other hother) (id_of_mem_made hmem).1)
        rw [Registration.refused, filter_dispatch_of_absent habsent, List.any_nil]
      refine (ih (h.dispatch event world) (t.dispatch react event world).2.1).trans ?_
      rw [log_run_dispatch, List.flatten_cons, registrations_dispatch, List.filter_append,
        List.filter_append, List.filter_filter]
      refine congrArg₂ (· ++ ·) (List.filter_congr fun r _ => ?_)
        (List.filter_congr fun r hmem => ?_)
      · rw [Registration.refused_append, Bool.not_or, Bool.and_comm]
      · rw [Registration.refused_append, hnew r hmem, Bool.false_or]

/-- What the listeners heard are the calls that were made of them. -/
theorem called_run (react : Reaction L σ) (t : Listeners L) (acts : List (TableAct L)) (world : σ) :
    Called react world (t.run react acts world).2.2.flatten (t.run react acts world).2.1 := by
  induction acts generalizing t world with
  | nil => exact .nil
  | cons act acts ih =>
    cases act with
    | register listener includesValues => exact ih _ _
    | dispatch event => exact (called_deliver react event t.registrations world).append (ih _ _)

/-- Every event is heard in the order of registration. -/
theorem InOrder.sorted_run (h : t.InOrder) {hearings : List (Hearing L)}
    (hlog : hearings ∈ (t.run react acts world).2.2) :
    (hearings.map (·.registration.id)).Pairwise (· < ·) := by
  induction acts generalizing t world with
  | nil => cases hlog
  | cons act acts ih =>
    cases act with
    | register listener includesValues => exact ih (h.add listener includesValues) hlog
    | dispatch event =>
      rcases List.mem_cons.mp hlog with rfl | hlog
      · have hsorted := h.sorted
        rw [← map_registration_deliver react event world t.registrations, List.map_map] at hsorted
        exact hsorted
      · exact ih (h.dispatch event world) hlog

/-- What a table of listeners has to do, given what was done with it, the world before it and after
it, and what the listeners heard of each event. -/
structure Faithful (react : Reaction L σ) (acts : List (TableAct L)) (world : σ) (t : Listeners L)
    (last : σ) (log : List (List (Hearing L))) : Prop where
  /-- Something is heard where an event is dispatched, if at all. -/
  length : log.length = (events acts).length
  /-- What is heard are the calls of the listeners, in this order. -/
  called : Called react world log.flatten last
  /-- Only registrations hear something, each event in the order in which they were made. -/
  sorted : ∀ hearings ∈ log, (∀ hearing ∈ hearings, hearing.registration ∈ made 0 acts) ∧
    (hearings.map (·.registration.id)).Pairwise (· < ·)
  /-- A registration hears nothing of what was dispatched before it, and of what is dispatched after
  it each event once, up to the first that it refuses. -/
  delivered : ∀ (before after : List (TableAct L)) (listener : L) (includesValues : Bool),
    acts = before ++ .register listener includesValues :: after →
      ∃ share, sharesOf (made 0 before).length log =
          List.replicate (events before).length [] ++ share ∧
        Registration.Delivered ⟨(made 0 before).length, listener, includesValues⟩ (events after)
          share
  /-- Those that refused nothing are left. -/
  left : t.registrations = (made 0 acts).filter fun r => !r.refused log.flatten
  size : t.size = (made 0 acts).countP fun r => !r.refused log.flatten

/-- Whatever is done with a table, and whatever the listeners refuse: a listener that fails hurts
only itself. A registration without values hears what it would hear with them, less the values. -/
theorem faithful_run (react : Reaction L σ) (acts : List (TableAct L)) (world : σ) :
    (Faithful react acts world (run react empty acts world).1 (run react empty acts world).2.1
        (run react empty acts world).2.2) ∧
      ∀ (r : Registration L) (event : CacheEvent),
        r.view event = event.mapValues fun value => if r.includesValues then value else none := by
  have hleft := inOrder_empty.registrations_run react acts world
  refine ⟨⟨length_run react empty acts world, called_run react empty acts world, ?_, ?_, hleft, ?_⟩,
    Registration.view_eq_mapValues⟩
  · exact fun hearings hlog => ⟨fun hearing hmem => registration_of_mem_run hlog hmem,
      inOrder_empty.sorted_run hlog⟩
  · rintro before after listener includesValues rfl
    have hid : (run react empty before world).1.nextId = (made 0 before).length :=
      (nextId_run react empty before world).trans (Nat.zero_add _)
    have hbefore : ∀ r ∈ made 0 before, r.id ≠ (made 0 before).length := by
      intro r hmem
      have hbounds := id_of_mem_made hmem
      omega
    have hadded := (inOrder_empty.run react before world).add listener includesValues
    have hshare := hadded.delivered (List.mem_append_right _ List.mem_cons_self) react after
      (run react empty before world).2.1
    rw [hid] at hshare
    refine ⟨_, ?_, hshare⟩
    rw [run_append, sharesOf_append, sharesOf_run_of_absent hbefore]
    rfl
  · rw [size, hleft, List.countP_eq_length_filter]
    rfl

/-- One listener has three registrations and fails at its second call: the second registration goes,
and the others hear the next event too. -/
example :
    let refusal : ListenerError := .missingValue (.ofDomain "example.org") ⟨"one"⟩
    let failing : Reaction Unit Nat := fun _ _ calls =>
      (calls + 1, if calls = 1 then some refusal else none)
    let outcome := run failing empty [.register () true, .register () true, .register () false,
      .dispatch (.mapCleared ⟨"one"⟩), .dispatch (.mapEvicted ⟨"two"⟩)] 0
    outcome.1.registrations.map (·.id) = [0, 2] ∧
      outcome.2.2.map (·.map (·.registration.id)) = [[0, 1, 2], [0, 2]] := by
  decide

end Listeners

end DirectedPresence
