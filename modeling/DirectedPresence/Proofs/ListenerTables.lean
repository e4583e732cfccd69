import Mathlib.Data.List.Nodup
import DirectedPresence.Proofs.CacheCalls

/-!
What a listener hears. A table of listeners is tidy: its registrations have different numbers. So a
listener that refuses nothing stays registered whatever others refuse. If one of certain listeners
is registered with values at one member of a hub, and none at any other (`Hub.Attends`), that
member's registration hears every act on the hub that gives rise to an event, once, unless the event
is in the name of the member itself (`Hub.Attends.heard_perform`).
-/

namespace DirectedPresence

/-- The events that certain listeners heard. -/
def heard {L : Type} (mine : L → Bool) (hearings : List (Hearing L)) : List CacheEvent :=
  (hearings.filter fun hearing => mine hearing.registration.listener).map (·.event)

section Heard

variable {L σ : Type} {mine : L → Bool}

@[simp] theorem heard_nil : heard mine ([] : List (Hearing L)) = [] := rfl

@[simp] theorem heard_append (hearings more : List (Hearing L)) :
    heard mine (hearings ++ more) = heard mine hearings ++ heard mine more := by
  simp [heard]

end Heard

/-! ## Tables of listeners -/

namespace Listeners

variable {L σ : Type} {mine : L → Bool} {t : Listeners L}

/-- The registrations have different numbers, all of which have been given out. -/
structure Tidy (t : Listeners L) : Prop where
  nodup : (t.registrations.map (·.id)).Nodup
  lt_nextId : ∀ r ∈ t.registrations, r.id < t.nextId

def Without (mine : L → Bool) (t : Listeners L) : Prop :=
  ∀ r ∈ t.registrations, mine r.listener = false

/-- Of certain listeners one is registered, once, and gets the values. -/
def Single (mine : L → Bool) (t : Listeners L) : Prop :=
  ∃ r, t.registrations.filter (fun r => mine r.listener) = [r] ∧ r.includesValues = true

/-- None of certain listeners refuses the event. -/
def Keen (mine : L → Bool) (react : Reaction L σ) (event : CacheEvent) : Prop :=
  ∀ listener world, mine listener = true → (react listener event world).2 = none

theorem tidy_empty : (empty : Listeners L).Tidy :=
  ⟨List.nodup_nil, fun r hmem => by simp [empty] at hmem⟩

theorem without_empty : (empty : Listeners L).Without mine :=
  fun r hmem => by simp [empty] at hmem

theorem Tidy.add (h : t.Tidy) (listener : L) (includesValues : Bool) :
    (t.add listener includesValues).Tidy := by
  constructor
  · simp only [Listeners.add, List.map_append, List.map_cons, List.map_nil]
    rw [List.nodup_append]
    refine ⟨h.nodup, List.nodup_singleton _, ?_⟩
    intro id hid other hother
    obtain ⟨r, hr, rfl⟩ := List.mem_map.mp hid
    rw [List.mem_singleton.mp hother]
    exact Nat.ne_of_lt (h.lt_nextId r hr)
  · intro r hmem
    rcases List.mem_append.mp hmem with hold | hnew
    · exact Nat.lt_succ_of_lt (h.lt_nextId r hold)
    · rw [List.mem_singleton.mp hnew]
      exact Nat.lt_succ_self _

theorem Without.add (h : t.Without mine) {listener : L} (hother : mine listener = false)
    (includesValues : Bool) : (t.add listener includesValues).Without mine := by
  intro r hmem
  rcases List.mem_append.mp hmem with hold | hnew
  · exact h r hold
  · rw [List.mem_singleton.mp hnew]
    exact hother

theorem Without.single_add (h : t.Without mine) {listener : L} (hmine : mine listener = true) :
    (t.add listener true).Single mine := by
  refine ⟨⟨t.nextId, listener, true⟩, ?_, rfl⟩
  have hnone : t.registrations.filter (fun r => mine r.listener) = [] := by
    rw [List.filter_eq_nil_iff]
    intro r hmem
    simp [h r hmem]
  simp [Listeners.add, List.filter_append, hnone, hmine]

theorem Single.add (h : t.Single mine) {listener : L} (hother : mine listener = false)
    (includesValues : Bool) : (t.add listener includesValues).Single mine := by
  obtain ⟨r, hr, hvalues⟩ := h
  exact ⟨r, by simp [Listeners.add, List.filter_append, hr, hother], hvalues⟩

variable (react : Reaction L σ) (event : CacheEvent) (world : σ)

/-- An event is delivered to the registrations in their order. -/
theorem map_registration_deliver (registrations : List (Registration L)) :
    (deliver react event registrations world).2.map (·.registration) = registrations := by
  induction registrations generalizing world with
  | nil => rfl
  | cons r rs ih => exact congrArg (r :: ·) (ih _)

theorem event_of_mem_deliver {react : Reaction L σ} {event : CacheEvent} {world : σ}
    {registrations : List (Registration L)} {hearing : Hearing L}
    (hmem : hearing ∈ (deliver react event registrations world).2) :
    hearing.event = hearing.registration.view event := by
  induction registrations generalizing world with
  | nil => cases hmem
  | cons r rs ih =>
    rcases List.mem_cons.mp hmem with rfl | hrest
    · rfl
    · exact ih hrest

/-- Every registration hears the event as it gets it. -/
theorem heard_deliver (registrations : List (Registration L)) :
    heard mine (deliver react event registrations world).2 =
      (registrations.filter fun r => mine r.listener).map (·.view event) := by
  induction registrations generalizing world with
  | nil => rfl
  | cons r rs ih =>
    have hrest := ih (react r.listener (r.view event) world).1
    simp only [heard] at hrest
    cases hmine : mine r.listener <;> simp [deliver, heard, hmine, hrest]

theorem heard_dispatch (mine : L → Bool) (t : Listeners L) :
    heard mine (t.dispatch react event world).2.2 =
      (t.registrations.filter fun r => mine r.listener).map (·.view event) :=
  heard_deliver react event world t.registrations

theorem sublist_dispatch :
    (t.dispatch react event world).1.registrations.Sublist t.registrations :=
  List.filter_sublist

theorem Tidy.dispatch (h : t.Tidy) : (t.dispatch react event world).1.Tidy :=
  ⟨h.nodup.sublist ((sublist_dispatch react event world).map _),
    fun r hmem => h.lt_nextId r ((sublist_dispatch react event world).subset hmem)⟩

theorem Without.dispatch (h : t.Without mine) : (t.dispatch react event world).1.Without mine :=
  fun r hmem => h r ((sublist_dispatch react event world).subset hmem)

/-- Whoever refuses an event refused it in some world. -/
theorem exists_refusal {registrations : List (Registration L)} {hearing : Hearing L}
    (hmem : hearing ∈ (deliver react event registrations world).2) :
    hearing.registration ∈ registrations ∧ ∃ before,
      (react hearing.registration.listener (hearing.registration.view event) before).2 =
        hearing.refusal := by
  induction registrations generalizing world with
  | nil => simp [deliver] at hmem
  | cons r rs ih =>
    simp only [deliver, List.mem_cons] at hmem
    rcases hmem with rfl | hrest
    · exact ⟨List.mem_cons_self, world, rfl⟩
    · obtain ⟨hregistered, hrefusal⟩ := ih _ hrest
      exact ⟨List.mem_cons_of_mem _ hregistered, hrefusal⟩

/-- A listener that does not refuse the event stays registered. -/
theorem Single.dispatch (h : t.Single mine) (htidy : t.Tidy)
    (hkeen : Keen mine react event) : (t.dispatch react event world).1.Single mine := by
  obtain ⟨r, hr, hvalues⟩ := h
  refine ⟨r, ?_, hvalues⟩
  have hmem : r ∈ t.registrations ∧ mine r.listener = true := by
    have hself : r ∈ t.registrations.filter fun r => mine r.listener := by simp [hr]
    simpa using hself
  have hstays : ∀ hearing ∈ (deliver react event t.registrations world).2,
      hearing.refusal.isSome → hearing.registration.id ≠ r.id := by
    intro hearing hheard hrefused hsame
    obtain ⟨hregistered, before, hrefusal⟩ := exists_refusal react event world hheard
    have heq : hearing.registration = r :=
      List.inj_on_of_nodup_map htidy.nodup hregistered hmem.1 hsame
    rw [heq, Registration.view, if_pos hvalues, hkeen _ before hmem.2] at hrefusal
    simp [← hrefusal] at hrefused
  simp only [Listeners.dispatch]
  rw [List.filter_comm, hr, List.filter_cons_of_pos, List.filter_nil]
  simpa using hstays

end Listeners

/-! ## The tables of a hub -/

namespace HubAct

variable {L : Type}

def listener? : HubAct L → Option L
  | .listen _ listener _ => some listener
  | _ => none

/-- The node that joins or leaves by an act. -/
def mover? : HubAct L → Option NodeId
  | .join node | .leave node => some node
  | _ => none

/-- Whether an act lets the node neither join nor leave and registers none of certain listeners. -/
def Spares (mine : L → Bool) (node : NodeId) (act : HubAct L) : Prop :=
  act.mover? ≠ some node ∧ ∀ listener ∈ act.listener?, mine listener = false

/-- The event of an act as far as a node learns of it: those in its own name it is not told. -/
def news (node : NodeId) (contents : Contents) (act : HubAct L) : Option CacheEvent :=
  (act.event? contents).filter fun event => event.node ≠ node

/-- A node learns of the calls of others. -/
theorem news_call (node : NodeId) (contents : Contents) (view : View) (request : CacheCall) :
    (call (L := L) view request).news node contents =
      if view.node = node then none else request.event? view.node contents.registries := by
  rw [news, event?]
  cases hevent : request.event? view.node contents.registries with
  | none => simp
  | some event => simp [Option.filter, CacheCall.node_event? hevent]

/-- What an act does to the tables of listeners by itself keeps a property of them. -/
def Keeps (P : NodeId → Listeners L → Prop) : HubAct L → Prop
  | .join node => P node .empty
  | .listen view listener includesValues =>
    ∀ t, P view.node t → P view.node (t.add listener includesValues)
  | _ => True

end HubAct

namespace Hub

variable {L σ : Type} {mine : L → Bool} {hub : Hub L} {node : NodeId} {contents : Contents}
  {P : NodeId → Listeners L → Prop} (react : Reaction L σ) (event : CacheEvent) (world : σ)

def EachTable (P : NodeId → Listeners L → Prop) (hub : Hub L) : Prop :=
  ∀ (node : NodeId) (member : Member L), hub.members[node]? = some member →
    P node member.listeners

theorem EachTable.seat (h : hub.EachTable P) {member : Member L} (hnew : P node member.listeners) :
    ({ hub with members := hub.members.insert node member } : Hub L).EachTable P := by
  intro other found hfound
  simp only [Std.ExtTreeMap.getElem?_insert, Std.LawfulEqOrd.compare_eq_iff_eq] at hfound
  split at hfound
  · next heq =>
    rw [← heq, ← Option.some.inj hfound]
    exact hnew
  · exact h other found hfound

private theorem EachTable.tell (h : hub.EachTable P)
    (hdispatch : ∀ node t world, P node t → P node (t.dispatch react event world).1)
    (nodes : List NodeId) : (tell react event nodes hub world).1.EachTable P := by
  induction nodes generalizing hub world with
  | nil => exact h
  | cons first nodes ih =>
    unfold Hub.tell
    split
    · exact ih _ h
    · next member hmember =>
      exact ih _ (h.seat (hdispatch first _ world (h first member hmember)))

theorem EachTable.staged (h : hub.EachTable P) (contents : Contents) {act : HubAct L}
    (hkeeps : act.Keeps P) : (hub.staged contents act).EachTable P := by
  cases act with
  | join node => exact h.seat hkeeps
  | leave node =>
    intro other member hmember
    simp only [Hub.staged, leave, Std.ExtTreeMap.getElem?_erase] at hmember
    split at hmember
    · cases hmember
    · exact h other member hmember
  | listen view listener includesValues =>
    simp only [Hub.staged, addListener]
    split
    · exact h
    · next member hmember =>
      split
      · exact h.seat (hkeeps _ (h view.node member hmember))
      · exact h
  | call _ _ | evict _ | evictNode _ | clear _ => exact h

theorem EachTable.perform (h : hub.EachTable P) (hholds : hub.Holds contents) {act : HubAct L}
    (hkeeps : act.Keeps P)
    (hdispatch : ∀ event ∈ act.event? contents, ∀ node t world, P node t →
      P node (t.dispatch react event world).1) :
    (hub.perform react act world).cache.EachTable P := by
  rw [hholds.perform_eq react act world]
  have hstaged := h.staged contents hkeeps
  cases hevent : act.event? contents with
  | none => exact hstaged
  | some event => exact hstaged.tell react event world (hdispatch event hevent) _

/-! ## A member that listens -/

/-- None of certain listeners is registered anywhere. -/
def Unattended (mine : L → Bool) (hub : Hub L) : Prop :=
  hub.EachTable fun _ t => t.Tidy ∧ t.Without mine

/-- The table of a member if one of certain listeners is registered at one node and none at any
other. -/
def Placed (mine : L → Bool) (node other : NodeId) (t : Listeners L) : Prop :=
  t.Tidy ∧ if other = node then t.Single mine else t.Without mine

/-- Of certain listeners one is registered, at one member. -/
structure Attends (mine : L → Bool) (node : NodeId) (hub : Hub L) : Prop where
  member : node ∈ hub.members
  tables : hub.EachTable (Placed mine node)

variable {react event world} {act : HubAct L}

theorem unattended_start (name : String) : ({ name } : Hub L).Unattended mine := by
  intro node member hmember
  simp at hmember

theorem Unattended.keeps (hothers : ∀ listener ∈ act.listener?, mine listener = false) :
    act.Keeps fun _ t => t.Tidy ∧ t.Without mine := by
  cases act with
  | join node => exact ⟨Listeners.tidy_empty, Listeners.without_empty⟩
  | listen view listener includesValues =>
    have hother := hothers listener rfl
    exact fun t h => ⟨h.1.add listener includesValues, h.2.add hother includesValues⟩
  | leave _ | call _ _ | evict _ | evictNode _ | clear _ => trivial

theorem Unattended.perform (h : hub.Unattended mine) (hholds : hub.Holds contents)
    (hothers : ∀ listener ∈ act.listener?, mine listener = false) :
    (hub.perform react act world).cache.Unattended mine :=
  EachTable.perform react world h hholds (Unattended.keeps hothers) fun event _ _ _ world h =>
    ⟨h.1.dispatch react event world, h.2.dispatch react event world⟩

theorem Unattended.run {acts : List (HubAct L)} (h : hub.Unattended mine)
    (hholds : hub.Holds contents)
    (hothers : ∀ act ∈ acts, ∀ listener ∈ act.listener?, mine listener = false) :
    (hub.run react acts world).cache.Unattended mine := by
  induction acts generalizing hub contents world with
  | nil => exact h
  | cons act acts ih =>
    exact ih (h.perform hholds (hothers act List.mem_cons_self)) (hholds.perform react act world)
      fun later hmem => hothers later (List.mem_cons_of_mem _ hmem)

/-- The view is from the last join of its node. -/
def IsCurrent (hub : Hub L) (view : View) : Prop :=
  hub.members[view.node]?.map (·.ticket) = some view.ticket

instance (hub : Hub L) (view : View) : Decidable (hub.IsCurrent view) :=
  inferInstanceAs (Decidable (_ = _))

/-- A listener that is registered through a current view is heard from then on. -/
theorem Unattended.attends (h : hub.Unattended mine) {view : View} (hview : hub.IsCurrent view)
    {listener : L} (hmine : mine listener = true) :
    (hub.addListener view listener true).Attends mine view.node := by
  obtain ⟨member, hmember, hticket⟩ := Option.map_eq_some_iff.mp hview
  constructor
  · rw [mem_members_addListener, Std.ExtTreeMap.mem_iff_isSome_getElem?, hmember,
      Option.isSome_some]
  · simp only [addListener, hmember, hticket, if_true]
    intro other found hfound
    simp only [Std.ExtTreeMap.getElem?_insert, Std.LawfulEqOrd.compare_eq_iff_eq] at hfound
    have hthere := h view.node member hmember
    split at hfound
    · next heq =>
      rw [← Option.some.inj hfound, ← heq]
      exact ⟨hthere.1.add listener true, by simpa using hthere.2.single_add hmine⟩
    · next hne =>
      have helsewhere := h other found hfound
      exact ⟨helsewhere.1, by simpa [Ne.symm hne] using helsewhere.2⟩

theorem Placed.single {t : Listeners L} (h : Placed mine node node t) : t.Single mine := by
  simpa using h.2

theorem Placed.without {other : NodeId} {t : Listeners L} (h : Placed mine node other t)
    (hne : other ≠ node) : t.Without mine := by
  simpa [hne] using h.2

private theorem Placed.add {other : NodeId} {t : Listeners L} (h : Placed mine node other t)
    {listener : L} (hother : mine listener = false) (includesValues : Bool) :
    Placed mine node other (t.add listener includesValues) := by
  refine ⟨h.1.add listener includesValues, ?_⟩
  split
  · next heq => exact (heq ▸ h).single.add hother includesValues
  · next hne => exact (h.without hne).add hother includesValues

theorem Placed.dispatch {other : NodeId} {t : Listeners L} (h : Placed mine node other t)
    (hkeen : Listeners.Keen mine react event) (world : σ) :
    Placed mine node other (t.dispatch react event world).1 := by
  refine ⟨h.1.dispatch react event world, ?_⟩
  split
  · next heq => exact (heq ▸ h).single.dispatch react event world h.1 hkeen
  · next hne => exact (h.without hne).dispatch react event world

private theorem Placed.heard_dispatch {other : NodeId} {t : Listeners L}
    (h : Placed mine node other t) (world : σ) : heard mine (t.dispatch react event world).2.2 =
      if other = node then [event] else [] := by
  rw [Listeners.heard_dispatch]
  split
  · next heq =>
    obtain ⟨r, hr, hvalues⟩ := (heq ▸ h).single
    simp [hr, Registration.view, hvalues]
  · next hne =>
    have hnone : t.registrations.filter (fun r => mine r.listener) = [] :=
      List.filter_eq_nil_iff.mpr fun r hmem => by simp [h.without hne r hmem]
    rw [hnone, List.map_nil]

private theorem Attends.seat (h : hub.Attends mine node) {other : NodeId} (member : Member L)
    (hplaced : Placed mine node other member.listeners) :
    ({ hub with members := hub.members.insert other member } : Hub L).Attends mine node :=
  ⟨Std.ExtTreeMap.mem_insert.mpr (Or.inr h.member), h.tables.seat hplaced⟩

/-- The member hears an event once if it is told, whoever else is told. -/
theorem Attends.heard_tell (h : hub.Attends mine node) (hkeen : Listeners.Keen mine react event)
    {nodes : List NodeId} (hdistinct : nodes.Nodup) (world : σ) :
    heard mine (tell react event nodes hub world).2.2 = if node ∈ nodes then [event] else [] := by
  induction nodes generalizing hub world with
  | nil => rfl
  | cons first nodes ih =>
    rw [List.nodup_cons] at hdistinct
    unfold Hub.tell
    split
    · next hnone =>
      have hne : node ≠ first := by
        rintro rfl
        have hsome := Std.ExtTreeMap.mem_iff_isSome_getElem?.mp h.member
        rw [hnone] at hsome
        exact absurd hsome Bool.false_ne_true
      simpa [hne] using ih h hdistinct.2 world
    · next member hmember =>
      have hplaced := h.tables first member hmember
      have hafter := h.seat { member with
        listeners := (member.listeners.dispatch react event world).1 }
        (hplaced.dispatch hkeen world)
      simp only [heard_append, hplaced.heard_dispatch]
      rw [ih hafter hdistinct.2]
      by_cases heq : first = node
      · simp [heq, heq ▸ hdistinct.1]
      · simp [heq, Ne.symm heq]

private theorem Attends.heard_announce (h : hub.Attends mine node) {event? : Option CacheEvent}
    (hkeen : ∀ event ∈ event?, Listeners.Keen mine react event) (world : σ) :
    heard mine (hub.announce react event? world).2.2 =
      (event?.filter fun event => event.node ≠ node).toList := by
  cases event? with
  | none => rfl
  | some event =>
    have hdistinct : (hub.memberIds.filter (· ≠ event.node)).Nodup :=
      Std.ExtTreeMap.nodup_keys.filter _
    have hheard := h.heard_tell (hkeen event rfl) hdistinct world
    have hmember : node ∈ hub.memberIds := Std.ExtTreeMap.mem_keys.mpr h.member
    simp only [announce, broadcast, Orders.inForce_asListed, Shuffle.arrange_listing]
    rw [hheard]
    by_cases hself : event.node = node
    · simp [Option.filter, hself]
    · simp [Option.filter, hself, hmember, Ne.symm hself]

private theorem Placed.keeps (hspares : act.Spares mine node) : act.Keeps (Placed mine node) := by
  cases act with
  | join other =>
    have hne : other ≠ node := fun heq => hspares.1 (congrArg some heq)
    exact ⟨Listeners.tidy_empty, by simpa [hne] using Listeners.without_empty⟩
  | listen view listener includesValues =>
    exact fun t hplaced => hplaced.add (hspares.2 listener rfl) includesValues
  | leave _ | call _ _ | evict _ | evictNode _ | clear _ => trivial

theorem Attends.staged (h : hub.Attends mine node) (contents : Contents)
    (hspares : act.Spares mine node) : (hub.staged contents act).Attends mine node := by
  refine ⟨?_, h.tables.staged contents (Placed.keeps hspares)⟩
  cases act with
  | join other => exact Std.ExtTreeMap.mem_insert.mpr (Or.inr h.member)
  | leave other =>
    have hne : other ≠ node := fun heq => hspares.1 (congrArg some heq)
    exact Std.ExtTreeMap.mem_erase.mpr ⟨by simpa using hne, h.member⟩
  | listen view listener includesValues => exact mem_members_addListener.mpr h.member
  | call _ _ | evict _ | evictNode _ | clear _ => exact h.member

/-- The listener stays registered whatever happens, as long as its node neither joins again nor
leaves. -/
theorem Attends.perform (h : hub.Attends mine node) (hholds : hub.Holds contents)
    (hspares : act.Spares mine node)
    (hkeen : ∀ event ∈ act.event? contents, Listeners.Keen mine react event) (world : σ) :
    (hub.perform react act world).cache.Attends mine node := by
  refine ⟨?_, h.tables.perform react world hholds (Placed.keeps hspares)
    fun event hevent _ _ world hplaced => hplaced.dispatch (hkeen event hevent) world⟩
  have hmember := (h.staged contents hspares).member
  rw [hholds.perform_eq react act world]
  cases act.event? contents with
  | none => exact hmember
  | some event => exact (mem_members_broadcast react).mpr hmember

/-- The listener hears of every act, unless it is in the name of its own node. -/
theorem Attends.heard_perform (h : hub.Attends mine node) (hholds : hub.Holds contents)
    (hspares : act.Spares mine node)
    (hkeen : ∀ event ∈ act.event? contents, Listeners.Keen mine react event) (world : σ) :
    heard mine (hub.perform react act world).hearings = (act.news node contents).toList := by
  rw [hholds.perform_eq react act world]
  exact (h.staged contents hspares).heard_announce hkeen world

end Hub

end DirectedPresence
