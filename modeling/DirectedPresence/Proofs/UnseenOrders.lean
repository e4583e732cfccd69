import DirectedPresence.Proofs.CommutingCalls
import DirectedPresence.Proofs.EnumeratedOperations
import DirectedPresence.Proofs.MirrorSteps

/-!
No order shows. What an operation enumerates without an order it could as well enumerate in another
one (`Orders`). A node that joins seeds its index with senders that are different, so each gets what
the hub holds of it, whichever comes first; the nodes of an index depart independently, and the
retractions for one of them are what they are; and to drop the directed presences of one sender is
no matter for any other one, so that these calls commute. In every cluster that can be reached,
under whatever orders, every step therefore comes to the same in all orders
(`Cluster.reachable_ignoresOrders`).
-/

namespace DirectedPresence

/-! ## Reverse indexes -/

namespace Trace.Rearranges

variable {trace trace' : Trace}

theorem concat {traces traces' : List Trace} (hperm : traces'.Perm traces) :
    (Trace.concat traces).Rearranges (Trace.concat traces') :=
  ⟨hperm.flatMap fun _ _ => .refl _, hperm.flatMap fun _ _ => .refl _⟩

private theorem swap (first second rest : Trace) :
    (first ++ (second ++ rest)).Rearranges (second ++ (first ++ rest)) := by
  rw [← Trace.append_assoc, ← Trace.append_assoc]
  have hswap : (first ++ second).Rearranges (second ++ first) :=
    ⟨List.perm_append_comm, List.perm_append_comm⟩
  exact hswap.append (.refl rest)

end Trace.Rearranges

namespace ReverseIndex

variable {router : Router} {index : ReverseIndex}

private theorem retractions_within (orders : Orders) (router : Router) (node : NodeId)
    (senders : SenderMap) : (retractions router node senders).Rearranges
      (orders.within (retractions router node senders)) :=
  .concat (((orders.indexed node).perm senders.toList).flatMap fun _ _ => .refl _)

/-- Nodes depart, and the senders of each are retracted in some order. -/
theorem nodesDown_within (orders : Orders) (router : Router) (nodes : List NodeId)
    (index : ReverseIndex) :
    (orders.within (index.nodesDown router nodes)).1 = (index.nodesDown router nodes).1 ∧
      (index.nodesDown router nodes).2.Rearranges
        (orders.within (index.nodesDown router nodes)).2 := by
  induction nodes generalizing index with
  | nil => exact ⟨rfl, .refl _⟩
  | cons node nodes ih =>
    obtain ⟨hindex, htrace⟩ := ih (index.clearNode node)
    exact ⟨hindex, (retractions_within orders router node _).append htrace⟩

private theorem clearNode_comm (index : ReverseIndex) (a b : NodeId) :
    (index.clearNode a).clearNode b = (index.clearNode b).clearNode a := by
  refine congrArg ReverseIndex.mk (Std.ExtTreeMap.ext_getElem? fun {node} => ?_)
  simp only [clearNode, Std.ExtTreeMap.getElem?_erase]
  split <;> split <;> rfl

/-- Nodes depart in some order. -/
theorem rearranges_nodesDown (router : Router) {nodes nodes' : List NodeId}
    (hperm : nodes'.Perm nodes) (index : ReverseIndex) :
    (index.nodesDown router nodes').1 = (index.nodesDown router nodes).1 ∧
      (index.nodesDown router nodes).2.Rearranges (index.nodesDown router nodes').2 := by
  induction hperm generalizing index with
  | nil => exact ⟨rfl, .refl _⟩
  | cons node _ ih =>
    obtain ⟨hindex, htrace⟩ := ih (index.clearNode node)
    exact ⟨hindex, (Trace.Rearranges.refl _).append htrace⟩
  | swap a b nodes =>
    by_cases heq : a = b
    · subst heq
      exact ⟨rfl, .refl _⟩
    · have ha : (index.clearNode b).senders a = index.senders a := senders_clearNode heq
      have hb : (index.clearNode a).senders b = index.senders b := senders_clearNode (Ne.symm heq)
      simp only [nodesDown, nodeDown, ha, hb, index.clearNode_comm b a]
      exact ⟨trivial, .swap _ _ _⟩
  | trans _ _ ih ih' =>
    obtain ⟨hindex, htrace⟩ := ih index
    obtain ⟨hindex', htrace'⟩ := ih' index
    exact ⟨hindex.trans hindex', htrace'.trans htrace⟩

/-- All nodes of an index depart, in some order. -/
theorem rearranges_nodeIds (orders : Orders) (router : Router) (index : ReverseIndex) :
    (orders.within (index.nodesDown router (orders.nodes index.nodeIds))).1 =
        (index.nodesDown router index.nodeIds).1 ∧
      (index.nodesDown router index.nodeIds).2.Rearranges
        (orders.within (index.nodesDown router (orders.nodes index.nodeIds))).2 := by
  obtain ⟨hindex, htrace⟩ := rearranges_nodesDown router (orders.nodes.perm index.nodeIds) index
  obtain ⟨hindex', htrace'⟩ :=
    nodesDown_within orders router (orders.nodes index.nodeIds) index
  exact ⟨hindex'.trans hindex, htrace.trans htrace'⟩

end ReverseIndex

private theorem Hub.Holds.legible {L : Type} {hub : Hub L} {contents : Contents}
    (h : hub.Holds contents) : hub.Legible := by
  intro key holding hholding
  rw [h.getElem?] at hholding
  obtain ⟨kept, -, rfl⟩ := Option.map_eq_some_iff.mp hholding
  exact ⟨kept.registry, Holding.registry_of _ _⟩

namespace Seat

variable {env : Environment} {seat : Seat}

/-! ## Changes of membership -/

/-- The entries that are read are those that the hub holds, in any order. -/
theorem Calm.entries_within (h : seat.Calm) (orders : Orders) :
    orders.within seat.entries = seat.entries ∨ ∃ entries entries',
      seat.entries = .ok entries ∧ orders.within seat.entries = .ok entries' ∧
      (∀ key registry, (key, registry) ∈ entries ↔ seat.fabric.hub.lookup key = some registry) ∧
      ∀ key registry, (key, registry) ∈ entries' ↔
        seat.fabric.hub.lookup key = some registry := by
  unfold Seat.entries
  split
  · exact .inl rfl
  · cases seat.node.cache.backing with
    | standalone cache => exact .inl rfl
    | clustered view =>
      obtain ⟨contents, hholds⟩ := h.fabric.holds
      obtain ⟨entries, hentries, hlisted⟩ := hholds.legible.entries
      obtain ⟨entries', hentries', hlisted'⟩ := hholds.legible.readAll (orders.entries.perm _)
      exact .inr ⟨entries, entries', hentries, hentries', hlisted, hlisted'⟩

/-- Seeding shows of each sender what the hub holds of it, whichever comes first. -/
theorem Calm.seedIndex_within (h : seat.Calm) (hcompact : seat.fabric.Compact) (orders : Orders)
    (env : Environment) : orders.within (seat.seedIndex env) = seat.seedIndex env := by
  have hentries := h.entries_within orders
  simp only [Orders.within] at hentries ⊢
  rcases hentries with hsame | ⟨entries, entries', hread, hread', hlisted, hlisted'⟩
  · simp only [seedIndex, hsame]
  · have hseed : ReverseIndex.seed (seat.services env).routes.isLocal seat.node.id entries'
        seat.index = ReverseIndex.seed (seat.services env).routes.isLocal seat.node.id entries
        seat.index := by
      refine ReverseIndex.Compact.ext (hcompact seat.node.id).seed (hcompact seat.node.id).seed ?_
      intro peer sender
      rw [receivers?_seed_lookup hlisted, receivers?_seed_lookup hlisted']
    simp only [seedIndex, hread, hread']
    exact congrArg (fun index => ({ answer := (), seat := seat.withIndex index } : Outcome Unit))
      hseed

private theorem Calm.entered (h : seat.Calm) (env : Environment) : (seat.entered env).Calm := by
  have hjoins : (HubAct.join seat.node.id).Keeps Hub.Owned := fun _ hr => nomatch hr
  refine ⟨h.fabric.perform env hjoins, ?_⟩
  rintro cache ⟨⟩

private theorem Calm.refilled (h : seat.Calm) (env : Environment) : (seat.refilled env).Calm :=
  (h.entered env).deals (deals_restore fun _ _ => trivial)

private theorem Calm.detached (h : seat.Calm) : seat.detached.Calm := by
  have hleaves : (HubAct.leave seat.node.id).Keeps Hub.Owned := trivial
  refine ⟨h.fabric.perform (fun _ => .agreeable) hleaves, ?_⟩
  rintro cache ⟨⟩
  rfl

private theorem Calm.join_within (h : seat.Calm) (hcompact : seat.fabric.Compact) (orders : Orders)
    (env : Environment) : (seat.join env).Rearranges (orders.within (seat.join env)) := by
  obtain ⟨contents, hholds⟩ := h.fabric.holds
  have hseed := (h.refilled env).seedIndex_within (compact_refilled env hholds hcompact) orders env
  have hjoined : ((restore env seat.node.store.toList (seat.entered env)).andThen fun _ after =>
      (after.seedIndex env).andThen fun _ after =>
        after.listen (seat.fabric.hub.join seat.node.id).2).Rearranges
      (orders.within ((restore env seat.node.store.toList (seat.entered env)).andThen
        fun _ after => (after.seedIndex env).andThen fun _ after =>
          after.listen (seat.fabric.hub.join seat.node.id).2)) := by
    refine ((h.entered env).restore_within orders env seat.node.store.toList).andThen ?_
    rw [← Seat.refilled]
    exact hseed ▸ .refl _
  exact ⟨hjoined.answer, congrArg (setPhase · .clustered) hjoined.seat, hjoined.trace,
    hjoined.hearings⟩

private theorem Calm.leave_within (h : seat.Calm) (orders : Orders) (env : Environment) :
    (seat.leave env).Rearranges (orders.within (seat.leave env)) := by
  cases hshutting : seat.node.server.shuttingDown with
  | true =>
    simp only [leave, hshutting, if_true]
    exact .refl _
  | false =>
    simp only [leave, hshutting, Bool.false_eq_true, if_false]
    refine (h.detached.restore_within orders env seat.node.store.toList).andThen ?_
    obtain ⟨hindex, htrace⟩ := ReverseIndex.rearranges_nodeIds orders
      ((seat.recovered env).services env).router (seat.recovered env).index
    exact ⟨rfl, congrArg (fun index => ((seat.recovered env).withIndex index).setPhase .standalone)
      hindex, htrace, .refl _⟩

private theorem peerLeft_within (seat : Seat) (orders : Orders) (env : Environment)
    (peer : NodeId) :
    (seat.peerLeft env peer).Rearranges (orders.within (seat.peerLeft env peer)) :=
  ⟨rfl, rfl, ReverseIndex.retractions_within orders _ peer _, .refl _⟩

private theorem Calm.handle_within (h : seat.Calm) (hcompact : seat.fabric.Compact)
    (orders : Orders) (env : Environment) (event : MembershipEvent) :
    (seat.handle env event).Rearranges (orders.within (seat.handle env event)) := by
  cases event with
  | localJoined => exact h.join_within hcompact orders env
  | localLeft => exact h.leave_within orders env
  | remoteJoined peer => exact .refl _
  | remoteLeft peer => exact seat.peerLeft_within orders env peer

/-! ## Accepted subscriptions -/

variable {server : Server} {who who' : Address → Prop} {tells tells' : Effect → Prop}

private theorem Deals.server_eq {α : Type} {known : Seat → Prop} {act : Seat → Outcome α}
    (h : Deals env server who tells known act) (hserver : seat.node.server = server)
    (hknown : known seat) : (act seat).seat.node.server = server :=
  (Touches.sameNode (h.touches hserver hknown)).server.trans hserver

/-- Acts that deal with different senders commute. -/
theorem Deals.commute {α β : Type} {act : Seat → Outcome α} {act' : Seat → Outcome β}
    (h : Deals env server who tells (fun _ => True) act)
    (h' : Deals env server who' tells' (fun _ => True) act')
    (hdisjoint : ∀ key, who key → ¬ who' key) (hcalm : seat.Calm)
    (hserver : seat.node.server = server) :
    (act' (act seat).seat).seat.Alike (fun _ => True) (act (act' seat).seat).seat := by
  obtain ⟨hcalm₁, hone⟩ := h.elsewhere hcalm hserver trivial
  obtain ⟨hcalm₂, htwo⟩ := h'.elsewhere hcalm hserver trivial
  obtain ⟨-, honeTwo⟩ := h'.elsewhere hcalm₁ (h.server_eq hserver trivial) trivial
  obtain ⟨-, htwoOne⟩ := h.elsewhere hcalm₂ (h'.server_eq hserver trivial) trivial
  have hleft := (h.alike (htwo.mono hdisjoint) hcalm hcalm₂ hserver trivial trivial).seat
  have hright := (h'.alike (hone.mono fun key hkey hkey' => hdisjoint key hkey' hkey) hcalm hcalm₁
    hserver trivial trivial).seat
  -- what each act knows is left alone by the other one, and the rest is left alone by both
  have hfirsts := (honeTwo.symm.mono hdisjoint).trans hleft
  have hseconds := hright.symm.trans (htwoOne.mono fun key hkey hkey' => hdisjoint key hkey' hkey)
  have hothers : (act' (act seat).seat).seat.Alike (fun key => ¬ who key ∧ ¬ who' key)
      (act (act' seat).seat).seat :=
    (honeTwo.symm.mono fun _ h => h.2).trans ((hone.symm.mono fun _ h => h.1).trans
      ((htwo.mono fun _ h => h.2).trans (htwoOne.mono fun _ h => h.1)))
  refine (hfirsts.cover hseconds fun _ => id).cover hothers fun key _ => ?_
  tauto

private theorem effects_dropDirected (env : Environment) (contact : Address)
    (senders : List Address) (seat : Seat) :
    (dropDirected env contact senders seat).trace.effects = [] := by
  have hdeals : Deals env seat.node.server (fun _ => True) (fun _ => False) (fun _ => True)
      (dropDirected env contact senders) := deals_dropDirected contact fun _ _ => trivial
  exact List.eq_nil_iff_forall_not_mem.mpr (hdeals.tells_of rfl trivial)

/-- The senders are dropped in any order. -/
theorem Calm.dropDirected_perm (h : seat.Calm) (env : Environment) (contact : Address)
    {senders senders' : List Address} (hperm : senders'.Perm senders) :
    (dropDirected env contact senders seat).seat.Alike (fun _ => True)
      (dropDirected env contact senders' seat).seat := by
  have hone : ∀ (seat : Seat) (sender : Address), Deals env seat.node.server (sender = ·)
      (fun _ => False) (fun _ => True) fun seat => seat.removeDirected env sender contact :=
    fun seat sender => deals_removeDirected rfl contact
  have hcalm : ∀ (seat : Seat) (sender : Address), seat.Calm →
      (seat.removeDirected env sender contact).seat.Calm :=
    fun seat sender h => ((hone seat sender).elsewhere h rfl trivial).1
  induction hperm generalizing seat with
  | nil => exact .refl _ _
  | cons sender _ ih => exact ih (hcalm seat sender h)
  | swap a b senders =>
    by_cases heq : a = b
    · rw [heq]
      exact .refl _ _
    · have hcommute := (hone seat a).commute (hone seat b)
        (fun key ha hb => heq (ha.trans hb.symm)) h rfl
      have hrest : ∀ server, Deals env server (fun _ => True) (fun _ => False) (fun _ => True)
          (dropDirected env contact senders) :=
        fun _ => deals_dropDirected contact fun _ _ => trivial
      exact ((hrest _).alike hcommute (hcalm _ b (hcalm seat a h)) (hcalm _ a (hcalm seat b h))
        rfl trivial trivial).seat
  | trans _ _ ih ih' => exact (ih' h).trans (ih h)

end Seat

/-- Up to order the second outcome is what comes of an act that deals with senders and that ends
like the first one. -/
def Outcome.Resembles {α : Type} (env : Environment) (seat : Seat) (o o' : Outcome α) : Prop :=
  ∃ act : Seat → Outcome α,
    Seat.Deals env seat.node.server (fun _ => True) (fun _ => True) (fun _ => True) act ∧
      o.Alike (fun _ => True) (act seat) ∧ (act seat).Rearranges o'

namespace Outcome.Resembles

variable {α β : Type} {env : Environment} {seat : Seat} {o o' : Outcome α}

theorem map (h : Resembles env seat o o') (f : α → β) :
    Resembles env seat (o.map f) (o'.map f) := by
  obtain ⟨act, hdeals, ⟨hanswer, heffects, hseat⟩, hrearranges⟩ := h
  exact ⟨_, hdeals.map f, ⟨congrArg f hanswer, heffects, hseat⟩, hrearranges.map f⟩

private theorem of_deals {act : Seat → Outcome α}
    (h : Seat.Deals env seat.node.server (fun _ => True) (fun _ => True) (fun _ => True) act)
    (hrearranges : (act seat).Rearranges o') : Resembles env seat (act seat) o' :=
  ⟨act, h, ⟨rfl, rfl, .refl _ _⟩, hrearranges⟩

end Outcome.Resembles

namespace Seat

variable {env : Environment} {seat : Seat}

/-- Unless a stanza accepts a subscription, no store is enumerated. -/
theorem manageSubscription_within_of_ne {p : Presence} (hkind : p.kind ≠ .subscribed)
    (orders : Orders) (env : Environment) (seat : Seat) :
    orders.within (seat.manageSubscription env p) = seat.manageSubscription env p := by
  unfold manageSubscription
  split
  · rfl
  · rfl
  · cases hkind' : p.kind with
    | subscribed => exact absurd hkind' hkind
    | _ => rfl

/-- A stanza that accepts a subscription is managed the same, whichever sender comes first. -/
theorem Calm.manageSubscription_within (h : seat.Calm) (orders : Orders) (env : Environment)
    (p : Presence) : Outcome.Resembles env seat (seat.manageSubscription env p)
      (orders.within (seat.manageSubscription env p)) := by
  have hignored (hsame : orders.within (seat.manageSubscription env p) =
      seat.manageSubscription env p) : Outcome.Resembles env seat (seat.manageSubscription env p)
        (orders.within (seat.manageSubscription env p)) :=
    .of_deals (deals_manageSubscription (fun _ _ _ _ => trivial) trivial) (hsame ▸ .refl _)
  by_cases hkind : p.kind = .subscribed
  swap
  · exact hignored (manageSubscription_within_of_ne hkind orders env seat)
  cases hhandled : (seat.services env).roster.handle p with
  | error cause =>
    refine hignored ?_
    cases cause <;> simp only [manageSubscription, hhandled]
  | ok _ =>
    cases hsender : p.sender with
    | none => exact hignored (by simp only [manageSubscription, hhandled, hkind, hsender])
    | some account =>
      cases hrecipient : p.recipient with
      | none =>
        exact hignored (by simp only [manageSubscription, hhandled, hkind, hsender, hrecipient])
      | some contact =>
        simp only [manageSubscription, hhandled, hkind, hsender, hrecipient]
        let senders := (orders.senders seat.node.store.senders).filter (·.sameBare account)
        have hperm : senders.Perm (seat.node.store.senders.filter (·.sameBare account)) :=
          (orders.senders.perm _).filter _
        refine ⟨fun seat =>
            (dropDirected env contact senders seat).after (.effect (.subscription p)),
          .note _ (by simp) (deals_dropDirected contact fun _ _ => trivial), ⟨rfl, ?_, ?_⟩, ?_⟩
        · simp only [Outcome.after, Trace.effects_append, effects_dropDirected]
        · exact h.dropDirected_perm env contact hperm
        · exact (h.dropDirected_within orders env contact senders).after _

/-- Unless a stanza accepts a subscription, it is processed the same. -/
theorem Calm.process_within_of_ne (h : seat.Calm) {p : Presence} (hkind : p.kind ≠ .subscribed)
    (orders : Orders) (env : Environment) :
    (seat.process env p).Rearranges (orders.within (seat.process env p)) := by
  unfold process
  dsimp only
  split
  · exact .refl _
  · cases hkind' : p.kind with
    | subscribed => exact absurd hkind' hkind
    | subscribe | unsubscribe | unsubscribed =>
      exact manageSubscription_within_of_ne hkind orders env seat ▸ .refl _
    | available | error | probe => exact .refl _
    | unavailable =>
      obtain ⟨hanswer, hseat, htrace, hhearings⟩ := h.retract_within orders env p
      exact ⟨hanswer, hseat, ((Trace.Rearranges.refl _).append htrace).append (.refl _), hhearings⟩

/-- A stanza is processed the same, whichever sender comes first. -/
theorem Calm.process_within (h : seat.Calm) (orders : Orders) (env : Environment) (p : Presence) :
    Outcome.Resembles env seat (seat.process env p) (orders.within (seat.process env p)) := by
  have hdeals : Deals env seat.node.server (fun _ => True) (fun _ => True) (fun _ => True)
      fun seat => seat.process env p := deals_process (fun _ _ _ _ => trivial) fun _ _ => trivial
  by_cases hkind : p.kind = .subscribed
  · have hmanage := h.manageSubscription_within orders env p
    have hrefused : ∀ trace : Trace, Outcome.Resembles env seat
        ({ answer := (), seat, trace } : Outcome Unit) { answer := (), seat, trace } :=
      fun trace => .of_deals (.report () trace fun _ _ => trivial) (.refl _)
    simp only [process, hkind]
    split
    · exact hrefused _
    · exact hmanage
  · exact .of_deals hdeals (h.process_within_of_ne hkind orders env)

end Seat

/-! ## Every operation -/

/-- Whether the operation is the processing of a stanza that accepts a subscription. -/
def Operation.accepts : Operation → Bool
  | .process p => p.kind = .subscribed
  | _ => false

namespace Seat

variable {env : Environment} {seat : Seat} {operation : Operation}

/-- Unless a subscription is accepted, an operation comes to the same seat in all orders. -/
theorem Calm.perform_within (h : seat.Calm) (hcompact : seat.fabric.Compact)
    (haccepts : operation.accepts = false) (orders : Orders) (env : Environment) :
    (seat.perform env operation).Rearranges (orders.within (seat.perform env operation)) := by
  have hdedicated := h.fabric.dedicated
  cases operation with
  | process p =>
    exact (h.process_within_of_ne (of_decide_eq_false haccepts) orders env).map fun _ => Answer.done
  | processDirected p handler => exact (h.processDirected_within orders env p handler).map _
  | directedSent p handler receiver =>
    exact (h.directedSent_within orders env p handler receiver).map _
  | removeDirected owner recipient =>
    exact (h.removeDirected_within orders env owner recipient).map _
  | sweep => exact (h.sweepEach_within orders env seat.node.store.toList).map _
  | membership event => exact (h.handle_within hcompact orders env event).map fun _ => Answer.done
  | cachePut key value => exact (h.put_within orders env key value).map _
  | cacheRemove key => exact (h.remove_within orders env key).map _
  | hubEvict key =>
    exact (Outcome.Rearranges.afterHub (hdedicated.takeOut_within orders env key _ _ _) seat).map _
  | hubEvictNode peer =>
    exact (Outcome.Rearranges.afterHub (hdedicated.evictNode_within orders env peer _) seat).map
      fun _ => Answer.done
  | hubClear peer =>
    exact (Outcome.Rearranges.afterHub (hdedicated.clear_within orders env peer _) seat).map
      fun _ => Answer.done
  | hasDirected | shutdown | storeInsert | storeRemove | hubLeave | failCache => exact .refl _

end Seat

/-! ## Clusters -/

/-- The second transition is the first one but for the order of what is called, noted and heard. -/
structure Transition.Rearranges (t t' : Transition) : Prop where
  answer : t'.answer = t.answer
  cluster : t'.cluster = t.cluster
  trace : t.trace.Rearranges t'.trace
  hearings : t'.hearings.Perm t.hearings

/-- Two transitions have the same answer and make the same calls on services, in some order, and
they end with the same nodes, the same entries in the hub, and the same index at every node. -/
structure Transition.Resembles (t t' : Transition) : Prop where
  answer : t'.answer = t.answer
  effects : t'.trace.effects.Perm t.trace.effects
  nodes : t'.cluster.nodes = t.cluster.nodes
  held : t'.cluster.fabric.hub.data = t.cluster.fabric.hub.data
  indexes : ∀ node, t'.cluster.fabric.index node = t.cluster.fabric.index node

private theorem Transition.Rearranges.resembles {t t' : Transition} (h : t.Rearranges t') :
    t.Resembles t' where
  answer := h.answer
  effects := h.trace.effects
  nodes := congrArg Cluster.nodes h.cluster
  held := congrArg (·.fabric.hub.data) h.cluster
  indexes := fun node => congrArg (·.fabric.index node) h.cluster

namespace Cluster

/-- What comes of a step in some orders. -/
def outcomeIn (orders : Orders) (c : Cluster) (step : Step) : Transition :=
  orders.within (c.outcome step)

def afterIn (c : Cluster) (step : Orders × Step) : Cluster :=
  (c.outcomeIn step.1 step.2).cluster

/-- The cluster after several steps, each in orders of its own. -/
def runIn (c : Cluster) (steps : List (Orders × Step)) : Cluster :=
  steps.foldl afterIn c

variable {c : Cluster} {step : Step} {seat : Seat} {node : NodeId} {orders : Orders}

/-- With every list as it is listed the step is the one that runs. -/
theorem outcomeIn_listing (c : Cluster) (step : Step) : c.outcomeIn {} step = c.outcome step :=
  rfl

/-- A node that deals with senders leaves a calm cluster. -/
theorem Calm.setSeat (h : c.Calm) (hseat : c.seat? node = some seat) {α : Type}
    {env : Environment} {who : Address → Prop} {tells : Effect → Prop} {act : Seat → Outcome α}
    (hdeals : Seat.Deals env seat.node.server who tells (fun _ => True) act) :
    (c.setSeat node (act seat).seat).Calm := by
  have hcalm := h.at_seat hseat
  have htouches := hdeals.touches rfl trivial
  obtain ⟨hunheard, hcontained⟩ := hcalm.unheard.touches htouches
  have hid : (act seat).seat.node.id = node :=
    (Seat.Touches.sameNode htouches).id.trans (h.wired.named node seat hseat)
  obtain ⟨acts, -, hcomes, -⟩ := hdeals.wrote rfl trivial hcalm.unheard
  obtain ⟨contents, hholds⟩ := hcalm.fabric.holds
  refine ⟨⟨?_, hcontained.dedicated hcalm.fabric.dedicated, ?_⟩,
    (hdeals.elsewhere hcalm rfl trivial).1.fabric, fun other => ?_⟩
  · exact forall_node_setSeat (P := fun id node => node.id = id) h.wired.named hid
  · intro id other hother
    rcases seat?_setSeat_cases hother with ⟨-, rfl⟩ | ⟨-, old, hold, rfl⟩
    · exact hunheard
    · exact h.wired.unheard id old hold
  · have hcompact : seat.fabric.Compact := fabric_of_seat? hseat ▸ h.compact
    show ((act seat).seat.fabric.index other).Compact
    rw [Fabric.index, hcomes.indexes]
    exact hcompact.run hholds env acts other

private theorem Calm.rearranges_outcomeIn (h : c.Calm) (haccepts : step.operation.accepts = false)
    (orders : Orders) : (c.outcome step).Rearranges (c.outcomeIn orders step) := by
  unfold outcomeIn outcome perform
  cases hseat : c.seat? step.node with
  | none => exact ⟨rfl, rfl, .refl _, .refl _⟩
  | some seat =>
    have hcompact : seat.fabric.Compact := fabric_of_seat? hseat ▸ h.compact
    obtain ⟨hanswer, hafter, htrace, hhearings⟩ :=
      (h.at_seat hseat).perform_within hcompact haccepts orders step.env
    exact ⟨hanswer, congrArg (c.setSeat step.node) hafter, htrace, hhearings⟩

/-- In other orders a step comes to the same, and leaves a calm cluster. -/
theorem Calm.resembles_outcomeIn (h : c.Calm) (step : Step) (orders : Orders) :
    (c.afterIn (orders, step)).Calm ∧ (c.outcome step).Resembles (c.outcomeIn orders step) := by
  cases haccepts : step.operation.accepts with
  | false =>
    have hsame := h.rearranges_outcomeIn haccepts orders
    have hafter : c.afterIn (orders, step) = c.after step := hsame.cluster
    exact ⟨hafter ▸ h.after step, hsame.resembles⟩
  | true =>
    obtain ⟨env, node, operation⟩ := step
    cases operation with
    | process p =>
      cases hseat : c.seat? node with
      | none =>
        simp only [Cluster.afterIn, outcomeIn, outcome, perform, hseat]
        exact ⟨h, rfl, .refl _, rfl, rfl, fun _ => rfl⟩
      | some seat =>
        obtain ⟨act, hdeals, halike, hrearranges⟩ :=
          ((h.at_seat hseat).process_within orders env p).map fun _ => Answer.done
        have hafter : c.afterIn (orders, ⟨env, node, .process p⟩) =
            c.setSeat node (act seat).seat := by
          simp only [Cluster.afterIn, outcomeIn, outcome, perform, hseat]
          exact congrArg (c.setSeat node) hrearranges.seat
        have hcalm : (c.afterIn (orders, ⟨env, node, .process p⟩)).Calm :=
          hafter ▸ h.setSeat hseat hdeals
        have hends : (c.after ⟨env, node, .process p⟩).Alike (fun _ => True)
            (c.afterIn (orders, ⟨env, node, .process p⟩)) := by
          rw [hafter, after_of_seat? hseat]
          exact (Alike.refl _ c).setSeat halike.seat
        obtain ⟨hnodes, hheld, hindexes⟩ := hends.eq (h.after _) hcalm
        have hanswer : (c.outcomeIn orders ⟨env, node, .process p⟩).answer =
            (c.outcome ⟨env, node, .process p⟩).answer := by
          simp only [outcomeIn, outcome, perform, hseat]
          exact hrearranges.answer.trans halike.answer
        have heffects : (c.outcomeIn orders ⟨env, node, .process p⟩).trace.effects.Perm
            (c.outcome ⟨env, node, .process p⟩).trace.effects := by
          simp only [outcomeIn, outcome, perform, hseat]
          exact hrearranges.trace.effects.trans (.of_eq halike.effects)
        exact ⟨hcalm, hanswer, heffects, hnodes, hheld, hindexes⟩
    | _ => cases haccepts

private theorem Calm.afterIn (h : c.Calm) (step : Orders × Step) : (c.afterIn step).Calm :=
  (h.resembles_outcomeIn step.2 step.1).1

private theorem Calm.runIn (h : c.Calm) (steps : List (Orders × Step)) : (c.runIn steps).Calm := by
  induction steps generalizing c with
  | nil => exact h
  | cons step steps ih => exact ih (h.afterIn step)

/-- A run in which every list is as it is listed is a run. -/
theorem runIn_listing (c : Cluster) (steps : List Step) :
    c.runIn (steps.map fun step => ({}, step)) = c.run steps := by
  induction steps generalizing c with
  | nil => rfl
  | cons step steps ih =>
    have hfirst : c.afterIn ({}, step) = c.after step :=
      congrArg Transition.cluster (c.outcomeIn_listing step)
    simp only [List.map_cons, runIn, run, List.foldl_cons, hfirst] at ih ⊢
    exact ih (c.after step)

/-- No order shows, whatever happens next. -/
structure IgnoresOrders (c : Cluster) : Prop where
  resembles : ∀ (step : Step) (orders : Orders),
    (c.outcome step).Resembles (c.outcomeIn orders step)
  /-- Of the events that come of an accepted subscription a listener that gets no values may refuse
  another one first. Any other step ends with the very same cluster. -/
  rearranges : ∀ step : Step, step.operation.accepts = false → ∀ orders : Orders,
    (c.outcome step).Rearranges (c.outcomeIn orders step)
  /-- Whatever is done to the hub, through whichever views, the members are told in any order. -/
  told : ∀ (env : Environment) (acts : List (Telling × HubAct Feed)),
    (∀ act ∈ acts, act.2.Keeps Hub.Owned) →
      (c.fabric.hub.run (Feed.react env) (acts.map Prod.snd) c.fabric.indexes).Rearranges
        (c.fabric.hub.runIn (Feed.react env) acts c.fabric.indexes)

/-- Unordered iteration never shows. Take any cluster that can be reached, by steps each of which
enumerated what it went through in orders of its own. Whatever the services answer next, a step
gives the same answer, attempts the same calls on services, and ends with the same stores and
caches and the same index at every node, in whatever orders it reads the hub, the senders of the
store, the nodes of the index and the senders of each node, and in whatever order the hub tells its
members. Unless the step accepts a subscription, the whole cluster is the same. -/
theorem reachable_ignoresOrders (hubName : String) (members : List (Server × Settings))
    (steps : List (Orders × Step)) : ((start hubName members).runIn steps).IgnoresOrders := by
  have hcalm := (calm_start hubName members).runIn steps
  exact ⟨fun step orders => (hcalm.resembles_outcomeIn step orders).2,
    fun _ haccepts orders => hcalm.rearranges_outcomeIn haccepts orders,
    fun env _ howned => hcalm.fabric.runIn env howned⟩

end Cluster

/-- Two senders of a node that has departed are retracted in either order. -/
example :
    let c := (Cluster.start "hub" Sample.members).run
      (Sample.steps ++ [Sample.act "one" (.directedSent (.available Sample.nurse) Sample.handler
        Sample.receiver)])
    let departure := Sample.act "two" (.membership (.remoteLeft ⟨"one"⟩))
    (c.outcome departure).trace.effects.length = 2 ∧
      (c.outcomeIn { indexed := fun _ => .backwards } departure).trace.effects =
        (c.outcome departure).trace.effects.reverse := by
  decide +kernel

end DirectedPresence
