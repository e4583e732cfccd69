import DirectedPresence.Proofs.SeatEdits

/-!
How an operation deals with the store and the cache of its node. A call of the dispatcher, a sweep,
a direct write and the refilling of a cache make one access after another: they look a sender up,
write or remove it, and decide by what they found what to do next (`Seat.Deals`). Which senders an
operation may access is fixed in advance by what it is about (`Operation.Accesses`), and so are the
calls on services that it may make (`Operation.Tells`). What holds of every access, and of one
access after another, therefore holds of every operation by induction, without a look at the
operations again.
-/

namespace DirectedPresence

namespace Outcome

variable {α β γ : Type}

private theorem andThen_assoc (o : Outcome α) (next : α → Seat → Outcome β)
    (last : β → Seat → Outcome γ) :
    (o.andThen next).andThen last = o.andThen fun a seat => (next a seat).andThen last := by
  simp only [andThen, List.append_assoc]
  exact congrArg (Outcome.mk _ _ · _) (Trace.append_assoc _ _ _)

private theorem map_eq_andThen (f : α → β) (o : Outcome α) :
    o.map f = o.andThen fun a seat => { answer := f a, seat } := by
  obtain ⟨answer, seat, ⟨effects, notices⟩, hearings⟩ := o
  show _ = Outcome.mk _ _ (Trace.append _ _) _
  simp [map, Trace.append]

private theorem after_andThen (before : Trace) (o : Outcome α) (next : α → Seat → Outcome β) :
    (o.after before).andThen next = (o.andThen next).after before := by
  simp only [andThen, after]
  exact congrArg (Outcome.mk _ _ · _) (Trace.append_assoc _ _ _)

/-- An answer with a trace is the answer after the trace. -/
theorem mk_eq_after (answer : α) (seat : Seat) (trace : Trace) :
    ({ answer, seat, trace } : Outcome α) = ({ answer, seat } : Outcome α).after trace := by
  obtain ⟨effects, notices⟩ := trace
  show _ = Outcome.mk _ _ (Trace.append _ _) _
  simp [Trace.append]

end Outcome

/-! ## Calls on services -/

/-- Whether the call leaves a session marked, if it is about the mark of a session at all. -/
def Effect.isLasting : Effect → Bool
  | .setInitialized _ _ value => value
  | _ => true

def Trace.Lasting (trace : Trace) : Prop :=
  ∀ e ∈ trace.effects, e.isLasting = true

namespace Trace

variable {trace : Trace}

private theorem lasting_effect {e : Effect} (h : e.isLasting = true) : (effect e).Lasting := by
  simpa [Lasting] using h

private theorem lasting_notices (h : trace.effects = []) : trace.Lasting := by
  simp [Lasting, h]

theorem Lasting.append {more : Trace} (h : trace.Lasting) (hmore : more.Lasting) :
    (trace ++ more).Lasting := by
  intro e he
  exact (List.mem_append.mp he).elim (h e) (hmore e)

private theorem lasting_concat {traces : List Trace} (h : ∀ trace ∈ traces, trace.Lasting) :
    (concat traces).Lasting := by
  intro e he
  obtain ⟨trace, hmem, he⟩ := List.mem_flatMap.mp he
  exact h trace hmem e he

end Trace

private theorem Router.lasting_attempt (router : Router) (stanza : Stanza)
    (note : RouteError → Notice) : (router.attempt stanza note).Lasting := by
  simp [Trace.Lasting, attempt, Effect.isLasting]

private theorem Session.lasting_attempt (session : Session) (stanza : Stanza)
    (note : RouteError → Notice) : (session.attempt stanza note).Lasting := by
  simp [Trace.Lasting, attempt, Effect.isLasting]

namespace Services

variable (services : Services) (server : Server) (p : Presence)

private theorem effects_keepsTrack (sender receiver : Address) :
    (services.keepsTrack sender receiver).2.effects = [] := by
  unfold keepsTrack
  repeat' split
  all_goals rfl

private theorem lasting_replyError (session : Option Session) (condition : ErrorCondition) :
    (services.replyError p session condition).Lasting :=
  Router.lasting_attempt _ _ _

private theorem lasting_broadcastUpdate : (services.broadcastUpdate server p).Lasting := by
  unfold broadcastUpdate
  repeat' split
  all_goals simp [Trace.Lasting, Effect.isLasting]

private theorem lasting_initSession (session : Session) :
    (services.initSession session).Lasting := by
  have hitems : ∀ items : List RosterItem,
      (Trace.concat (items.map (introduce session))).Lasting := by
    intro items
    refine Trace.lasting_concat fun trace hmem => ?_
    obtain ⟨item, -, rfl⟩ := List.mem_map.mp hmem
    unfold introduce
    refine Trace.Lasting.append ?_ ?_
    · split
      · exact session.lasting_attempt _ _
      · exact Trace.lasting_notices rfl
    · split
      · exact Trace.lasting_effect rfl
      · exact Trace.lasting_notices rfl
  have hmessages : ∀ messages : List Message, (Trace.concat (messages.map fun message =>
      session.attempt (.message message) (.messageNotDelivered session.address))).Lasting := by
    intro messages
    refine Trace.lasting_concat fun trace hmem => ?_
    obtain ⟨message, -, rfl⟩ := List.mem_map.mp hmem
    exact session.lasting_attempt _ _
  unfold initSession
  split
  · exact Trace.lasting_notices rfl
  · split
    · exact Trace.lasting_notices rfl
    · refine Trace.Lasting.append ?_ ?_
      · split
        · split
          · exact hitems _
          · exact Trace.lasting_notices rfl
        · exact Trace.lasting_notices rfl
      · split
        · exact (Trace.lasting_effect rfl).append (hmessages _)
        · exact Trace.lasting_notices rfl

/-- A session that becomes available is marked for good. -/
theorem lasting_becomeAvailable (session : Option Session) :
    (services.becomeAvailable server p session).Lasting := by
  have hupdate := services.lasting_broadcastUpdate server p
  have htold : (Trace.effect (.userAvailable p)).Lasting := Trace.lasting_effect rfl
  cases session with
  | none => exact hupdate.append htold
  | some session =>
    simp only [becomeAvailable]
    split
    · exact Trace.lasting_notices rfl
    · refine Trace.Lasting.append (Trace.Lasting.append ((Trace.lasting_effect rfl).append hupdate)
        ?_) htold
      split
      · exact Trace.lasting_notices rfl
      · exact (services.lasting_initSession session).append (Trace.lasting_effect rfl)

end Services

/-! ## Dealings -/

namespace Seat

/-- At a seat of the server of which `known` holds, the act deals with nothing but senders that
satisfy `who`, and calls on services only in ways that satisfy `tells`. After a write nothing is
known any more but what the write answered. -/
inductive Deals (env : Environment) (server : Server) (who : Address → Prop)
    (tells : Effect → Prop) :
    {α : Type} → (Seat → Prop) → (Seat → Outcome α) → Prop where
  | done {α : Type} {known : Seat → Prop} (answer : α) :
      Deals env server who tells known fun seat => { answer, seat }
  | note {α : Type} {known : Seat → Prop} {act : Seat → Outcome α} (trace : Trace)
      (htells : ∀ e ∈ trace.effects, tells e) (h : Deals env server who tells known act) :
      Deals env server who tells known fun seat => (act seat).after trace
  | congr {α : Type} {known : Seat → Prop} {act act' : Seat → Outcome α}
      (hsame : ∀ seat, seat.node.server = server → known seat → act seat = act' seat)
      (h : Deals env server who tells known act') : Deals env server who tells known act
  | get {α : Type} {known : Seat → Prop} {act : Seat → Outcome α} (key : Address) (hkey : who key)
      (h : ∀ found,
        Deals env server who tells (fun seat => known seat ∧ seat.get key = found) act) :
      Deals env server who tells known act
  | stored {α : Type} {known : Seat → Prop} {act : Seat → Outcome α} (key : Address)
      (hkey : who key)
      (h : ∀ existing?, Deals env server who tells
        (fun seat => known seat ∧ seat.node.store.get? key = existing?) act) :
      Deals env server who tells known act
  | listed {α : Type} {known : Seat → Prop} {act : Seat → Outcome α} (select : Address → Bool)
      (hselect : ∀ key, select key = true → who key)
      (h : ∀ entries : List (Address × Registry), (∀ p ∈ entries, select p.1 = true) →
        Deals env server who tells
          (fun seat => known seat ∧ seat.node.store.toList.filter (select ·.1) = entries) act) :
      Deals env server who tells known act
  | keep {α : Type} {known : Seat → Prop} {act : Seat → Outcome α} (key : Address)
      (registry : Registry) (hkey : who key) (h : Deals env server who tells (fun _ => True) act) :
      Deals env server who tells known fun seat =>
        act (seat.setStore (seat.node.store.insert key registry))
  | forget {α : Type} {known : Seat → Prop} {act : Seat → Outcome α} (key : Address)
      (hkey : who key) (h : Deals env server who tells (fun _ => True) act) :
      Deals env server who tells known fun seat => act (seat.setStore (seat.node.store.remove key))
  | put {α : Type} {known : Seat → Prop}
      {act : Except CacheError (Option Registry) → Seat → Outcome α} (key : Address)
      (value : Registry) (hkey : who key)
      (h : ∀ answer, Deals env server who tells (fun _ => True) (act answer)) :
      Deals env server who tells known fun seat => (seat.put env key value).andThen act
  | remove {α : Type} {known : Seat → Prop}
      {act : Except CacheError (Option Registry) → Seat → Outcome α} (key : Address)
      (hkey : who key) (h : ∀ answer, Deals env server who tells (fun _ => True) (act answer)) :
      Deals env server who tells known fun seat => (seat.remove env key).andThen act

variable {α β : Type} {env : Environment} {server : Server} {who : Address → Prop}
  {tells : Effect → Prop} {known known' : Seat → Prop} {act : Seat → Outcome α}

namespace Deals

/-- What an act does where more is known is what it does. -/
theorem mono (h : Deals env server who tells known act) (himp : ∀ seat, known' seat → known seat) :
    Deals env server who tells known' act := by
  induction h generalizing known' with
  | done answer => exact .done answer
  | note trace htells _ ih => exact .note trace htells (ih himp)
  | congr hsame _ ih =>
    exact .congr (fun seat hserver hknown => hsame seat hserver (himp seat hknown)) (ih himp)
  | get key hkey _ ih =>
    exact .get key hkey fun found => ih found fun seat hseat => ⟨himp seat hseat.1, hseat.2⟩
  | stored key hkey _ ih =>
    exact .stored key hkey fun existing? => ih existing? fun seat hseat =>
      ⟨himp seat hseat.1, hseat.2⟩
  | listed select hselect _ ih =>
    exact .listed select hselect fun entries hentries => ih entries hentries fun seat hseat =>
      ⟨himp seat hseat.1, hseat.2⟩
  | keep key registry hkey h _ => exact .keep key registry hkey h
  | forget key hkey h _ => exact .forget key hkey h
  | put key value hkey h _ => exact .put key value hkey h
  | remove key hkey h _ => exact .remove key hkey h

theorem andThen (h : Deals env server who tells known act) {next : α → Seat → Outcome β}
    (hnext : ∀ a, Deals env server who tells (fun _ => True) (next a)) :
    Deals env server who tells known fun seat => (act seat).andThen next := by
  induction h with
  | done answer => exact (hnext answer).mono fun _ _ => trivial
  | note trace htells _ ih =>
    exact .congr (fun _ _ _ => Outcome.after_andThen _ _ _) (.note trace htells ih)
  | congr hsame _ ih =>
    refine .congr (fun seat hserver hknown => ?_) ih
    rw [hsame seat hserver hknown]
  | get key hkey _ ih => exact .get key hkey ih
  | stored key hkey _ ih => exact .stored key hkey ih
  | listed select hselect _ ih =>
    exact .listed select hselect ih
  | keep key registry hkey _ ih => exact .keep key registry hkey ih
  | forget key hkey _ ih => exact .forget key hkey ih
  | put key value hkey _ ih =>
    exact .congr (fun _ _ _ => Outcome.andThen_assoc _ _ _)
      (.put key value hkey ih)
  | remove key hkey _ ih =>
    exact .congr (fun _ _ _ => Outcome.andThen_assoc _ _ _)
      (.remove key hkey ih)

theorem map (h : Deals env server who tells known act) (f : α → β) :
    Deals env server who tells known fun seat => (act seat).map f :=
  .congr (fun _ _ _ => Outcome.map_eq_andThen f _) (h.andThen fun a => .done (f a))

theorem report (answer : α) (trace : Trace) (htells : ∀ e ∈ trace.effects, tells e) :
    Deals env server who tells known fun seat => { answer, seat, trace } :=
  .congr (fun seat _ _ => Outcome.mk_eq_after answer seat trace) (.note trace htells (.done answer))

/-- An act that comes to an answer where something is known. -/
theorem done_of (answer : α)
    (hsame : ∀ seat, seat.node.server = server → known seat → act seat = { answer, seat }) :
    Deals env server who tells known act :=
  .congr hsame (.done answer)

/-- An act that comes to an answer and a trace where something is known. -/
theorem report_of (answer : α) (trace : Trace) (htells : ∀ e ∈ trace.effects, tells e)
    (hsame : ∀ seat, seat.node.server = server → known seat → act seat = { answer, seat, trace }) :
    Deals env server who tells known act :=
  .congr hsame (report answer trace htells)

/-- The outcome of a write is its answer. -/
theorem write {write : Seat → Outcome α}
    (h : ∀ next : α → Seat → Outcome α, (∀ a, Deals env server who tells (fun _ => True) (next a)) →
      Deals env server who tells known fun seat => (write seat).andThen next) :
    Deals env server who tells known write :=
  .congr (fun _ _ _ => Outcome.map_eq_andThen id _) (h _ .done)

private theorem put' (key : Address) (value : Registry) (hkey : who key) :
    Deals env server who tells known fun seat => seat.put env key value :=
  write fun _ => .put key value hkey

private theorem remove' (key : Address) (hkey : who key) :
    Deals env server who tells known fun seat => seat.remove env key :=
  write fun _ => .remove key hkey

end Deals

/-! ## Tracking -/

section Tracking

variable {sender : Address} (hwho : who sender)
include hwho

private theorem deals_publish (registry : Registry) :
    Deals env server who tells known fun seat => seat.publish env sender registry := by
  have hput : Deals env server who tells (fun _ => True) fun seat =>
      (seat.put env sender registry).map fun answer =>
        (answer.mapError PresenceError.cache).map fun _ => () :=
    (Deals.put' sender registry hwho).map _
  refine .congr (fun seat _ _ => ?_) (.keep sender registry hwho hput)
  exact congrArg (Outcome.map · _) (funext fun answer => by cases answer <;> rfl)

private theorem deals_withdraw :
    Deals env server who tells known fun seat => seat.withdraw env sender := by
  refine .remove sender hwho fun answer => ?_
  cases answer with
  | ok removed => exact .forget sender hwho (.done _)
  | error cause => exact .done _

private theorem deals_recordPair (kind : PresenceKind) (handler receiver : Address) :
    Deals env server who tells known fun seat =>
      seat.recordPair env kind sender handler receiver := by
  refine .get sender hwho fun found => ?_
  cases found with
  | error cause =>
    refine .done_of (.error (.cache cause)) ?_
    rintro seat - ⟨-, hfound⟩
    simp only [recordPair, hfound]
  | ok existing =>
    by_cases hkind : kind = .unavailable
    · cases existing with
      | none =>
        refine .done_of (.ok ()) ?_
        rintro seat - ⟨-, hfound⟩
        simp only [recordPair, hfound, if_pos hkind]
      | some registry =>
        cases hleft : (registry.remove handler receiver).1.isEmpty with
        | true =>
          refine .congr ?_ (deals_withdraw hwho)
          rintro seat - ⟨-, hfound⟩
          simp only [recordPair, hfound, if_pos hkind, hleft, if_true]
        | false =>
          refine .congr ?_ (deals_publish hwho (registry.remove handler receiver).1)
          rintro seat - ⟨-, hfound⟩
          simp only [recordPair, hfound, if_pos hkind, hleft, Bool.false_eq_true, if_false]
    · refine .congr ?_
        (deals_publish hwho ((existing.getD .empty).add handler server.node receiver).1)
      rintro seat hserver ⟨-, hfound⟩
      simp only [recordPair, hfound, if_neg hkind, Node.id, hserver]

private theorem deals_keepOrRemove (left : Registry) : Deals env server who tells known fun seat =>
    if left.isEmpty then seat.remove env sender else seat.put env sender left := by
  cases left.isEmpty with
  | true => exact .remove' sender hwho
  | false => exact .put' sender left hwho

/-- The store's copy of a sender is changed, where there is one. -/
theorem deals_modify {β : Type} (change : Registry → Registry × β)
    {act : Option β → Seat → Outcome α}
    (hact : ∀ answer, Deals env server who tells (fun _ => True) (act answer)) :
    Deals env server who tells known fun seat =>
      act (seat.node.store.modify sender change).2
        (seat.setStore (seat.node.store.modify sender change).1) := by
  refine .stored sender hwho fun existing? => ?_
  cases existing? with
  | none =>
    refine .congr ?_ ((hact none).mono fun _ _ => trivial)
    rintro seat - ⟨-, hstored⟩
    simp only [Store.modify, hstored]
    rfl
  | some registry =>
    refine .congr ?_ (.keep sender (change registry).1 hwho (hact (some (change registry).2)))
    rintro seat - ⟨-, hstored⟩
    simp only [Store.modify, hstored]

theorem deals_removeDirected (recipient : Address) :
    Deals env server who tells known fun seat => seat.removeDirected env sender recipient := by
  refine .get sender hwho fun found => ?_
  cases found with
  | error cause =>
    refine .done_of (.error (.cache cause)) ?_
    rintro seat - ⟨-, hfound⟩
    simp only [removeDirected, hfound]
  | ok existing =>
    cases existing with
    | none =>
      refine .done_of (.ok 0) ?_
      rintro seat - ⟨-, hfound⟩
      simp only [removeDirected, hfound]
    | some registry =>
      by_cases hcount : (registry.removeAccount recipient).2 = 0
      · refine .done_of (.ok 0) ?_
        rintro seat - ⟨-, hfound⟩
        simp only [removeDirected, hfound, if_pos hcount]
      · apply Deals.congr
        case hsame =>
          rintro seat - ⟨-, hfound⟩
          simp only [removeDirected, hfound]
          exact if_neg hcount
        case h =>
          refine (deals_keepOrRemove hwho _).andThen fun answer => ?_
          cases answer with
          | error cause => exact .done _
          | ok previous => exact deals_modify hwho (·.removeAccount recipient) fun _ => .done _

end Tracking

theorem deals_dropDirected (contact : Address) {senders : List Address}
    (hwho : ∀ sender ∈ senders, who sender) :
    Deals env server who tells known fun seat => dropDirected env contact senders seat := by
  induction senders generalizing known with
  | nil => exact .done ()
  | cons sender senders ih =>
    refine (deals_removeDirected (hwho sender (by simp)) contact).andThen fun answer => ?_
    refine .note _ ?_ (ih fun other hmem => hwho other (by simp [hmem]))
    cases answer <;> simp

private theorem deals_directedSent {update : Presence} (handler receiver : Address)
    (hwho : ∀ sender ∈ update.sender, who sender) :
    Deals env server who tells known fun seat => seat.directedSent env update handler receiver := by
  cases hsender : update.sender with
  | none =>
    refine .done_of (.ok ()) fun seat _ _ => ?_
    simp only [directedSent, hsender]
  | some sender =>
    by_cases hlocal : server.isLocal sender = true
    · cases hkeep : ((env server.node).keepsTrack sender receiver).1 with
      | true =>
        refine .congr ?_ (.note ((env server.node).keepsTrack sender receiver).2
          (by simp [Services.effects_keepsTrack])
          (deals_recordPair (hwho sender hsender) update.kind handler receiver))
        rintro seat rfl -
        simp only [directedSent, hsender, hlocal, services, Node.id, hkeep, Bool.not_true,
          Bool.false_eq_true, if_false, if_true]
      | false =>
        refine .report_of (.ok ()) ((env server.node).keepsTrack sender receiver).2
          (by simp [Services.effects_keepsTrack]) ?_
        rintro seat rfl -
        simp only [directedSent, hsender, hlocal, services, Node.id, hkeep, Bool.not_true,
          Bool.false_eq_true, if_false]
    · refine .done_of (.ok ()) ?_
      rintro seat rfl -
      simp only [directedSent, hsender, Bool.not_eq_true] at hlocal ⊢
      simp only [hlocal, Bool.not_false, if_true]

private theorem deals_processDirected {p : Presence} (handler : Address)
    (hwho : ∀ sender ∈ p.sender, who sender)
    (htells : ∀ failure, tells (.route (.presence p) failure)) :
    Deals env server who tells known fun seat => seat.processDirected env p handler := by
  cases hrecipient : p.recipient with
  | none =>
    refine .done_of (.error (.route .missingRecipient)) fun seat _ _ => ?_
    simp only [processDirected, hrecipient]
  | some receiver =>
    cases hfailure : (env server.node).router (.presence p) with
    | some cause =>
      refine .report_of (.error (.route cause))
        (.effect (.route (.presence p) (some cause))) (by simp [htells]) ?_
      rintro seat rfl -
      simp only [processDirected, hrecipient, services, Node.id, hfailure]
    | none =>
      refine .congr ?_ (.note (.effect (.route (.presence p) none)) (by simp [htells])
        (deals_directedSent handler receiver hwho))
      rintro seat rfl -
      simp only [processDirected, hrecipient, services, Node.id, hfailure]

private theorem deals_hasDirected {owner : Address} (hwho : who owner) (recipient : Address) :
    Deals env server who tells known fun seat => seat.hasDirected owner recipient := by
  refine .get owner hwho fun found => ?_
  cases found with
  | ok existing? =>
    refine .done_of (existing?.any (·.hasAccount recipient)) ?_
    rintro seat - ⟨-, hfound⟩
    simp only [hasDirected, hfound]
  | error cause =>
    refine .report_of false (.notice (.readFailed owner cause)) (by simp) ?_
    rintro seat - ⟨-, hfound⟩
    simp only [hasDirected, hfound]

/-! ## Dispatch -/

/-- The trace of a retraction: the cache has answered the removal, and the store has a copy. -/
def retractionTrace (services : Services) (update : Presence) (sender : Address)
    (answer : Except CacheError (Option Registry)) (stored : Option Registry) : Trace :=
  let (known, trace) := match answer with
    | .ok cached => (cached <|> stored, Trace.empty)
    | .error cause => (stored, Trace.notice (.removalFailed sender cause))
  trace ++ Trace.concat ((known.getD .empty).pairs.map fun (_, receiver) =>
    services.router.attempt (.presence (update.readdressed receiver))
      (.retractionNotRouted sender receiver))

private theorem retract_of_local {seat : Seat} {update : Presence} {sender : Address}
    (hsender : update.sender = some sender) (hserver : seat.node.server = server)
    (hlocal : server.isLocal sender = true) :
    seat.retract env update = (seat.remove env sender).andThen fun answer after =>
      { answer := ()
        seat := after.setStore (after.node.store.remove sender)
        trace := retractionTrace (env server.node) update sender answer
          (after.node.store.get? sender) } := by
  have hservices : (seat.remove env sender).seat.services env = env server.node := by
    rw [services, (sameNode_remove seat env sender).id, Node.id, hserver]
  simp only [retract, hsender, hserver, hlocal, Bool.not_true, Bool.false_eq_true, if_false,
    Outcome.andThen, hservices]
  rfl

private theorem lasting_retractionTrace (services : Services) (update : Presence) (sender : Address)
    (answer : Except CacheError (Option Registry)) (stored : Option Registry) :
    (retractionTrace services update sender answer stored).Lasting := by
  refine Trace.Lasting.append ?_ (Trace.lasting_concat ?_)
  · cases answer <;> exact Trace.lasting_notices rfl
  · rintro trace hmem
    obtain ⟨pair, -, rfl⟩ := List.mem_map.mp hmem
    exact Router.lasting_attempt _ _ _

private theorem deals_retract {update : Presence} (hwho : ∀ sender ∈ update.sender, who sender)
    (htells : ∀ e : Effect, e.isLasting = true → tells e) :
    Deals env server who tells known fun seat => seat.retract env update := by
  cases hsender : update.sender with
  | none =>
    refine .done_of () fun seat _ _ => ?_
    simp only [retract, hsender]
  | some sender =>
    by_cases hlocal : server.isLocal sender = true
    · refine .congr (fun seat hserver _ => retract_of_local hsender hserver hlocal)
        (.remove sender (hwho sender hsender) fun answer => ?_)
      refine .stored sender (hwho sender hsender) fun stored => ?_
      refine .congr (fun seat _ hstored => ?_) (.forget sender (hwho sender hsender) (.report ()
        (retractionTrace (env server.node) update sender answer stored)
        fun e he => htells e (lasting_retractionTrace _ _ _ _ _ e he)))
      rw [← hstored.2]
    · refine .done_of () ?_
      rintro seat rfl -
      simp only [retract, hsender, Bool.not_eq_true] at hlocal ⊢
      simp only [hlocal, Bool.not_false, if_true]

theorem deals_manageSubscription {p : Presence}
    (hwho : ∀ account ∈ p.sender, ∀ sender : Address, sender.sameBare account = true → who sender)
    (htells : tells (.subscription p)) :
    Deals env server who tells known fun seat => seat.manageSubscription env p := by
  cases hhandled : (env server.node).roster.handle p with
  | error cause =>
    cases cause with
    | userNotFound user =>
      refine .report_of ()
        (Trace.effect (.subscription p) ++ .notice (.unknownUser user)) (by simp [htells]) ?_
      rintro seat rfl -
      simp only [manageSubscription, services, Node.id, hhandled]
    | unavailable reason =>
      refine .report_of () (Trace.effect (.subscription p) ++
        .notice (.processingFailed (.roster (.unavailable reason)))) (by simp [htells]) ?_
      rintro seat rfl -
      simp only [manageSubscription, services, Node.id, hhandled]
  | ok =>
    by_cases hgrant : p.kind = .subscribed ∧ p.sender.isSome ∧ p.recipient.isSome
    · obtain ⟨hkind, hsender, hrecipient⟩ := hgrant
      obtain ⟨account, hsender⟩ := Option.isSome_iff_exists.mp hsender
      obtain ⟨contact, hrecipient⟩ := Option.isSome_iff_exists.mp hrecipient
      refine .listed (·.sameBare account) (hwho account hsender) fun entries hentries => ?_
      have hsenders : ∀ sender ∈ entries.map Prod.fst, who sender := by
        intro sender hmem
        obtain ⟨p, hp, rfl⟩ := List.mem_map.mp hmem
        exact hwho account hsender p.1 (hentries p hp)
      refine .congr ?_ (.note (.effect (.subscription p)) (by simp [htells])
        (deals_dropDirected contact hsenders))
      rintro seat rfl ⟨-, hlisted⟩
      have hlisting : (Orders.inForce.senders seat.node.store.senders).filter
          (·.sameBare account) = entries.map Prod.fst := by
        show seat.node.store.senders.filter _ = _
        rw [← hlisted, ← Store.map_fst_toList, List.filter_map]
        rfl
      simp only [manageSubscription, services, Node.id, hhandled, hkind, hsender, hrecipient,
        hlisting]
    · refine .report_of () (.effect (.subscription p)) (by simp [htells]) ?_
      rintro seat rfl -
      simp only [manageSubscription, services, Node.id, hhandled]
      split
      · next hkind hsender hrecipient => simp [hkind, hsender, hrecipient] at hgrant
      · rfl

theorem deals_process {p : Presence}
    (hwho : ∀ account ∈ p.sender, ∀ sender : Address, sender.sameBare account = true → who sender)
    (htells : ∀ e : Effect, e.isLasting = true → tells e) :
    Deals env server who tells known fun seat => seat.process env p := by
  have hself : ∀ sender ∈ p.sender, who sender := fun sender hsender =>
    hwho sender hsender sender (by simp [Address.sameBare])
  by_cases hadmitted : (p.sender.bind (env server.node).session).any (!·.authenticated) = true
  · refine .report_of () ((env server.node).replyError p
      (p.sender.bind (env server.node).session) .notAuthorized)
      (fun e he => htells e (Services.lasting_replyError _ _ _ _ e he)) ?_
    rintro seat rfl -
    simp only [process, services, Node.id, hadmitted, if_true]
  · cases hkind : p.kind with
    | available =>
      refine .report_of () ((env server.node).becomeAvailable server p
        (p.sender.bind (env server.node).session))
        (fun e he => htells e (Services.lasting_becomeAvailable _ _ _ _ e he)) ?_
      rintro seat rfl -
      simp only [process, services, Node.id, if_neg hadmitted, hkind]
    | unavailable =>
      have htold : ∀ _ : Unit, Deals env server who tells (fun _ => True) fun seat =>
          { answer := (), seat, trace := .effect (.userUnavailable p) } :=
        fun _ => .report () _ fun e he => htells e (Trace.lasting_effect rfl e he)
      refine .congr (fun seat hserver _ => ?_) (.note
        ((p.sender.bind (env server.node).session).elim .empty
          (fun session => .effect (.setPresence session.address p)) ++
            (env server.node).broadcastUpdate server p) ?_
        ((deals_retract hself htells).andThen htold))
      · subst hserver
        simp only [process, services, Node.id, if_neg hadmitted, hkind]
        cases p.sender.bind (env seat.node.server.node).session <;>
          exact congrArg₂ (Outcome.mk _ _) (Trace.append_assoc _ _ _) (List.append_nil _).symm
      · intro e he
        refine htells e (Trace.Lasting.append ?_ (Services.lasting_broadcastUpdate _ _ _) e he)
        cases p.sender.bind (env server.node).session with
        | none => exact Trace.lasting_notices rfl
        | some session => exact Trace.lasting_effect rfl
    | subscribe | subscribed | unsubscribe | unsubscribed =>
      refine .congr ?_ (deals_manageSubscription hwho (htells _ rfl))
      rintro seat rfl -
      simp only [process, services, Node.id, if_neg hadmitted, hkind]
    | error | probe =>
      refine .report_of () ((env server.node).replyError p
        (p.sender.bind (env server.node).session) .badRequest)
        (fun e he => htells e (Services.lasting_replyError _ _ _ _ e he)) ?_
      rintro seat rfl -
      simp only [process, services, Node.id, if_neg hadmitted, hkind]

/-! ## Sweeps -/

/-- The trace of a sweep of the cache, by its answer. -/
def sweepTrace (sender : Address) : Except CacheError Unit → Trace
  | .ok () => .empty
  | .error cause => .notice (.sweepFailed sender cause)

section Sweeps

variable {sender : Address} (hwho : who sender)
include hwho

private theorem deals_sweepCached :
    Deals env server who tells known fun seat => seat.sweepCached env sender := by
  refine .get sender hwho fun found => ?_
  cases found with
  | error cause =>
    refine .done_of (.error cause) ?_
    rintro seat - ⟨-, hfound⟩
    simp only [sweepCached, hfound]
  | ok existing =>
    cases existing with
    | none =>
      refine .done_of (.ok ()) ?_
      rintro seat - ⟨-, hfound⟩
      simp only [sweepCached, hfound]
    | some registry =>
      by_cases hdropped :
          (registry.retain (HandlerEntry.isServed (env server.node).routes)).2 = 0
      · refine .done_of (.ok ()) ?_
        rintro seat rfl ⟨-, hfound⟩
        simp only [sweepCached, hfound, services, Node.id]
        exact if_pos hdropped
      · refine .congr ?_ ((deals_keepOrRemove hwho
          (registry.retain (HandlerEntry.isServed (env server.node).routes)).1).map
            fun answer => answer.map fun _ => ())
        rintro seat rfl ⟨-, hfound⟩
        simp only [sweepCached, hfound, services, Node.id]
        exact if_neg hdropped

theorem deals_sweepSender :
    Deals env server who tells known fun seat => seat.sweepSender env sender := by
  have hcached : ∀ dropped : Option Nat, Deals env server who tells (fun _ => True) fun seat =>
      (seat.sweepCached env sender).andThen fun answer seat =>
        { answer := dropped.getD 0, seat, trace := sweepTrace sender answer } :=
    fun dropped => (deals_sweepCached hwho).andThen fun answer =>
      .report _ _ (by cases answer <;> simp [sweepTrace])
  refine .congr (fun seat hserver _ => ?_) (deals_modify hwho
    (·.retain (HandlerEntry.isServed (env server.node).routes)) hcached)
  subst hserver
  rfl

end Sweeps

private theorem deals_sweepEach {registries : List (Address × Registry)}
    (hwho : ∀ p ∈ registries, who p.1) :
    Deals env server who tells known fun seat => sweepEach env registries seat := by
  induction registries generalizing known with
  | nil => exact .done 0
  | cons p rest ih =>
    have hrest : ∀ p ∈ rest, who p.1 := fun other hmem => hwho other (by simp [hmem])
    by_cases hserved : p.2.entries.all (HandlerEntry.isServed (env server.node).routes) = true
    · refine .congr ?_ (ih hrest)
      rintro seat rfl -
      simp only [sweepEach, services, Node.id, hserved, if_true]
    · refine .congr ?_ ((deals_sweepSender (hwho p (by simp))).andThen fun dropped =>
        (ih hrest).map (dropped + ·))
      rintro seat rfl -
      simp only [sweepEach, services, Node.id]
      exact if_neg hserved

theorem deals_sweep (hwho : ∀ sender, who sender) :
    Deals env server who tells known fun seat => seat.sweep env := by
  refine .listed (fun _ => true) (fun sender _ => hwho sender) fun entries _ => ?_
  have heach : Deals env server who tells
      (fun seat => known seat ∧ seat.node.store.toList.filter (fun _ => true) = entries)
      (sweepEach env entries) := deals_sweepEach fun p _ => hwho p.1
  refine .congr (fun seat _ hlisted => ?_) heach
  rw [List.filter_eq_self.mpr fun _ _ => rfl] at hlisted
  rw [sweep, hlisted.2]

/-! ## Refilling -/

theorem deals_restore {registries : List (Address × Registry)}
    (hwho : ∀ p ∈ registries, who p.1) :
    Deals env server who tells known fun seat => restore env registries seat := by
  induction registries generalizing known with
  | nil => exact .done ()
  | cons p rest ih =>
    refine .put p.1 p.2 (hwho p (by simp)) fun answer => ?_
    refine .note _ ?_ (ih fun other hmem => hwho other (by simp [hmem]))
    cases answer <;> simp

end Seat

/-- Whether the operation does no more than read and write the store and the cache of its node. -/
def Operation.isDealing : Operation → Bool
  | .process _ | .processDirected .. | .directedSent .. | .hasDirected .. | .removeDirected ..
  | .sweep | .storeInsert .. | .storeRemove _ | .cachePut .. | .cacheRemove _ => true
  | .membership _ | .shutdown | .hubLeave _ | .hubEvict _ | .hubEvictNode _ | .hubClear _
  | .failCache _ => false

/-- The senders that an operation may look up or change. For a stanza these are all senders of the
account that it comes from, since a subscription concerns them all. -/
def Operation.Accesses (operation : Operation) (key : Address) : Prop :=
  match operation with
  | .process p => ∃ account, p.sender = some account ∧ key.sameBare account = true
  | .processDirected p _ | .directedSent p _ _ => p.sender = some key
  | .hasDirected owner _ | .removeDirected owner _ => key = owner
  | .sweep => True
  | .storeInsert sender _ | .storeRemove sender => key = sender
  | .cachePut sender _ | .cacheRemove sender => key = sender
  | _ => False

/-- The calls on services that an operation may make. Only the processing of a stanza and the
relaying of one call any. -/
def Operation.Tells (operation : Operation) (e : Effect) : Prop :=
  match operation with
  | .process _ => e.isLasting = true
  | .processDirected p _ => ∃ failure, e = .route (.presence p) failure
  | _ => False

namespace Seat

/-- An operation deals with the senders that it may access, and with no others. -/
theorem deals_perform (env : Environment) (server : Server) {operation : Operation}
    (hdealing : operation.isDealing = true) :
    Deals env server operation.Accesses operation.Tells (fun _ => True)
      fun seat => seat.perform env operation := by
  cases operation with
  | process p =>
    have hwho : ∀ account ∈ p.sender, ∀ sender : Address, sender.sameBare account = true →
        (Operation.process p).Accesses sender :=
      fun account hsender _ hsame => ⟨account, hsender, hsame⟩
    exact (deals_process hwho fun _ h => h).map fun _ => Answer.done
  | processDirected p handler =>
    have hwho : ∀ sender ∈ p.sender, (Operation.processDirected p handler).Accesses sender :=
      fun _ hsender => hsender
    exact (deals_processDirected handler hwho fun failure => ⟨failure, rfl⟩).map _
  | directedSent p handler receiver =>
    have hwho : ∀ sender ∈ p.sender, (Operation.directedSent p handler receiver).Accesses sender :=
      fun _ hsender => hsender
    exact (deals_directedSent handler receiver hwho).map _
  | hasDirected owner recipient =>
    have hwho : (Operation.hasDirected owner recipient).Accesses owner := rfl
    exact (deals_hasDirected hwho recipient).map _
  | removeDirected owner recipient =>
    have hwho : (Operation.removeDirected owner recipient).Accesses owner := rfl
    exact (deals_removeDirected hwho recipient).map _
  | sweep =>
    have hwho : ∀ sender, Operation.sweep.Accesses sender := fun _ => trivial
    exact (deals_sweep hwho).map _
  | storeInsert sender registry =>
    have hwho : (Operation.storeInsert sender registry).Accesses sender := rfl
    refine .stored sender hwho fun stored => ?_
    refine .congr (fun seat _ hstored => ?_)
      (.keep sender registry hwho (.done (Answer.registry stored)))
    rw [perform, hstored.2]
  | storeRemove sender =>
    have hwho : (Operation.storeRemove sender).Accesses sender := rfl
    refine .stored sender hwho fun stored => ?_
    refine .congr (fun seat _ hstored => ?_)
      (.forget sender hwho (.done (Answer.registry stored)))
    rw [perform, hstored.2]
  | cachePut key value =>
    have hwho : (Operation.cachePut key value).Accesses key := rfl
    exact (Deals.put' key value hwho).map _
  | cacheRemove key =>
    have hwho : (Operation.cacheRemove key).Accesses key := rfl
    exact (Deals.remove' key hwho).map _
  | membership | shutdown | hubLeave | hubEvict | hubEvictNode | hubClear | failCache =>
    cases hdealing

end Seat

end DirectedPresence
