import DirectedPresence.Proofs.SeatEdits

/-!
What the calls of the dispatcher and the sweeps come down to, for the seat of a node and for a
ledger. A ledger gives each sender a set of pairs of a handler and a receiver; `Ledger.after` says
what an operation makes of it, without any registry, store or cache. Whatever such an operation is
about, it does one deed (`Seat.perform_deed`): it records or takes back one delivery, it forgets a
sender, it removes an account from one sender or from all senders of another account, it sweeps, or
it does nothing. What is proved of the operations is proved for each deed.
-/

namespace DirectedPresence

/-- For each sender a set of pairs of a handler and a receiver. -/
abbrev Ledger := Address → Finset (Address × Address)

namespace Ledger

/-- The ledger after `update` was delivered to `receiver` through `handler`. -/
def directedSent (services : Services) (server : Server) (update : Presence)
    (handler receiver : Address) (ledger : Ledger) : Ledger :=
  match update.sender with
  | none => ledger
  | some sender =>
    if server.isLocal sender && (services.keepsTrack sender receiver).1 then
      Function.update ledger sender
        (if update.kind = .unavailable then (ledger sender).erase (handler, receiver)
          else insert (handler, receiver) (ledger sender))
    else ledger

/-- The ledger after the senders that satisfy `who` lost the receivers of one account. -/
def dropAccount (contact : Address) (who : Address → Bool) (ledger : Ledger) : Ledger :=
  fun sender =>
    if who sender then (ledger sender).filter fun pair => !pair.2.sameBare contact
    else ledger sender

theorem dropAccount_eq_update (contact owner : Address) (ledger : Ledger) :
    ledger.dropAccount contact (· = owner) =
      Function.update ledger owner
        ((ledger owner).filter fun pair => !pair.2.sameBare contact) := by
  funext other
  rw [dropAccount, Function.update_apply]
  by_cases heq : other = owner <;> simp [heq]

theorem dropAccount_subset {contact : Address} {who : Address → Bool} {ledger : Ledger}
    (sender : Address) : ledger.dropAccount contact who sender ⊆ ledger sender := by
  unfold dropAccount
  split
  · exact Finset.filter_subset _ _
  · exact subset_rfl

/-- The ledger after a local entity sent a presence. -/
def process (services : Services) (server : Server) (p : Presence) (ledger : Ledger) : Ledger :=
  if (p.sender.bind services.session).any (!·.authenticated) then ledger
  else
    match p.kind with
    | .unavailable =>
      match p.sender with
      | none => ledger
      | some sender => if server.isLocal sender then Function.update ledger sender ∅ else ledger
    | .subscribed =>
      match services.roster.handle p, p.sender, p.recipient with
      | .ok (), some account, some contact => ledger.dropAccount contact (·.sameBare account)
      | _, _, _ => ledger
    | _ => ledger

def reached (routes : Routes) (ledger : Ledger) : Ledger :=
  fun sender => (ledger sender).filter fun pair => routes.reaches pair.1

def lost (routes : Routes) (ledger : Ledger) (sender : Address) : Finset Address :=
  ((ledger sender).filter fun pair => !routes.reaches pair.1).image Prod.fst

/-- The ledger after an operation of a node. -/
def after (services : Services) (server : Server) (operation : Operation) (ledger : Ledger) :
    Ledger :=
  match operation with
  | .process p => ledger.process services server p
  | .processDirected p handler =>
    match p.recipient, services.router (.presence p) with
    | some receiver, none => ledger.directedSent services server p handler receiver
    | _, _ => ledger
  | .directedSent p handler receiver => ledger.directedSent services server p handler receiver
  | .removeDirected owner recipient => ledger.dropAccount recipient (· = owner)
  | .sweep => ledger.reached services.routes
  | _ => ledger

end Ledger

namespace Operation

/-- The sender whose directed presences an operation is about. A stanza that only announces, asks
or answers something is about no one: what it changes are senders that the node knows from its
store. -/
def tracked? : Operation → Option Address
  | .process p => if p.kind = .unavailable then p.sender else none
  | .processDirected p _ | .directedSent p _ _ => p.sender
  | .removeDirected owner _ => some owner
  | _ => none

/-- Whether the operation is a call of the dispatcher or a sweep. -/
def isTracking : Operation → Bool
  | .process _ | .processDirected .. | .directedSent .. | .hasDirected .. | .removeDirected ..
  | .sweep => true
  | _ => false

end Operation

/-! ## Deliveries -/

/-- A delivery of which a node takes note. -/
structure Delivery where
  kind : PresenceKind
  sender : Address
  handler : Address
  receiver : Address

/-- The pair that is recorded, or taken back. -/
def Delivery.pair (delivery : Delivery) : Address × Address :=
  (delivery.handler, delivery.receiver)

/-- What is taken note of when `update` was delivered to `receiver` through `handler`. -/
def Presence.delivery? (services : Services) (server : Server) (update : Presence)
    (handler receiver : Address) : Option Delivery :=
  match update.sender with
  | none => none
  | some sender =>
    if server.isLocal sender && (services.keepsTrack sender receiver).1 then
      some ⟨update.kind, sender, handler, receiver⟩
    else none

/-- The delivery of which an operation takes note. -/
def Operation.delivery? (services : Services) (server : Server) : Operation → Option Delivery
  | .processDirected p handler =>
    match p.recipient, services.router (.presence p) with
    | some receiver, none => p.delivery? services server handler receiver
    | _, _ => none
  | .directedSent p handler receiver => p.delivery? services server handler receiver
  | _ => none

/-- The ledger after a delivery was taken note of. -/
def Ledger.record (delivery : Delivery) (ledger : Ledger) : Ledger :=
  Function.update ledger delivery.sender
    (if delivery.kind = .unavailable then (ledger delivery.sender).erase delivery.pair
      else insert delivery.pair (ledger delivery.sender))

def Ledger.noting (delivery : Option Delivery) (ledger : Ledger) : Ledger :=
  delivery.elim ledger (ledger.record ·)

section Deliveries

variable {services : Services} {server : Server} {delivery : Delivery}

/-- The delivery is one of the sender of the presence, who is local and is tracked. -/
theorem Presence.sender_of_delivery? {update : Presence} {handler receiver : Address}
    (h : update.delivery? services server handler receiver = some delivery) :
    update.sender = some delivery.sender ∧ server.isLocal delivery.sender = true ∧
      (services.keepsTrack delivery.sender delivery.receiver).1 = true := by
  unfold delivery? at h
  split at h
  · cases h
  · next sender hsender =>
    obtain ⟨hkept, hsame⟩ := Option.ite_none_right_eq_some.mp h
    cases hsame
    exact ⟨hsender, Bool.and_eq_true_iff.mp hkept⟩

theorem Operation.sender_of_delivery? {operation : Operation}
    (h : operation.delivery? services server = some delivery) :
    operation.tracked? = some delivery.sender ∧ server.isLocal delivery.sender = true ∧
      (services.keepsTrack delivery.sender delivery.receiver).1 = true := by
  cases operation with
  | directedSent p handler receiver => exact Presence.sender_of_delivery? h
  | processDirected p handler =>
    simp only [delivery?] at h
    split at h
    · exact Presence.sender_of_delivery? h
    · cases h
  | _ => cases h

theorem Ledger.directedSent_eq (ledger : Ledger) (update : Presence) (handler receiver : Address) :
    ledger.directedSent services server update handler receiver =
      ledger.noting (update.delivery? services server handler receiver) := by
  unfold directedSent Presence.delivery?
  cases update.sender with
  | none => rfl
  | some sender =>
    simp only
    split <;> rfl

theorem Ledger.after_processDirected (ledger : Ledger) (p : Presence) (handler : Address) :
    ledger.after services server (.processDirected p handler) =
      ledger.noting ((Operation.processDirected p handler).delivery? services server) := by
  simp only [after, Operation.delivery?]
  split
  · exact ledger.directedSent_eq p handler _
  · rfl

theorem Ledger.after_of_delivery? {operation : Operation} (ledger : Ledger)
    (h : operation.delivery? services server = some delivery) :
    ledger.after services server operation = ledger.record delivery := by
  show _ = ledger.noting (some delivery)
  rw [← h]
  cases operation with
  | processDirected p handler => exact ledger.after_processDirected p handler
  | directedSent p handler receiver => exact ledger.directedSent_eq p handler receiver
  | _ => cases h

end Deliveries

namespace Seat

def forgetting (env : Environment) (seat : Seat) (sender : Address) : Seat :=
  (seat.remove env sender).seat.setStore (seat.node.store.remove sender)

def noting (env : Environment) (seat : Seat) (delivery : Option Delivery) : Seat :=
  delivery.elim seat fun delivery => (seat.recordPair env delivery.kind delivery.sender
    delivery.handler delivery.receiver).seat

/-- What an operation does to the seat of a node, and to a ledger. -/
inductive Deed (env : Environment) (seat : Seat) (ledger : Ledger) (operation : Operation) :
    Seat → Ledger → Prop where
  | idle : Deed env seat ledger operation seat ledger
  | record (delivery : Delivery)
      (delivered : operation.delivery? (seat.services env) seat.node.server = some delivery) :
      Deed env seat ledger operation
        (seat.recordPair env delivery.kind delivery.sender delivery.handler delivery.receiver).seat
        (ledger.record delivery)
  | forget (sender : Address) (tracked : operation.tracked? = some sender) :
      Deed env seat ledger operation (seat.forgetting env sender) (Function.update ledger sender ∅)
  | remove (owner recipient : Address) (tracked : operation.tracked? = some owner) :
      Deed env seat ledger operation (seat.removeDirected env owner recipient).seat
        (ledger.dropAccount recipient (· = owner))
  | drop (account contact : Address) :
      Deed env seat ledger operation
        (dropDirected env contact (seat.node.store.senders.filter (·.sameBare account)) seat).seat
        (ledger.dropAccount contact (·.sameBare account))
  | sweep :
      Deed env seat ledger operation (seat.sweep env).seat
        (ledger.reached (seat.services env).routes)

variable {env : Environment} {seat : Seat} {ledger : Ledger} {operation : Operation}

private theorem seat_directedSent (update : Presence) (handler receiver : Address) :
    (seat.directedSent env update handler receiver).seat = seat.noting env
      (update.delivery? (seat.services env) seat.node.server handler receiver) := by
  unfold directedSent Presence.delivery?
  cases update.sender with
  | none => rfl
  | some sender =>
    cases hlocal : seat.node.server.isLocal sender with
    | false => simp [hlocal, noting]
    | true =>
      cases hkeep : ((seat.services env).keepsTrack sender receiver).1
        <;> simp [hlocal, hkeep, noting]

private theorem seat_processDirected (p : Presence) (handler : Address) :
    (seat.processDirected env p handler).seat = seat.noting env
      ((Operation.processDirected p handler).delivery? (seat.services env) seat.node.server) := by
  simp only [processDirected, Operation.delivery?]
  cases p.recipient with
  | none => rfl
  | some receiver =>
    cases (seat.services env).router (.presence p) with
    | some cause => rfl
    | none => exact seat_directedSent p handler receiver

/-- What an operation takes note of is all that it does. -/
theorem seat_perform_of_delivery? {delivery : Delivery}
    (hdelivery : operation.delivery? (seat.services env) seat.node.server = some delivery) :
    (seat.perform env operation).seat = seat.noting env (some delivery) := by
  rw [← hdelivery]
  cases operation with
  | processDirected p handler => exact seat_processDirected p handler
  | directedSent p handler receiver => exact seat_directedSent p handler receiver
  | _ => cases hdelivery

theorem seat_retract {update : Presence} {sender : Address}
    (hsender : update.sender = some sender) (hlocal : seat.node.server.isLocal sender = true) :
    (seat.retract env update).seat = seat.forgetting env sender := by
  unfold retract forgetting
  simp only [hsender, hlocal, Bool.not_true, Bool.false_eq_true, if_false, Outcome.seat_andThen,
    store_remove]

/-- Only a stanza that grants a subscription can touch what is tracked. -/
theorem seat_manageSubscription {p : Presence} (hkind : p.kind ≠ .subscribed) :
    (seat.manageSubscription env p).seat = seat := by
  unfold manageSubscription
  simp only
  split
  · rfl
  · rfl
  · split
    · next hsubscribed _ _ => exact absurd hsubscribed hkind
    · rfl

private theorem process_deed (p : Presence) : Deed env seat ledger (.process p)
    (seat.process env p).seat (ledger.process (seat.services env) seat.node.server p) := by
  unfold process Ledger.process
  simp only
  split
  · exact .idle
  · cases hkind : p.kind with
    | available => exact .idle
    | unavailable =>
      simp only
      cases hsender : p.sender with
      | none =>
        simp only [retract, hsender]
        exact .idle
      | some sender =>
        cases hlocal : seat.node.server.isLocal sender with
        | false =>
          simp only [retract, hsender, hlocal]
          exact .idle
        | true =>
          have htracked : (Operation.process p).tracked? = some sender := by
            simp [Operation.tracked?, hkind, hsender]
          rw [seat_retract hsender hlocal]
          simp only [hlocal, if_true]
          exact .forget sender htracked
    | subscribed =>
      unfold manageSubscription
      simp only [hkind]
      cases hhandled : (seat.services env).roster.handle p with
      | error cause => cases cause <;> exact .idle
      | ok accepted =>
        cases hsender : p.sender with
        | none => exact .idle
        | some account =>
          cases hrecipient : p.recipient with
          | none => exact .idle
          | some contact => exact .drop account contact
    | subscribe => rw [seat_manageSubscription (by simp [hkind])]; exact .idle
    | unsubscribe => rw [seat_manageSubscription (by simp [hkind])]; exact .idle
    | unsubscribed => rw [seat_manageSubscription (by simp [hkind])]; exact .idle
    | error => exact .idle
    | probe => exact .idle

private theorem noting_deed (env : Environment) (seat : Seat) (ledger : Ledger)
    (operation : Operation) : Deed env seat ledger operation
      (seat.noting env (operation.delivery? (seat.services env) seat.node.server))
      (ledger.noting (operation.delivery? (seat.services env) seat.node.server)) := by
  cases hdelivery : operation.delivery? (seat.services env) seat.node.server with
  | none => exact .idle
  | some delivery => exact .record delivery hdelivery

/-- A call of the dispatcher and a sweep do a deed, whatever the services answer. -/
theorem perform_deed (hkind : operation.isTracking = true) : Deed env seat ledger operation
    (seat.perform env operation).seat
    (ledger.after (seat.services env) seat.node.server operation) := by
  cases operation with
  | process p => exact process_deed p
  | processDirected p handler =>
    rw [Ledger.after_processDirected]
    simp only [perform, Outcome.seat_map, seat_processDirected]
    exact noting_deed env seat ledger _
  | directedSent p handler receiver =>
    simp only [perform, Outcome.seat_map, seat_directedSent, Ledger.after, Ledger.directedSent_eq]
    exact noting_deed env seat ledger (.directedSent p handler receiver)
  | hasDirected owner recipient =>
    simp only [perform, Outcome.seat_map, hasDirected]
    split <;> exact .idle
  | removeDirected owner recipient => exact .remove owner recipient rfl
  | sweep => exact .sweep
  | _ => cases hkind

end Seat

end DirectedPresence
