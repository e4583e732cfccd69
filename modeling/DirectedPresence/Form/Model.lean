import DirectedPresence.Form
import DirectedPresence.Registry
import DirectedPresence.Roster

/-!
The forms of the domain's types. Fields and cases stand in the order in which they are written, and
their names are those of the written forms. A set of addresses is written as the sequence of its
members in address order; reading one drops repetitions. Reading an address checks nothing.
-/

namespace DirectedPresence

open Form

instance : Form NodeId := ⟨.text, NodeId.name, NodeId.mk⟩

instance : LawfulForm NodeId := ⟨fun _ => rfl⟩

instance : Form Address where
  shape := .record (.field "node" (shape (Option String)) (.field "domain" .text
    (.field "resource" (shape (Option String)) .done)))
  toValue a := (toValue a.node, a.domain, toValue a.resource, ())
  ofValue := fun (node, domain, resource, ()) => ⟨ofValue node, domain, ofValue resource⟩

instance : LawfulForm Address := ⟨fun a => by simp [toValue, ofValue]⟩

instance : Form AddressSet where
  shape := shape (List Address)
  toValue set := toValue set.toList
  ofValue value := Std.ExtTreeSet.ofList (ofValue value) compare

instance : LawfulForm AddressSet where
  ofValue_toValue set := by
    show Std.ExtTreeSet.ofList (ofValue (toValue set.toList)) compare = set
    rw [LawfulForm.ofValue_toValue]
    ext a
    simp [Std.ExtTreeSet.mem_ofList]

instance : Form PresenceKind where
  shape := .choice (.bare "Available" (.bare "Unavailable" (.bare "Subscribe" (.bare "Subscribed"
    (.bare "Unsubscribe" (.bare "Unsubscribed" (.bare "Error" (.bare "Probe" .done))))))))
  toValue
    | .available => .inl ()
    | .unavailable => .inr (.inl ())
    | .subscribe => .inr (.inr (.inl ()))
    | .subscribed => .inr (.inr (.inr (.inl ())))
    | .unsubscribe => .inr (.inr (.inr (.inr (.inl ()))))
    | .unsubscribed => .inr (.inr (.inr (.inr (.inr (.inl ())))))
    | .error => .inr (.inr (.inr (.inr (.inr (.inr (.inl ()))))))
    | .probe => .inr (.inr (.inr (.inr (.inr (.inr (.inr (.inl ())))))))
  ofValue
    | .inl () => .available
    | .inr (.inl ()) => .unavailable
    | .inr (.inr (.inl ())) => .subscribe
    | .inr (.inr (.inr (.inl ()))) => .subscribed
    | .inr (.inr (.inr (.inr (.inl ())))) => .unsubscribe
    | .inr (.inr (.inr (.inr (.inr (.inl ()))))) => .unsubscribed
    | .inr (.inr (.inr (.inr (.inr (.inr (.inl ())))))) => .error
    | .inr (.inr (.inr (.inr (.inr (.inr (.inr (.inl ()))))))) => .probe

instance : LawfulForm PresenceKind := ⟨fun kind => by cases kind <;> rfl⟩

instance : Form ErrorCondition where
  shape := .choice (.bare "BadRequest" (.bare "NotAuthorized" .done))
  toValue
    | .badRequest => .inl ()
    | .notAuthorized => .inr (.inl ())
  ofValue
    | .inl () => .badRequest
    | .inr (.inl ()) => .notAuthorized

instance : LawfulForm ErrorCondition := ⟨fun condition => by cases condition <;> rfl⟩

instance : Form SubscriptionState where
  shape := .choice (.bare "None" (.bare "To" (.bare "From" (.bare "Both" .done))))
  toValue
    | .none => .inl ()
    | .to => .inr (.inl ())
    | .from => .inr (.inr (.inl ()))
    | .both => .inr (.inr (.inr (.inl ())))
  ofValue
    | .inl () => .none
    | .inr (.inl ()) => .to
    | .inr (.inr (.inl ())) => .from
    | .inr (.inr (.inr (.inl ()))) => .both

instance : LawfulForm SubscriptionState := ⟨fun state => by cases state <;> rfl⟩

instance : Form Presence where
  shape := .record (.field "from" (shape (Option Address)) (.field "to" (shape (Option Address))
    (.field "kind" (shape PresenceKind) (.field "status" (shape (Option String))
      (.field "error" (shape (Option ErrorCondition)) .done)))))
  toValue p := (toValue p.sender, toValue p.recipient, toValue p.kind, toValue p.status,
    toValue p.error, ())
  ofValue := fun (sender, recipient, kind, status, error, ()) =>
    ⟨ofValue sender, ofValue recipient, ofValue kind, ofValue status, ofValue error⟩

instance : LawfulForm Presence :=
  ⟨fun p => by
    show Presence.mk _ _ _ _ _ = p
    simp only [LawfulForm.ofValue_toValue]⟩

instance : Form Message where
  shape := .record (.field "from" (shape (Option Address)) (.field "to" (shape (Option Address))
    (.field "body" .text .done)))
  toValue m := (toValue m.sender, toValue m.recipient, m.body, ())
  ofValue := fun (sender, recipient, body, ()) => ⟨ofValue sender, ofValue recipient, body⟩

instance : LawfulForm Message :=
  ⟨fun m => by
    show Message.mk _ _ _ = m
    simp only [LawfulForm.ofValue_toValue]⟩

instance : Form Stanza where
  shape := .choice (.carrying "Presence" (shape Presence)
    (.carrying "Message" (shape Message) .done))
  toValue
    | .presence p => .inl (toValue p)
    | .message m => .inr (.inl (toValue m))
  ofValue
    | .inl p => .presence (ofValue p)
    | .inr (.inl m) => .message (ofValue m)

instance : LawfulForm Stanza :=
  ⟨fun stanza => by
    cases stanza with
    | presence p => exact congrArg Stanza.presence (LawfulForm.ofValue_toValue p)
    | message m => exact congrArg Stanza.message (LawfulForm.ofValue_toValue m)⟩

instance : Form PendingRequest where
  shape := .choice (.carrying "Subscribe" (shape Presence) (.bare "Unsubscribe" .done))
  toValue
    | .subscribe request => .inl (toValue request)
    | .unsubscribe => .inr (.inl ())
  ofValue
    | .inl request => .subscribe (ofValue request)
    | .inr (.inl ()) => .unsubscribe

instance : LawfulForm PendingRequest :=
  ⟨fun pending => by
    cases pending with
    | subscribe request =>
      exact congrArg PendingRequest.subscribe (LawfulForm.ofValue_toValue request)
    | unsubscribe => rfl⟩

instance : Form RosterItem where
  shape := .record (.field "contact" (shape Address) (.field "subscription"
    (shape SubscriptionState) (.field "pending" (shape (Option PendingRequest)) .done)))
  toValue item := (toValue item.contact, toValue item.subscription, toValue item.pending, ())
  ofValue := fun (contact, subscription, pending, ()) =>
    ⟨ofValue contact, ofValue subscription, ofValue pending⟩

instance : LawfulForm RosterItem :=
  ⟨fun item => by
    show RosterItem.mk _ _ _ = item
    simp only [LawfulForm.ofValue_toValue]⟩

instance : Form HandlerEntry where
  shape := .record (.field "handler" (shape Address) (.field "node_id" (shape NodeId)
    (.field "receivers" (shape AddressSet) .done)))
  toValue e := (toValue e.handler, toValue e.node, toValue e.receivers, ())
  ofValue := fun (handler, node, receivers, ()) =>
    ⟨ofValue handler, ofValue node, ofValue receivers⟩

instance : LawfulForm HandlerEntry :=
  ⟨fun e => by
    show HandlerEntry.mk _ _ _ = e
    simp only [LawfulForm.ofValue_toValue]⟩

instance : Form Registry where
  shape := .record (.field "entries" (shape (List HandlerEntry)) .done)
  toValue r := (toValue r.entries, ())
  ofValue := fun (entries, ()) => ⟨ofValue entries⟩

instance : LawfulForm Registry :=
  ⟨fun r => by
    show Registry.mk _ = r
    simp only [LawfulForm.ofValue_toValue]⟩

end DirectedPresence
