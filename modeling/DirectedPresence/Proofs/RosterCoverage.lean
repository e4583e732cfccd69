import Mathlib.Data.Set.Basic
import DirectedPresence.Proofs.ClusterRuns

/-!
Roster and directed presence. A contact that receives a user's presence through the roster needs no
directed presence from the user. Before a delivery is recorded the roster is asked
(`Services.keepsTrack`), and when a contact becomes a subscriber what was recorded for its account
is dropped (`Seat.dropDirected`). So as long as contacts become subscribers only by stanzas that the
node itself hands to the roster, no contact is both a subscriber of an account and a receiver of a
sender of this account (`disjoint_from_roster`). This is shown for the ledger, which forgets which
of store and cache a pair was found in, and then holds for both.
-/

namespace DirectedPresence

/-- The contacts that receive the presence of a roster owner through the roster: pairs of the name
of the owner and the bare address of the contact. -/
abbrev Coverage := Set (String × Address)

/-- Whenever the roster says whether a contact is subscribed, it says so by the coverage. It may
fail at any time. -/
def RosterService.Tells (r : RosterService) (coverage : Coverage) : Prop :=
  ∀ (owner : String) (contact : Address) (answer : Bool),
    r.isSubscribed owner contact = .ok answer → (answer = true ↔ (owner, contact.bare) ∈ coverage)

/-- By the step a contact is granted the subscription to a local user: the roster handles the user's
stanza with success. The stanza of a session that is not authenticated is not handled. -/
def Step.Grants (server : Server) (owner : String) (contact : Address) (step : Step) : Prop :=
  ∃ p account recipient, step.operation = .process p ∧ p.kind = .subscribed ∧
    p.sender = some account ∧ server.isLocal account = true ∧ account.node = some owner ∧
    p.recipient = some recipient ∧ recipient.bare = contact ∧
    ((step.env step.node).session account).any (!·.authenticated) = false ∧
    (step.env step.node).roster.handle p = .ok ()

/-- How the coverage changes along a run: the node's roster is always enabled and tells what the
steps before have made of the coverage, and a contact comes to be covered only by a step of the node
by which it is granted a subscription. It may cease to be covered with any step. -/
def Governed (server : Server) (node : NodeId) : Coverage → List (Step × Coverage) → Prop
  | _, [] => True
  | coverage, (step, next) :: history =>
    (step.node = node → (step.env node).roster.enabled = true ∧
        (step.env node).roster.Tells coverage) ∧
      (∀ owner contact, (owner, contact) ∈ next → (owner, contact) ∈ coverage ∨
        step.node = node ∧ step.Grants server owner contact) ∧
      Governed server node next history

namespace Ledger

variable {services : Services} {server : Server} {operation : Operation} {ledger : Ledger}
  {coverage : Coverage}

/-- Only deliveries from local senders are recorded, and none to a contact that is covered. -/
def Uncovered (server : Server) (coverage : Coverage) (ledger : Ledger) : Prop :=
  ∀ (sender handler receiver : Address), (handler, receiver) ∈ ledger sender →
    server.isLocal sender = true ∧
      ∀ name, sender.node = some name → (name, receiver.bare) ∉ coverage

private theorem mem_or_recorded {delivery : Delivery} {sender : Address} {pair : Address × Address}
    (hmem : pair ∈ ledger.record delivery sender) :
    pair ∈ ledger sender ∨ delivery.sender = sender ∧ delivery.pair = pair := by
  rw [record, Function.update_apply] at hmem
  split at hmem
  · next heq =>
    subst heq
    split at hmem
    · exact Or.inl (Finset.mem_of_mem_erase hmem)
    · rcases Finset.mem_insert.mp hmem with hnew | hold
      · exact Or.inr ⟨rfl, hnew.symm⟩
      · exact Or.inl hold
  · exact Or.inl hmem

private theorem process_subset (services : Services) (server : Server) (p : Presence)
    (ledger : Ledger) (sender : Address) :
    ledger.process services server p sender ⊆ ledger sender := by
  unfold process
  split
  · exact Finset.Subset.refl _
  · cases p.kind with
    | unavailable =>
      cases p.sender with
      | none => exact Finset.Subset.refl _
      | some account =>
        simp only
        split
        · by_cases heq : sender = account <;> simp [heq]
        · exact Finset.Subset.refl _
    | subscribed =>
      cases services.roster.handle p with
      | error cause => exact Finset.Subset.refl _
      | ok handled =>
        cases p.sender with
        | none => exact Finset.Subset.refl _
        | some account =>
          cases p.recipient with
          | none => exact Finset.Subset.refl _
          | some contact => exact dropAccount_subset sender
    | _ => exact Finset.Subset.refl _

/-- What is on the ledger after an operation was there before, or is the delivery of which the
operation takes note. -/
theorem mem_or_delivered {sender : Address} {pair : Address × Address}
    (hmem : pair ∈ ledger.after services server operation sender) :
    pair ∈ ledger sender ∨ ∃ delivery, operation.delivery? services server = some delivery ∧
      delivery.sender = sender ∧ delivery.pair = pair := by
  cases hdelivery : operation.delivery? services server with
  | some delivery =>
    rw [ledger.after_of_delivery? hdelivery] at hmem
    exact (mem_or_recorded hmem).imp_right fun hnew => ⟨delivery, rfl, hnew⟩
  | none =>
    left
    cases operation with
    | process p => exact process_subset services server p ledger sender hmem
    | processDirected p handler =>
      rwa [ledger.after_processDirected, hdelivery] at hmem
    | directedSent p handler receiver =>
      have hsame : ledger.after services server (.directedSent p handler receiver) =
          ledger.noting none := by
        rw [← hdelivery]
        exact ledger.directedSent_eq p handler receiver
      rwa [hsame] at hmem
    | removeDirected owner recipient => exact dropAccount_subset sender hmem
    | sweep => exact Finset.filter_subset _ _ hmem
    | _ => exact hmem

/-- Of a sender with a node part nothing is tracked to a contact that the roster knows as a
subscriber. -/
theorem not_covered_of_keepsTrack {sender receiver : Address} {name : String}
    (henabled : services.roster.enabled = true) (htells : services.roster.Tells coverage)
    (hname : sender.node = some name) (hkeep : (services.keepsTrack sender receiver).1 = true) :
    (name, receiver.bare) ∉ coverage := by
  simp only [Services.keepsTrack, hname, henabled, Bool.not_true, Bool.false_eq_true,
    if_false] at hkeep
  split at hkeep
  · next subscribed hanswer =>
    intro hcovered
    rw [(htells name receiver subscribed hanswer).mpr hcovered] at hkeep
    exact absurd hkeep (by decide)
  · exact absurd hkeep Bool.false_ne_true
  · exact absurd hkeep Bool.false_ne_true

/-- An operation during which the roster tells the coverage records nothing that is covered. -/
theorem Uncovered.after (h : ledger.Uncovered server coverage)
    (henabled : services.roster.enabled = true) (htells : services.roster.Tells coverage)
    (operation : Operation) :
    (ledger.after services server operation).Uncovered server coverage := by
  intro sender handler receiver hmem
  rcases mem_or_delivered hmem with hold | ⟨delivery, hdelivery, rfl, hpair⟩
  · exact h sender handler receiver hold
  · obtain ⟨-, hlocal, hkeep⟩ := Operation.sender_of_delivery? hdelivery
    have hreceiver : delivery.receiver = receiver := congrArg Prod.snd hpair
    refine ⟨hlocal, fun name hname => ?_⟩
    rw [← hreceiver]
    exact not_covered_of_keepsTrack henabled htells hname hkeep

end Ledger

/-- By granting a subscription to a contact a node drops what it has recorded for the contact. -/
theorem Step.Grants.dropped {server : Server} {owner : String} {contact : Address} {step : Step}
    (hgrants : step.Grants server owner contact) {ledger : Ledger}
    {sender handler receiver : Address} (hlocal : server.isLocal sender = true)
    (hname : sender.node = some owner)
    (hmem : (handler, receiver) ∈
      ledger.after (step.env step.node) server step.operation sender) :
    receiver.bare ≠ contact := by
  obtain ⟨p, account, recipient, hoperation, hkind, haccount, hlocal', howner, hrecipient, rfl,
    hsession, hhandled⟩ := hgrants
  have hsame : sender.sameBare account = true := by
    simp only [Server.isLocal, decide_eq_true_eq] at hlocal hlocal'
    simp [Address.sameBare, hname, howner, hlocal, hlocal']
  have hafter : ledger.after (step.env step.node) server step.operation =
      ledger.dropAccount recipient (·.sameBare account) := by
    simp [hoperation, Ledger.after, Ledger.process, haccount, hsession, hkind, hhandled, hrecipient]
  rw [hafter, Ledger.dropAccount, if_pos hsame, Finset.mem_filter] at hmem
  intro hbare
  have hkept : receiver.sameBare recipient = false := by simpa using hmem.2
  rw [Address.sameBare_iff.mpr hbare] at hkept
  cases hkept

/-- The coverage after a run. -/
def coverageAfter (coverage : Coverage) (history : List (Step × Coverage)) : Coverage :=
  history.foldl (fun _ p => p.2) coverage

/-- Along a run under which the coverage is governed, nothing on the ledger of the node is ever
covered. -/
theorem Ledger.Uncovered.along {server : Server} {node : NodeId} {coverage : Coverage}
    {ledger : Ledger} {history : List (Step × Coverage)} (h : ledger.Uncovered server coverage)
    (hgoverned : Governed server node coverage history) :
    (Ledger.along server node (history.map Prod.fst) ledger).Uncovered server
      (coverageAfter coverage history) := by
  induction history generalizing ledger coverage with
  | nil => exact h
  | cons first history ih =>
    obtain ⟨step, next⟩ := first
    obtain ⟨hroster, hgranted, hrest⟩ := hgoverned
    refine ih ?_ hrest
    -- the step records by the old coverage, and what it newly covers it has dropped itself
    intro sender handler receiver hmem
    beta_reduce at hmem
    by_cases hnode : step.node = node
    · subst hnode
      rw [if_pos rfl] at hmem
      obtain ⟨henabled, htells⟩ := hroster rfl
      obtain ⟨hlocal, huncovered⟩ :=
        h.after henabled htells step.operation sender handler receiver hmem
      refine ⟨hlocal, fun name hname hcovered => ?_⟩
      rcases hgranted name receiver.bare hcovered with hold | ⟨-, hgrants⟩
      · exact huncovered name hname hold
      · exact hgrants.dropped hlocal hname hmem rfl
    · rw [if_neg hnode] at hmem
      obtain ⟨hlocal, huncovered⟩ := h sender handler receiver hmem
      refine ⟨hlocal, fun name hname hcovered => ?_⟩
      rcases hgranted name receiver.bare hcovered with hold | ⟨hown, -⟩
      · exact huncovered name hname hold
      · exact hnode hown

/-- A subscription that is not handled, or not with success, changes nothing of what the node
tracks. -/
theorem Seat.process_unhandled (env : Environment) (seat : Seat) {p : Presence}
    (hkind : p.kind = .subscribed)
    (hfailed : (p.sender.bind (seat.services env).session).any (!·.authenticated) = true ∨
      ∃ cause, (seat.services env).roster.handle p = .error cause) :
    (seat.perform env (.process p)).seat = seat := by
  show ((seat.process env p).map fun _ => Answer.done).seat = seat
  rw [Outcome.seat_map, Seat.process]
  split
  · rfl
  · next hsession =>
    obtain ⟨cause, hcause⟩ := hfailed.resolve_left hsession
    simp only [hkind, Seat.manageSubscription, hcause]
    cases cause <;> rfl

namespace Cluster

/-- Roster and directed presence stay disjoint. If the coverage that a node's roster tells is
governed along a run, then after the run no receiver of a sender with a node part, in the store of
the node or in its cache for the senders that the node hosts, is a contact that receives the
presence of the sender's account through the roster. A subscription that is not handled, or not with
success, changes neither store nor cache. -/
theorem disjoint_from_roster (host : Address → NodeId) (hubName : String)
    {members : List (Server × Settings)} (hawake : ∀ p ∈ members, p.1.shuttingDown = false)
    {history : List (Step × Coverage)} (hsteps : ∀ p ∈ history, p.1.Ordinary host)
    {coverage : Coverage} {node : NodeId} {seat : Seat}
    (hseat : ((start hubName members).run (history.map Prod.fst)).seat? node = some seat)
    (hgoverned : Governed seat.node.server node coverage history) :
    (∀ (sender handler receiver : Address) (registry : Registry) (name : String),
      (seat.node.store.get? sender = some registry ∨
        host sender = node ∧ seat.get sender = .ok (some registry)) →
      (handler, receiver) ∈ registry.pairs → sender.node = some name →
      (name, receiver.bare) ∉ coverageAfter coverage history) ∧
    ∀ (env : Environment) (p : Presence), p.kind = .subscribed →
      ((p.sender.bind (seat.services env).session).any (!·.authenticated) = true ∨
        ∃ cause, (seat.services env).roster.handle p = .error cause) →
      (seat.perform env (.process p)).seat = seat := by
  have hordinary : ∀ step ∈ history.map Prod.fst, step.Ordinary host := by
    intro step hmem
    obtain ⟨p, hp, rfl⟩ := List.mem_map.mp hmem
    exact hsteps p hp
  obtain ⟨hid, hsound, -, htracks⟩ := seat_of_run host hubName hawake hordinary hseat
  have hstart : Ledger.Uncovered seat.node.server coverage fun _ => ∅ := by
    intro sender handler receiver hmem
    cases Finset.notMem_empty _ hmem
  have huncovered := hstart.along hgoverned
  refine ⟨?_, fun env p hkind hfailed => seat.process_unhandled env hkind hfailed⟩
  intro sender handler receiver registry name hregistry hpair hname
  have hheld : host sender = seat.node.id ∧ seat.cached sender = some registry := by
    rcases hregistry with hstored | ⟨hosted, hcached⟩
    · have hosted := (hsound.stored sender registry hstored).1
      exact ⟨hosted, (htracks sender hosted).1 ▸ hstored⟩
    · rw [hsound.steady.get sender] at hcached
      exact ⟨hosted.trans hid.symm, Except.ok.inj hcached⟩
  have hledger := (htracks sender hheld.1).2
  rw [hheld.2] at hledger
  have hmem : (handler, receiver) ∈ registry.pairSet := List.mem_toFinset.mpr hpair
  have hrecorded : (handler, receiver) ∈ Ledger.along seat.node.server node
      (history.map Prod.fst) (fun _ => ∅) sender := hledger ▸ hmem
  exact (huncovered sender handler receiver hrecorded).2 name hname

end Cluster

/-! ## A sample run -/

namespace RosterSample

open Sample

/-- A roster on which the given contacts of one user receive her presence. -/
def knowing (friends : List Address) : RosterService :=
  { Services.agreeable.roster with
    enabled := true
    subscription := fun owner contact =>
      .ok (if owner = "juliet" ∧ contact.bare ∈ friends then some .from else none) }

def covering (friends : List Address) : Coverage := {p | p.1 = "juliet" ∧ p.2 ∈ friends}

private theorem knowing_tells (friends : List Address) :
    (knowing friends).Tells (covering friends) := by
  intro owner contact answer hanswer
  by_cases hfriend : owner = "juliet" ∧ contact.bare ∈ friends
  · simp only [RosterService.isSubscribed, knowing, if_pos hfriend] at hanswer
    obtain rfl := Except.ok.inj hanswer
    exact iff_of_true rfl hfriend
  · simp only [RosterService.isSubscribed, knowing, if_neg hfriend] at hanswer
    obtain rfl := Except.ok.inj hanswer
    exact iff_of_false Bool.false_ne_true hfriend

def bystander : Address := .ofParts (some "mercutio") "example.org" none

/-- A step of the first node while the roster knows the given contacts. -/
def withFriends (friends : List Address) (operation : Operation) : Step :=
  ⟨fun _ => { Services.agreeable with roster := knowing friends }, ⟨"one"⟩, operation⟩

def approval : Presence :=
  { sender := some sender, recipient := some receiver, kind := .subscribed }

/-- A presence is delivered to two contacts. One of them is then granted the subscription, and the
presence is delivered to it once more. -/
def history : List (Step × Coverage) :=
  [(withFriends [] (.membership .localJoined), covering []),
    (withFriends [] (.directedSent (.available sender) handler receiver), covering []),
    (withFriends [] (.directedSent (.available sender) handler bystander), covering []),
    (withFriends [] (.process approval), covering [receiver.bare]),
    (withFriends [receiver.bare] (.directedSent (.available sender) handler receiver),
      covering [receiver.bare])]

private theorem history_ordinary : ∀ p ∈ history, p.1.Ordinary host := by
  intro p hmem
  simp only [history, List.mem_cons, List.not_mem_nil, or_false] at hmem
  rcases hmem with rfl | rfl | rfl | rfl | rfl
  · exact .membership rfl rfl
  all_goals exact ⟨Or.inl rfl, fun _ _ => rfl, rfl⟩

private theorem approval_grants {server : Server} (hlocal : server.isLocal sender = true) :
    (withFriends [] (.process approval)).Grants server "juliet" receiver.bare :=
  ⟨approval, sender, receiver, rfl, rfl, rfl, hlocal, rfl, rfl, rfl, rfl, rfl⟩

private theorem history_governed {server : Server} (hlocal : server.isLocal sender = true) :
    Governed server ⟨"one"⟩ (covering []) history := by
  have hroster : ∀ friends, (knowing friends).enabled = true ∧
      (knowing friends).Tells (covering friends) := fun friends => ⟨rfl, knowing_tells friends⟩
  refine ⟨fun _ => hroster [], fun _ _ => Or.inl, fun _ => hroster [], fun _ _ => Or.inl,
    fun _ => hroster [], fun _ _ => Or.inl, fun _ => hroster [], ?_,
    fun _ => hroster [receiver.bare], fun _ _ => Or.inl, trivial⟩
  rintro owner contact ⟨rfl, hfriend⟩
  obtain rfl := List.mem_singleton.mp hfriend
  exact Or.inr ⟨rfl, approval_grants hlocal⟩

/-- The contact that is granted the subscription is not tracked any more, and the other one, which
still is, is not covered. -/
theorem bystander_not_covered : ∃ seat,
    ((Cluster.start "hub" members).run (history.map Prod.fst)).seat? ⟨"one"⟩ = some seat ∧
      (seat.node.store.get? sender).map Registry.pairs = some [(handler, bystander)] ∧
      ("juliet", receiver.bare) ∈ coverageAfter (covering []) history ∧
      ("juliet", bystander.bare) ∉ coverageAfter (covering []) history := by
  have hrun : (((Cluster.start "hub" members).run (history.map Prod.fst)).seat? ⟨"one"⟩).any
      (fun seat => seat.node.server.isLocal sender = true ∧
        (seat.node.store.get? sender).map Registry.pairs = some [(handler, bystander)]) = true := by
    decide +kernel
  obtain ⟨seat, hseat, hfacts⟩ := (Option.any_eq_true _ _).mp hrun
  obtain ⟨hlocal, hstored⟩ := of_decide_eq_true hfacts
  refine ⟨seat, hseat, hstored, ⟨rfl, List.mem_singleton.mpr rfl⟩, ?_⟩
  obtain ⟨registry, hregistry, hpairs⟩ := Option.map_eq_some_iff.mp hstored
  have hdisjoint := Cluster.disjoint_from_roster host "hub" members_awake history_ordinary hseat
    (history_governed hlocal)
  exact hdisjoint.1 sender handler bystander registry "juliet" (Or.inl hregistry)
    (hpairs ▸ List.mem_singleton.mpr rfl) rfl

end RosterSample

end DirectedPresence
