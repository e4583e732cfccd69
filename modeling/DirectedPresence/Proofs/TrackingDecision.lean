import DirectedPresence.Proofs.ClusterRuns

/-!
Who is tracked. A delivery is to be recorded if the roster is switched off, if the sender is
anonymous, or if the roster answers that the receiver gets nothing of the sender's account
(`Services.MustTrack`). The address of the sender decides which of these reasons is looked at: of a
sender without a node part only whether it is anonymous, and of the others only the roster. So the
first two reasons are overlooked where the address does not go with them (`Services.Overlooks`), and
apart from that the decision is as it must be (`Services.keepsTrack_iff`).

What is decided is done in every state in which the cache can be read and written, whatever the
store and the cache hold (`Seat.records_unless_overlooked`).
-/

namespace DirectedPresence

namespace Services

/-- Whether a sender is anonymous: its session tells, and without a session its address. -/
def isAnonymous (s : Services) (sender : Address) : Bool :=
  match s.session sender with
  | some session => session.isAnonymous
  | none => sender.node.isNone && sender.resource.isSome

/-- The roster answers that the receiver gets nothing of the sender's account. -/
def RosterOmits (s : Services) (sender receiver : Address) : Prop :=
  ∃ name state?, sender.node = some name ∧ s.roster.subscription name receiver = .ok state? ∧
    state? ≠ some .from ∧ state? ≠ some .both

/-- There is a reason to record a delivery. -/
def MustTrack (s : Services) (sender receiver : Address) : Prop :=
  s.roster.enabled = false ∨ s.isAnonymous sender = true ∨ s.RosterOmits sender receiver

/-- The only reason is not looked at: that the roster is switched off, for a sender without a node
part, or that the sender is anonymous, for one with a node part. -/
def Overlooks (s : Services) (sender receiver : Address) : Prop :=
  (sender.node = none ∧ s.roster.enabled = false ∧ s.isAnonymous sender = false) ∨
    ((∃ name, sender.node = some name) ∧ s.isAnonymous sender = true ∧ s.roster.enabled = true ∧
      ¬ s.RosterOmits sender receiver)

variable {s : Services} {sender receiver : Address} {name : String}

private theorem Overlooks.mustTrack (h : s.Overlooks sender receiver) :
    s.MustTrack sender receiver := by
  rcases h with ⟨-, hdisabled, -⟩ | ⟨-, hanonymous, -, -⟩
  · exact Or.inl hdisabled
  · exact Or.inr (Or.inl hanonymous)

private theorem rosterOmits_iff (hname : sender.node = some name) :
    s.RosterOmits sender receiver ↔ s.roster.isSubscribed name receiver = .ok false := by
  rw [RosterOmits, RosterService.isSubscribed]
  simp only [hname, Option.some.injEq]
  cases hanswer : s.roster.subscription name receiver with
  | error cause => simp [hanswer, Except.map]
  | ok state? =>
    rcases state? with _ | (_ | _ | _ | _) <;>
      simp [hanswer, Except.map, SubscriptionState.contactReceives]

/-- Without a node part only the sender's anonymity counts. -/
theorem keepsTrack_unnamed (hname : sender.node = none) :
    (s.keepsTrack sender receiver).1 = s.isAnonymous sender := by
  unfold keepsTrack isAnonymous
  simp only [hname]
  cases s.session sender <;> simp

/-- With a node part only the roster counts. -/
theorem keepsTrack_named (hname : sender.node = some name) :
    (s.keepsTrack sender receiver).1 = true ↔
      s.roster.enabled = false ∨ s.RosterOmits sender receiver := by
  rw [rosterOmits_iff hname]
  unfold keepsTrack
  simp only [hname]
  cases s.roster.enabled with
  | false => simp
  | true =>
    cases s.roster.isSubscribed name receiver with
    | ok subscribed => simp
    | error cause => cases cause <;> simp

/-- A delivery is recorded if there is a reason that is looked at. -/
theorem keepsTrack_iff : (s.keepsTrack sender receiver).1 = true ↔
    s.MustTrack sender receiver ∧ ¬ s.Overlooks sender receiver := by
  -- the address is looked at first
  cases hname : sender.node with
  | none =>
    have homits : ¬ s.RosterOmits sender receiver := by
      rintro ⟨name, -, hnode, -⟩
      cases hname.symm.trans hnode
    rw [keepsTrack_unnamed hname]
    simp only [MustTrack, Overlooks, hname, homits]
    cases s.isAnonymous sender <;> cases s.roster.enabled <;> simp
  | some name =>
    rw [keepsTrack_named hname]
    simp only [MustTrack, Overlooks, hname]
    cases s.isAnonymous sender <;> cases s.roster.enabled <;> simp

end Services

/-- What is written to the hub is read there. -/
theorem Hub.get_put {L σ : Type} (react : Reaction L σ) (hub : Hub L) (node : NodeId)
    (key other : Address) (value : Registry) (world : σ) :
    (hub.put react node key value world).cache.get other =
      if key = other then .ok (some value) else hub.get other := by
  have hholding := Holding.registry_of node value
  rw [Holding.of] at hholding
  simp only [Hub.get, data_put, Std.ExtTreeMap.getElem?_insert, Std.LawfulEqOrd.compare_eq_iff_eq]
  by_cases heq : key = other
  · simp [heq, hholding, Except.map]
  · simp [heq]

namespace Seat

/-- A pair was recorded for a sender: the store and the cache have for it what the cache had and the
pair, and for the others what they had. -/
structure Records (before after : Seat) (sender : Address) (pair : Address × Address)
    (existing : Option Registry) : Prop where
  stored : Registry.pairsOf (after.node.store.get? sender) =
    insert pair (Registry.pairsOf existing)
  cached : after.get sender = .ok (after.node.store.get? sender)
  othersStored : ∀ other, other ≠ sender →
    after.node.store.get? other = before.node.store.get? other
  othersCached : ∀ other, other ≠ sender → after.get other = before.get other

variable {env : Environment} {seat : Seat} {update : Presence} {sender handler receiver : Address}
  {existing : Option Registry}

/-- What is written to a cache that works is read there. -/
theorem get_put (env : Environment) (hread : seat.get sender = .ok existing)
    (hwrite : seat.node.cache.faults.put = false) (value : Registry) :
    (seat.put env sender value).answer = .ok existing ∧
      ∀ other, (seat.put env sender value).seat.get other =
        if sender = other then .ok (some value) else seat.get other := by
  -- what was read once is not made to fail
  have hfault : seat.node.cache.faults.get = false := by
    unfold get at hread
    split at hread
    · cases hread
    · next hfault => simpa using hfault
  cases hb : seat.node.cache.backing with
  | standalone cache =>
    simp only [get, hfault, hb, Bool.false_eq_true, if_false] at hread
    constructor
    · simpa [put, hwrite, hb, Outcome.map, afterLocal] using hread
    · intro other
      by_cases heq : sender = other <;>
        simp [put, get, hwrite, hfault, hb, Outcome.map, afterLocal, LocalCache.get?,
          Std.ExtTreeMap.getElem?_insert, heq]
  | clustered view =>
    simp only [get, hfault, hb, Bool.false_eq_true, if_false] at hread
    constructor
    · simpa [put, hwrite, hb, afterHub, Hub.answer_put] using hread
    · intro other
      simp [put, get, hwrite, hfault, hb, afterHub, Hub.get_put]

/-- A registry is published to the store and to a cache that works. -/
theorem publish_of_read (env : Environment) (hread : seat.get sender = .ok existing)
    (hwrite : seat.node.cache.faults.put = false) {registry : Registry}
    (hsome : registry.isEmpty = false) :
    (seat.publish env sender registry).answer = .ok () ∧ ∀ other,
      (seat.publish env sender registry).seat.node.store.get? other =
          (if sender = other then some registry else seat.node.store.get? other) ∧
        (seat.publish env sender registry).seat.get other =
          if sender = other then .ok (some registry) else seat.get other := by
  have hread' : (seat.setStore (seat.node.store.insert sender registry)).get sender =
      .ok existing := hread
  obtain ⟨hanswer, hget⟩ := get_put env hread' hwrite registry
  simp only [publish, Outcome.answer_map, Outcome.seat_map, hanswer, store_put]
  refine ⟨trivial, fun other => ⟨?_, hget other⟩⟩
  rw [setStore, Store.get?_insert, hsome, if_neg Bool.false_ne_true]

/-- A pair is recorded wherever the cache can be read and written. -/
theorem records_recordPair (env : Environment) (hread : seat.get sender = .ok existing)
    (hwrite : seat.node.cache.faults.put = false) {kind : PresenceKind}
    (hkind : kind ≠ .unavailable) (handler receiver : Address) :
    (seat.recordPair env kind sender handler receiver).answer = .ok () ∧
      Records seat (seat.recordPair env kind sender handler receiver).seat sender
        (handler, receiver) existing := by
  have hpairs : Registry.pairsOf
      (some ((existing.getD .empty).add handler seat.node.id receiver).1) =
        insert (handler, receiver) (Registry.pairsOf existing) := Registry.pairsOf_add existing
  obtain ⟨hanswer, hwritten⟩ := publish_of_read env hread hwrite
    (Registry.isEmpty_add (existing.getD .empty))
  obtain ⟨hstored, hcached⟩ := hwritten sender
  rw [if_pos rfl] at hstored hcached
  unfold recordPair
  simp only [hread, hkind, if_false]
  refine ⟨hanswer, by rw [hstored, hpairs], by rw [hstored, hcached], ?_, ?_⟩
  · intro other hne
    rw [(hwritten other).1, if_neg hne.symm]
  · intro other hne
    rw [(hwritten other).2, if_neg hne.symm]

/-- What is done for a local sender depends on whether it is tracked. -/
theorem directedSent_of_local (env : Environment) (hsender : update.sender = some sender)
    (hlocal : seat.node.server.isLocal sender = true) (handler receiver : Address) :
    seat.directedSent env update handler receiver =
      let (keep, trace) := (seat.services env).keepsTrack sender receiver
      if keep then (seat.recordPair env update.kind sender handler receiver).after trace
      else { answer := .ok (), seat, trace } := by
  simp only [directedSent, hsender, hlocal, Bool.not_true, Bool.false_eq_true, if_false]

/-- Take any state of a node and a presence of a local sender, other than that it goes, and say that
it was delivered. If there is a reason to track the receiver, and it is not overlooked, the pair is
recorded, provided that the cache can be read and written; and if there is none, nothing changes. If
the only reason is overlooked nothing changes either, though the receiver is to be tracked. -/
theorem records_unless_overlooked (env : Environment) (hsender : update.sender = some sender)
    (hlocal : seat.node.server.isLocal sender = true) (hkind : update.kind ≠ .unavailable)
    (handler receiver : Address) :
    let services := seat.services env
    let outcome := seat.directedSent env update handler receiver
    (services.MustTrack sender receiver → ¬ services.Overlooks sender receiver →
      ∀ existing, seat.get sender = .ok existing → seat.node.cache.faults.put = false →
        outcome.answer = .ok () ∧
          Records seat outcome.seat sender (handler, receiver) existing) ∧
    (¬ services.MustTrack sender receiver → outcome.seat = seat) ∧
    (services.Overlooks sender receiver →
      services.MustTrack sender receiver ∧ outcome.seat = seat) := by
  intro services outcome
  have hdone : outcome = _ := directedSent_of_local env hsender hlocal handler receiver
  have hrefused : ¬ (services.keepsTrack sender receiver).1 = true → outcome.seat = seat := by
    intro hkeep
    rw [hdone]
    exact congrArg Outcome.seat (if_neg hkeep)
  refine ⟨?_, ?_, ?_⟩
  · intro hmust hseen existing hread hwrite
    have hkeep : (services.keepsTrack sender receiver).1 = true :=
      Services.keepsTrack_iff.mpr ⟨hmust, hseen⟩
    rw [hdone]
    simp only
    rw [if_pos hkeep]
    exact records_recordPair env hread hwrite hkind handler receiver
  · exact fun hno => hrefused fun hkeep => hno (Services.keepsTrack_iff.mp hkeep).1
  · exact fun hoverlooked => ⟨hoverlooked.mustTrack,
      hrefused fun hkeep => (Services.keepsTrack_iff.mp hkeep).2 hoverlooked⟩

end Seat

namespace Sample

def tybalt : Address := .ofParts (some "tybalt") "example.org" none

/-- After the sample run one more delivery is recorded beside the first one. -/
theorem tybalt_recorded : ∃ seat,
    ((Cluster.start "hub" members).run steps).seat? ⟨"one"⟩ = some seat ∧
      Registry.pairsOf (seat.cached sender) = {(handler, receiver)} ∧
      seat.Records (seat.directedSent (fun _ => .agreeable) (.available sender) handler tybalt).seat
        sender (handler, tybalt) (seat.cached sender) := by
  have hrun : (((Cluster.start "hub" members).run steps).seat? ⟨"one"⟩).any (fun seat =>
      seat.node.server.isLocal sender = true ∧
        Registry.pairsOf (seat.cached sender) = {(handler, receiver)}) = true := by
    decide +kernel
  obtain ⟨seat, hseat, hfacts⟩ := (Option.any_eq_true _ _).mp hrun
  obtain ⟨hlocal, hpairs⟩ := of_decide_eq_true hfacts
  obtain ⟨-, hsound, -⟩ := Cluster.seat_of_run host "hub" members_awake steps_ordinary hseat
  have hwrite : seat.node.cache.faults.put = false := by
    rw [hsound.faultless]
    rfl
  have hseen : ¬ Services.agreeable.Overlooks sender tybalt := by
    rintro (⟨⟨⟩, -⟩ | ⟨-, ⟨⟩, -⟩)
  have hupdate : (Presence.available sender).sender = some sender ∧
      (Presence.available sender).kind ≠ .unavailable := by
    decide
  have hdecided := Seat.records_unless_overlooked (fun _ => .agreeable) hupdate.1 hlocal hupdate.2
    handler tybalt
  have hrecords := hdecided.1 (Or.inl rfl) hseen (seat.cached sender) (hsound.steady.get sender)
    hwrite
  exact ⟨seat, hseat, hpairs, hrecords.2⟩

def idle : Seat :=
  ⟨{ hub := { name := "hub" } }, Node.start (Server.ofDomain ⟨"one"⟩ "example.org") {}⟩

/-- The sender says that it is anonymous, though it has a node part, and the roster has the
receivers of its deliveries as subscribers. -/
def disguised : Services :=
  { Services.agreeable with
    roster := { Services.agreeable.roster with
      enabled := true
      subscription := fun _ _ => .ok (some .both) }
    session := fun address => some
      { address
        serverDomain := "example.org"
        closed := false
        authenticated := true
        initialized := true
        floodsOffline := false
        declaredAnonymous := some true
        deliver := fun _ => none } }

/-- With the roster switched off a delivery of the server itself is not recorded, and with the
roster switched on neither is one of a sender with a node part that is anonymous; both must be. -/
theorem deliveries_overlooked :
    (Services.agreeable.MustTrack (.ofDomain "example.org") receiver ∧
      (idle.directedSent (fun _ => .agreeable) (.available (.ofDomain "example.org")) handler
        receiver).seat = idle) ∧
    (disguised.MustTrack sender receiver ∧
      (idle.directedSent (fun _ => disguised) (.available sender) handler receiver).seat = idle) ∧
    ∀ other, idle.node.store.get? other = none :=
  ⟨⟨Or.inl rfl, by decide +kernel⟩, ⟨Or.inr (Or.inl rfl), by decide +kernel⟩, fun _ => rfl⟩

end Sample

end DirectedPresence
