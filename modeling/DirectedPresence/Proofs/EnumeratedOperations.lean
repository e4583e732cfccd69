import DirectedPresence.Proofs.EnumerationOrders

/-!
Operations in some orders. What is told to the members in another order comes to the same for
whoever tells it (`Outcome.Rearranges`), so an operation that goes through nothing else comes to the
same within any orders. This is said of each routine after those that it calls.
-/

namespace DirectedPresence

/-- The second trace is the first one in some order. -/
structure Trace.Rearranges (trace trace' : Trace) : Prop where
  effects : trace'.effects.Perm trace.effects
  notices : trace'.notices.Perm trace.notices

namespace Trace.Rearranges

variable {trace trace' trace'' more more' : Trace}

theorem refl (trace : Trace) : trace.Rearranges trace :=
  ⟨.refl _, .refl _⟩

theorem trans (h : trace.Rearranges trace') (h' : trace'.Rearranges trace'') :
    trace.Rearranges trace'' :=
  ⟨h'.effects.trans h.effects, h'.notices.trans h.notices⟩

theorem append (h : trace.Rearranges trace') (hmore : more.Rearranges more') :
    (trace ++ more).Rearranges (trace' ++ more') :=
  ⟨h.effects.append hmore.effects, h.notices.append hmore.notices⟩

end Trace.Rearranges

/-- The second outcome is the first one but for the order of what is called, noted and heard. -/
structure Outcome.Rearranges {α : Type} (o o' : Outcome α) : Prop where
  answer : o'.answer = o.answer
  seat : o'.seat = o.seat
  trace : o.trace.Rearranges o'.trace
  hearings : o'.hearings.Perm o.hearings

namespace Outcome.Rearranges

variable {α β : Type} {o o' : Outcome α}

theorem refl (o : Outcome α) : o.Rearranges o :=
  ⟨rfl, rfl, .refl _, .refl _⟩

theorem andThen (h : o.Rearranges o') {next next' : α → Seat → Outcome β}
    (hnext : (next o.answer o.seat).Rearranges (next' o.answer o.seat)) :
    (o.andThen next).Rearranges (o'.andThen next') := by
  unfold Outcome.andThen
  rw [h.answer, h.seat]
  exact ⟨hnext.answer, hnext.seat, h.trace.append hnext.trace, h.hearings.append hnext.hearings⟩

theorem map (h : o.Rearranges o') (f : α → β) : (o.map f).Rearranges (o'.map f) :=
  ⟨congrArg f h.answer, h.seat, h.trace, h.hearings⟩

theorem after (h : o.Rearranges o') (trace : Trace) :
    (o.after trace).Rearranges (o'.after trace) :=
  ⟨h.answer, h.seat, (Trace.Rearranges.refl trace).append h.trace, h.hearings⟩

theorem afterHub {change change' : Change Hub Feed (NodeMap ReverseIndex) α}
    (h : change.Rearranges change') (seat : Seat) :
    (seat.afterHub change).Rearranges (seat.afterHub change') := by
  obtain ⟨hanswer, hhub, hindexes, hhearings⟩ := h
  refine ⟨hanswer, by rw [Seat.afterHub, Seat.afterHub, hhub, hindexes], ⟨.refl _, ?_⟩, hhearings⟩
  simp only [Seat.afterHub, hhub]
  exact (hhearings.filterMap _).map _

end Outcome.Rearranges

namespace Seat.Calm

/-- Whoever deals with senders leaves a calm seat. -/
theorem deals {α : Type} {env : Environment} {seat : Seat} (h : seat.Calm)
    {act : Seat → Outcome α}
    (hdeals : Deals env seat.node.server (fun _ => True) (fun _ => False) (fun _ => True) act) :
    (act seat).seat.Calm :=
  (hdeals.elsewhere h rfl trivial).1

variable {seat : Seat} (h : seat.Calm) (orders : Orders) (env : Environment)
include h

theorem put_within (key : Address) (value : Registry) :
    (seat.put env key value).Rearranges (orders.within (seat.put env key value)) := by
  unfold Seat.put
  split
  · exact .refl _
  · cases seat.node.cache.backing with
    | standalone cache => exact .refl _
    | clustered view =>
      exact .afterHub (h.fabric.dedicated.put_within orders env view.node key value _) seat

theorem remove_within (key : Address) :
    (seat.remove env key).Rearranges (orders.within (seat.remove env key)) := by
  unfold Seat.remove
  split
  · exact .refl _
  · cases seat.node.cache.backing with
    | standalone cache => exact .refl _
    | clustered view =>
      exact .afterHub (h.fabric.dedicated.takeOut_within orders env key _ _ _) seat

theorem restore_within (registries : List (Address × Registry)) :
    (restore env registries seat).Rearranges (orders.within (restore env registries seat)) := by
  induction registries generalizing seat with
  | nil => exact .refl _
  | cons p rest ih =>
    exact (h.put_within orders env p.1 p.2).andThen ((ih (h.put env p.1 p.2)).after _)

private theorem publish_within (sender : Address) (registry : Registry) :
    (seat.publish env sender registry).Rearranges
      (orders.within (seat.publish env sender registry)) :=
  ((h.setStore _).put_within orders env sender registry).map _

private theorem withdraw_within (sender : Address) :
    (seat.withdraw env sender).Rearranges (orders.within (seat.withdraw env sender)) :=
  (h.remove_within orders env sender).andThen (.refl _)

private theorem recordPair_within (kind : PresenceKind) (sender handler receiver : Address) :
    (seat.recordPair env kind sender handler receiver).Rearranges
      (orders.within (seat.recordPair env kind sender handler receiver)) := by
  unfold Seat.recordPair
  cases seat.get sender with
  | error cause => exact .refl _
  | ok existing =>
    by_cases hkind : kind = .unavailable
    · simp only [if_pos hkind]
      cases existing with
      | none => exact .refl _
      | some registry =>
        dsimp only
        split
        · exact h.withdraw_within orders env sender
        · exact h.publish_within orders env sender _
    · simp only [if_neg hkind]
      exact h.publish_within orders env sender _

theorem directedSent_within (update : Presence) (handler receiver : Address) :
    (seat.directedSent env update handler receiver).Rearranges
      (orders.within (seat.directedSent env update handler receiver)) := by
  unfold Seat.directedSent
  cases update.sender with
  | none => exact .refl _
  | some sender =>
    dsimp only
    split
    · exact .refl _
    · split
      · exact (h.recordPair_within orders env update.kind sender handler receiver).after _
      · exact .refl _

theorem processDirected_within (p : Presence) (handler : Address) :
    (seat.processDirected env p handler).Rearranges
      (orders.within (seat.processDirected env p handler)) := by
  unfold Seat.processDirected
  cases p.recipient with
  | none => exact .refl _
  | some receiver =>
    dsimp only
    cases (seat.services env).router (.presence p) with
    | some cause => exact .refl _
    | none => exact (h.directedSent_within orders env p handler receiver).after _

private theorem keepOrRemove_within (key : Address) (left : Registry) :
    (if left.isEmpty then seat.remove env key else seat.put env key left).Rearranges
      (orders.within (if left.isEmpty then seat.remove env key else seat.put env key left)) := by
  split
  · exact h.remove_within orders env key
  · exact h.put_within orders env key left

theorem removeDirected_within (owner recipient : Address) :
    (seat.removeDirected env owner recipient).Rearranges
      (orders.within (seat.removeDirected env owner recipient)) := by
  unfold Seat.removeDirected
  cases seat.get owner with
  | error cause => exact .refl _
  | ok found =>
    cases found with
    | none => exact .refl _
    | some registry =>
      by_cases hcount : (registry.removeAccount recipient).2 = 0
      · simp only [hcount, if_true]
        exact .refl _
      · simp only [hcount, if_false]
        exact (h.keepOrRemove_within orders env owner _).andThen (.refl _)

theorem dropDirected_within (contact : Address) (senders : List Address) :
    (dropDirected env contact senders seat).Rearranges
      (orders.within (dropDirected env contact senders seat)) := by
  induction senders generalizing seat with
  | nil => exact .refl _
  | cons sender senders ih =>
    have hcalm : (seat.removeDirected env sender contact).seat.Calm :=
      h.deals (deals_removeDirected trivial contact)
    exact (h.removeDirected_within orders env sender contact).andThen ((ih hcalm).after _)

theorem retract_within (update : Presence) :
    (seat.retract env update).Rearranges (orders.within (seat.retract env update)) := by
  unfold Seat.retract
  cases update.sender with
  | none => exact .refl _
  | some sender =>
    dsimp only
    split
    · exact .refl _
    · exact (h.remove_within orders env sender).andThen (.refl _)

private theorem sweepCached_within (sender : Address) :
    (seat.sweepCached env sender).Rearranges (orders.within (seat.sweepCached env sender)) := by
  unfold Seat.sweepCached
  cases seat.get sender with
  | error cause => exact .refl _
  | ok found =>
    cases found with
    | none => exact .refl _
    | some registry =>
      dsimp only
      split
      · exact .refl _
      · exact (h.keepOrRemove_within orders env sender _).map _

private theorem sweepSender_within (sender : Address) :
    (seat.sweepSender env sender).Rearranges (orders.within (seat.sweepSender env sender)) := by
  unfold Seat.sweepSender
  dsimp only
  exact ((h.setStore _).sweepCached_within orders env sender).andThen (.refl _)

theorem sweepEach_within (registries : List (Address × Registry)) :
    (sweepEach env registries seat).Rearranges
      (orders.within (sweepEach env registries seat)) := by
  induction registries generalizing seat with
  | nil => exact .refl _
  | cons p rest ih =>
    have hcalm : (seat.sweepSender env p.1).seat.Calm := h.deals (deals_sweepSender trivial)
    unfold Seat.sweepEach
    split
    · exact ih h
    · exact (h.sweepSender_within orders env p.1).andThen ((ih hcalm).map _)

end Seat.Calm

end DirectedPresence
