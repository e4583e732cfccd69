import DirectedPresence.Proofs.MirrorDepartures

/-!
What an index shows when departures are heard late. A departed node may have joined again before the
notice of its departure reaches a member; then the member's index still shows entries of before, and
the notice, when it is heard, also takes away what the node has written since. So nothing is said of
an index as long as the member has still to be told, and afterwards, for each sender, the index
shows either what is due or, where late notices are tolerated, nothing (`Shows`). `Fabric.Outlook`
is the invariant.
-/

namespace DirectedPresence

/-- What is shown is what is due, or, where that is tolerated, nothing. -/
def Shows (lenient : Prop) (shown due : Option AddressSet) : Prop :=
  shown = due ∨ lenient ∧ shown = none

namespace Shows

variable {lenient : Prop} {shown due : Option AddressSet}

theorem eq_none (h : Shows lenient shown none) : shown = none :=
  h.elim (fun heq => heq) fun hnone => hnone.2

theorem eq_of_not_lenient (h : Shows lenient shown due) (hexact : ¬ lenient) : shown = due :=
  h.resolve_right fun hnone => hexact hnone.1

end Shows

namespace Fabric

/-- What the index of a node shows of a sender of another one. -/
def shown (fabric : Fabric) (watcher peer : NodeId) (sender : Address) : Option AddressSet :=
  (fabric.index watcher).receivers? peer sender

/-- What the index of a node has to show of a sender of another one: the receivers that the other
node has in the hub, as far as they are served here. -/
def due (serves : NodeId → Address → Bool) (fabric : Fabric) (watcher peer : NodeId)
    (sender : Address) : Option AddressSet :=
  if watcher ∈ fabric.hub.members ∧ peer ≠ watcher then
    (fabric.hub.estate peer sender).bind (·.localReceivers? (serves watcher))
  else none

variable {serves : NodeId → Address → Bool} {before after fabric : Fabric}
  {watcher peer : NodeId} {sender : Address}

theorem due_of_absent (habsent : watcher ∉ fabric.hub.members) :
    fabric.due serves watcher peer sender = none := by
  simp only [due, habsent, false_and, if_false]

theorem due_self : fabric.due serves watcher watcher sender = none := by
  simp only [due, ne_eq, not_true_eq_false, and_false, if_false]

theorem due_of_member (hmember : watcher ∈ fabric.hub.members) (hne : peer ≠ watcher) :
    fabric.due serves watcher peer sender =
      (fabric.hub.estate peer sender).bind (·.localReceivers? (serves watcher)) := by
  simp only [due, hmember, hne, ne_eq, not_false_eq_true, and_self, if_true]

theorem due_congr (hmember : watcher ∈ after.hub.members ↔ watcher ∈ before.hub.members)
    (hestate : after.hub.estate peer sender = before.hub.estate peer sender) :
    after.due serves watcher peer sender = before.due serves watcher peer sender := by
  simp only [due, hmember, hestate]

theorem due_of_nothing (hnothing : fabric.hub.estate peer sender = none) :
    fabric.due serves watcher peer sender = none := by
  rw [due, hnothing, Option.bind_none, ite_self]

private theorem due_leave {node : NodeId} (hhub : after.hub = before.hub.leave node)
    (hne : watcher ≠ node) : after.due serves watcher peer sender =
      if node = peer then none else before.due serves watcher peer sender := by
  have hestate := Hub.estate_leave before.hub node peer sender
  rw [← hhub] at hestate
  split
  · next heq => exact due_of_nothing (hestate.trans (if_pos heq))
  · next heq =>
    refine due_congr ?_ (hestate.trans (if_neg heq))
    rw [hhub, Hub.mem_members_leave]
    simp [hne]

/-- A change after which every index shows what is due, where it does not show the same as before
and the same is due. -/
structure Follows (serves : NodeId → Address → Bool) (before after : Fabric) : Prop where
  members : after.hub.members = before.hub.members
  compact : ∀ node, (before.index node).Compact → (after.index node).Compact
  shows : ∀ watcher peer sender,
    after.shown watcher peer sender = after.due serves watcher peer sender ∨
      after.shown watcher peer sender = before.shown watcher peer sender ∧
        after.due serves watcher peer sender = before.due serves watcher peer sender

theorem Follows.refl (fabric : Fabric) : Follows serves fabric fabric :=
  ⟨rfl, fun _ h => h, fun _ _ _ => Or.inr ⟨rfl, rfl⟩⟩

theorem Follows.trans {a b c : Fabric} (hab : Follows serves a b) (hbc : Follows serves b c) :
    Follows serves a c := by
  refine ⟨hbc.members.trans hab.members, fun node h => hbc.compact node (hab.compact node h), ?_⟩
  intro watcher peer sender
  rcases hbc.shows watcher peer sender with hexact | ⟨hshown, hdue⟩
  · exact Or.inl hexact
  · rcases hab.shows watcher peer sender with hexact | ⟨hshown', hdue'⟩
    · exact Or.inl (by rw [hshown, hdue, hexact])
    · exact Or.inr ⟨hshown.trans hshown', hdue.trans hdue'⟩

/-- An event about one sender of its origin, which all other members note. -/
theorem Follows.of_event (origin : NodeId) (key : Address) (event : CacheEvent)
    (hmembers : after.hub.members = before.hub.members)
    (hindex : ∀ node, after.index node =
      if node ∈ before.hub.members ∧ node ≠ origin then
        (before.index node).noted (serves node) event
      else before.index node)
    (hestates : ∀ peer sender, ¬ (origin = peer ∧ key = sender) →
      after.hub.estate peer sender = before.hub.estate peer sender)
    (hothers : ∀ (isLocal : Address → Bool) (index : ReverseIndex) peer sender,
      ¬ (origin = peer ∧ key = sender) →
      (index.noted isLocal event).receivers? peer sender = index.receivers? peer sender)
    (hkey : ∀ watcher, ((before.index watcher).noted (serves watcher) event).receivers? origin key =
        (after.hub.estate origin key).bind (·.localReceivers? (serves watcher)) ∨
      ((before.index watcher).noted (serves watcher) event).receivers? origin key =
          (before.index watcher).receivers? origin key ∧
        (after.hub.estate origin key).bind (·.localReceivers? (serves watcher)) =
          (before.hub.estate origin key).bind (·.localReceivers? (serves watcher))) :
    Follows serves before after where
  members := hmembers
  compact := by
    intro node h
    rw [hindex]
    split
    · exact h.noted event
    · exact h
  shows := by
    intro watcher peer sender
    have hmember : watcher ∈ after.hub.members ↔ watcher ∈ before.hub.members := by rw [hmembers]
    unfold shown
    rw [hindex]
    by_cases habout : origin = peer ∧ key = sender
    · obtain ⟨rfl, rfl⟩ := habout
      split
      · next htold =>
        have hne : origin ≠ watcher := fun heq => htold.2 heq.symm
        rw [due_of_member (hmember.mpr htold.1) hne, due_of_member htold.1 hne]
        exact hkey watcher
      · next huntold =>
        refine Or.inr ⟨rfl, ?_⟩
        by_cases hin : watcher ∈ before.hub.members
        · have hself : watcher = origin := Classical.not_not.mp fun hne => huntold ⟨hin, hne⟩
          rw [hself, due_self, due_self]
        · rw [due_of_absent hin, due_of_absent fun hmem => hin (hmember.mp hmem)]
    · refine Or.inr ⟨?_, due_congr hmember (hestates peer sender habout)⟩
      split
      · exact hothers _ _ peer sender habout
      · rfl

end Fabric

/-! ## Changes of the hub -/

namespace Hub

variable {host : Address → NodeId} {env : Environment} {serves : NodeId → Address → Bool}
  {hub : Hub Feed} {indexes : NodeMap ReverseIndex} {origin : NodeId} {key : Address}

/-- A sender is in the estate of no one but its host. -/
theorem Held.estate_of_ne (h : hub.Held host) {peer : NodeId} {sender : Address}
    (hne : peer ≠ host sender) : hub.estate peer sender = none := by
  rw [h.estate_eq, if_neg fun heq => hne heq.symm]

private theorem Held.follows_put (h : hub.Held host)
    (henv : ∀ node, (env node).routes.isLocal = serves node) (hlisten : hub.HeardBy origin)
    (hosted : host key = origin) (value : Registry) :
    Fabric.Follows serves ⟨hub, indexes⟩
      ⟨(hub.put (Feed.react env) origin key value indexes).cache,
        (hub.put (Feed.react env) origin key value indexes).world⟩ := by
  obtain ⟨hcache, hindexes⟩ := put_listening env value (h.legible.get key) hlisten indexes
  rw [hcache]
  refine .of_event origin key (.ofWrite key (hub.lookup key) value origin) rfl ?_ ?_ ?_ ?_
  · intro node
    rw [← henv]
    exact hindexes node
  · intro peer sender hother
    rw [estate_insert]
    split
    · next heq =>
      have hne : origin ≠ peer := fun hp => hother ⟨hp, heq⟩
      rw [if_neg hne, h.estate_of_ne]
      rw [← heq, hosted]
      exact hne.symm
    · rfl
  · intro isLocal index peer sender hother
    rw [ReverseIndex.receivers?_noted_write, if_neg hother]
  · intro watcher
    rw [ReverseIndex.receivers?_noted_write, if_pos ⟨rfl, rfl⟩, estate_insert, if_pos rfl,
      if_pos rfl, h.estate_eq, if_pos hosted, Option.bind_some]
    cases hlocal : value.localReceivers? (serves watcher) with
    | some receivers => exact Or.inl rfl
    | none =>
      cases hlookup : hub.lookup key with
      | some old => exact Or.inl rfl
      | none => exact Or.inr ⟨rfl, rfl⟩

private theorem Held.follows_remove (h : hub.Held host)
    (henv : ∀ node, (env node).routes.isLocal = serves node) (hlisten : hub.HeardBy origin)
    (hosted : host key = origin) :
    Fabric.Follows serves ⟨hub, indexes⟩
      ⟨(hub.remove (Feed.react env) origin key indexes).cache,
        (hub.remove (Feed.react env) origin key indexes).world⟩ := by
  cases hholding : hub.data[key]? with
  | none =>
    simp only [remove, takeOut, hholding]
    exact .refl _
  | some holding =>
    obtain ⟨old, hread⟩ := h.legible key holding hholding
    obtain ⟨hcache, hindexes⟩ := remove_listening env hholding hread hlisten indexes
    rw [hcache]
    refine .of_event origin key (.removed key (some old) origin) rfl ?_ ?_ ?_ ?_
    · intro node
      rw [← henv]
      exact hindexes node
    · intro peer sender hother
      rw [estate_erase]
      split
      · next heq =>
        have hne : origin ≠ peer := fun hp => hother ⟨hp, heq⟩
        rw [h.estate_of_ne]
        rw [← heq, hosted]
        exact hne.symm
      · rfl
    · intro isLocal index peer sender hother
      rw [ReverseIndex.receivers?_noted_removed, if_neg hother]
    · intro watcher
      rw [ReverseIndex.receivers?_noted_removed, if_pos ⟨rfl, rfl⟩, estate_erase, if_pos rfl]
      exact Or.inl rfl

end Hub

namespace Seat

variable {host : Address → NodeId} {env : Environment} {serves : NodeId → Address → Bool}
  {seat seat' : Seat}

private theorem Sound.follows_edit (h : seat.Sound host)
    (henv : ∀ node, (env node).routes.isLocal = serves node)
    (hlisten : seat.fabric.hub.HeardBy seat.node.id) (hedit : Edit env host seat seat') :
    Fabric.Follows serves seat.fabric seat'.fabric := by
  rcases h.steady.fabric_edit hedit with hsame | ⟨-, sender, -, hosted, ⟨registry, hput⟩ | hremove⟩
  · rw [hsame]
    exact .refl _
  · rw [hput]
    exact h.held.follows_put henv hlisten hosted registry
  · rw [hremove]
    exact h.held.follows_remove henv hlisten hosted

theorem Sound.follows_edits (h : seat.Sound host)
    (henv : ∀ node, (env node).routes.isLocal = serves node)
    (hlisten : seat.fabric.hub.HeardBy seat.node.id) (hedits : Edits env host seat seat') :
    Fabric.Follows serves seat.fabric seat'.fabric := by
  induction hedits with
  | refl => exact .refl _
  | tail hedits hedit ih =>
    have hid := (Edits.sameNode hedits).id
    refine ih.trans ((h.edits hedits).follows_edit henv ?_ hedit)
    intro node hmember hne
    rw [ih.members] at hmember
    exact (hlisten node hmember (hid ▸ hne)).congr (by rw [ih.members])

end Seat

/-! ## The outlook of a fabric -/

/-- If the watcher has an index of the peer, it has not still to be told that the peer left. -/
def Fabric.Informed (untold : NodeId → NodeId → Prop) (fabric : Fabric) (watcher peer : NodeId) :
    Prop :=
  watcher ∈ fabric.hub.members → peer ≠ watcher → ¬ untold watcher peer

/-- All members listen, and of every peer whose departures it has heard the index of a node that has
not crashed shows what is due, or, where that is tolerated, nothing. -/
structure Fabric.Outlook (serves : NodeId → Address → Bool) (lenient : Prop)
    (crashed : NodeId → Prop) (untold : NodeId → NodeId → Prop) (fabric : Fabric) : Prop where
  listening : ∀ node ∈ fabric.hub.members, fabric.hub.Listens node
  gone : ∀ node, crashed node → node ∉ fabric.hub.members
  compact : ∀ node, (fabric.index node).Compact
  shows : ∀ watcher peer, ¬ crashed watcher → fabric.Informed untold watcher peer →
    ∀ sender, Shows lenient (fabric.shown watcher peer sender)
      (fabric.due serves watcher peer sender)

namespace Fabric.Outlook

variable {host : Address → NodeId} {serves : NodeId → Address → Bool} {lenient : Prop}
  {crashed crashed' : NodeId → Prop} {untold untold' : NodeId → NodeId → Prop}
  {fabric before after : Fabric} {node peer : NodeId}

theorem heardBy (h : fabric.Outlook serves lenient crashed untold) (origin : NodeId) :
    fabric.hub.HeardBy origin :=
  fun node hmember _ => h.listening node hmember

theorem mono (h : fabric.Outlook serves lenient crashed untold)
    (hkept : ∀ watcher peer, watcher ∈ fabric.hub.members → untold watcher peer →
      untold' watcher peer) :
    fabric.Outlook serves lenient crashed untold' where
  listening := h.listening
  gone := h.gone
  compact := h.compact
  shows := by
    intro watcher peer halive hinformed
    apply h.shows watcher peer halive
    intro hmember hne hmem
    exact hinformed hmember hne (hkept watcher peer hmember hmem)

theorem follows (h : before.Outlook serves lenient crashed untold)
    (hfollows : Follows serves before after) :
    after.Outlook serves lenient crashed untold where
  listening := by
    intro node hmember
    rw [hfollows.members] at hmember
    exact (h.listening node hmember).congr (by rw [hfollows.members])
  gone := by
    intro node hcrashed
    rw [hfollows.members]
    exact h.gone node hcrashed
  compact := fun node => hfollows.compact node (h.compact node)
  shows := by
    intro watcher peer halive hinformed sender
    rcases hfollows.shows watcher peer sender with hexact | ⟨hshown, hdue⟩
    · exact Or.inl hexact
    · rw [hshown, hdue]
      apply h.shows watcher peer halive
      rwa [Informed, ← hfollows.members]

/-! ## Departures -/

/-- The hub forgets a node, and the others are told of it if it was a member; what becomes of the
node's own index is not said. -/
theorem depart (h : before.Outlook serves lenient crashed untold) (hheld : before.hub.Held host)
    (hhub : after.hub = before.hub.leave node)
    (hindex : ∀ other, after.index other = before.index other)
    (hcrashed : ∀ other, crashed' other ↔ crashed other ∨ other = node)
    (hkept : ∀ watcher peer, watcher ≠ node → untold watcher peer → untold' watcher peer)
    (hleft : node ∈ before.hub.members → ∀ watcher ∈ before.hub.members, watcher ≠ node →
      untold' watcher node) :
    after.Outlook serves lenient crashed' untold' := by
  refine ⟨hhub ▸ Hub.listening_leave h.listening, hhub ▸ Hub.gone_leave h.gone hcrashed, ?_, ?_⟩
  · intro other
    rw [hindex]
    exact h.compact other
  · intro watcher peer hwatcher hinformed sender
    have halive : ¬ crashed watcher := fun hc => hwatcher ((hcrashed watcher).mpr (Or.inl hc))
    have hne : watcher ≠ node := fun heq => hwatcher ((hcrashed watcher).mpr (Or.inr heq))
    have hshown : after.shown watcher peer sender = before.shown watcher peer sender := by
      rw [shown, hindex, shown]
    have hbefore : before.Informed untold watcher peer := by
      intro hmember hpeer hmem
      exact hinformed (by rw [hhub, Hub.mem_members_leave]; exact ⟨hne, hmember⟩) hpeer
        (hkept watcher peer hne hmem)
    have hshows := h.shows watcher peer halive hbefore sender
    rw [hshown, due_leave hhub hne]
    split
    · next heq =>
      subst heq
      suffices hnothing : before.due serves watcher node sender = none by rwa [hnothing] at hshows
      by_cases hwatching : watcher ∈ before.hub.members
      · apply due_of_nothing
        apply hheld.estate_of_absent
        intro hpresent
        have huntold := hleft hpresent watcher hwatching hne
        refine hinformed ?_ (fun heq => hne heq.symm) huntold
        rw [hhub, Hub.mem_members_leave]
        exact ⟨hne, hwatching⟩
      · exact due_of_absent hwatching
    · exact hshows

/-- A node that is not in the hub blanks its index. -/
theorem clear (h : fabric.Outlook serves lenient (fun other => crashed other ∨ other = node) untold)
    (habsent : node ∉ fabric.hub.members) {index : ReverseIndex} (hcompact : index.Compact)
    (hblank : ∀ peer sender, index.receivers? peer sender = none) :
    (fabric.setIndex node index).Outlook serves lenient crashed untold := by
  refine ⟨h.listening, fun other hc => h.gone other (Or.inl hc), ?_, ?_⟩
  · intro other
    rw [index_setIndex]
    split
    · exact hcompact
    · exact h.compact other
  · intro watcher peer halive hinformed sender
    by_cases heq : node = watcher
    · subst heq
      have hdue : (fabric.setIndex node index).due serves node peer sender = none :=
        due_of_absent habsent
      rw [shown, index_setIndex, if_pos rfl, hblank, hdue]
      exact Or.inl rfl
    · rw [shown, index_setIndex, if_neg heq]
      refine h.shows watcher peer ?_ hinformed sender
      rintro (hc | hwatcher)
      · exact halive hc
      · exact heq hwatcher.symm

/-- The notice of a departure reaches a node. Where that can be late, the index may lose what was
written since. -/
theorem hear (h : fabric.Outlook serves lenient crashed untold) (hheld : fabric.hub.Held host)
    (hkept : ∀ watcher other, untold watcher other →
      untold' watcher other ∨ watcher = node ∧ other = peer)
    (hprompt : ¬ lenient → peer ∉ fabric.hub.members) :
    (fabric.setIndex node ((fabric.index node).clearNode peer)).Outlook serves lenient crashed
      untold' := by
  refine ⟨h.listening, h.gone, ?_, ?_⟩
  · intro other
    rw [index_setIndex]
    split
    · exact (h.compact node).clearNode peer
    · exact h.compact other
  · intro watcher other halive hinformed sender
    have hinformed' : ¬ (watcher = node ∧ other = peer) → fabric.Informed untold watcher other := by
      intro hforeign hmember hne huntold
      exact hinformed hmember hne ((hkept watcher other huntold).resolve_right hforeign)
    by_cases hwatcher : node = watcher
    · subst hwatcher
      rw [shown, index_setIndex, if_pos rfl, ReverseIndex.receivers?_clearNode]
      by_cases hpeer : peer = other
      · subst hpeer
        rw [if_pos rfl]
        by_cases hlenient : lenient
        · exact Or.inr ⟨hlenient, rfl⟩
        · exact Or.inl (due_of_nothing (hheld.estate_of_absent (hprompt hlenient) sender)).symm
      · rw [if_neg hpeer]
        exact h.shows node other halive (hinformed' fun hown => hpeer hown.2.symm) sender
    · rw [shown, index_setIndex, if_neg hwatcher]
      exact h.shows watcher other halive (hinformed' fun hown => hwatcher hown.1.symm) sender

end Fabric.Outlook

end DirectedPresence
