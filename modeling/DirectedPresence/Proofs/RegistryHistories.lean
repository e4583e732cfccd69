import Mathlib.Data.List.Pairwise
import DirectedPresence.Proofs.RegistryPairs

/-!
Whole histories of a registry. A `PairBook` is what a history amounts to without any grouping: a
plain set of pairs, and a log of the additions that found no pair of their handler. Each act of a
registry is an insertion into that set, a deletion from it or a filtering of it; from the empty
registry on, the entries are the set grouped by handler, each entry with the node of the latest
such addition of its handler, in the order of these additions, and every answer is one about the
set.
-/

namespace DirectedPresence

inductive RegistryAct where
  | add (handler : Address) (node : NodeId) (receiver : Address)
  | remove (handler receiver : Address)
  | retain (keep : HandlerEntry → Bool)
  | removeAccount (contact : Address)

/-- What a registry answers: whether it changed, or how much it lost. -/
inductive RegistryAnswer where
  | changed (flag : Bool)
  | lost (count : Nat)
deriving DecidableEq

namespace Registry

def perform (r : Registry) : RegistryAct → Registry × RegistryAnswer
  | .add handler node receiver =>
    let (after, flag) := r.add handler node receiver
    (after, .changed flag)
  | .remove handler receiver =>
    let (after, flag) := r.remove handler receiver
    (after, .changed flag)
  | .retain keep =>
    let (after, count) := r.retain keep
    (after, .lost count)
  | .removeAccount contact =>
    let (after, count) := r.removeAccount contact
    (after, .lost count)

def performAll (r : Registry) : List RegistryAct → Registry × List RegistryAnswer
  | [] => (r, [])
  | act :: acts =>
    let (after, answer) := r.perform act
    let (last, answers) := after.performAll acts
    (last, answer :: answers)

end Registry

/-- A plain set of pairs of a handler and a receiver, and the log of the additions that found no
pair of their handler, the latest one last. Nothing ever leaves the log. -/
structure PairBook where
  pairs : Finset (Address × Address) := ∅
  creations : List (Address × NodeId) := []

namespace PairBook

def empty : PairBook := {}

def handlers (b : PairBook) : Finset Address :=
  b.pairs.image Prod.fst

noncomputable def receivers (b : PairBook) (handler : Address) : AddressSet :=
  .ofList ((b.pairs.filter fun pair => pair.1 = handler).toList.map Prod.snd) compare

/-- For each handler that has a pair its latest creation, in the order of these creations. -/
def latest (b : PairBook) : List (Address × NodeId) :=
  (b.creations.pwFilter fun earlier later => earlier.1 ≠ later.1).filter fun creation =>
    creation.1 ∈ b.handlers

/-- The set grouped by handler. -/
noncomputable def entries (b : PairBook) : List HandlerEntry :=
  b.latest.map fun creation => ⟨creation.1, creation.2, b.receivers creation.1⟩

noncomputable def entry? (b : PairBook) (handler : Address) : Option HandlerEntry :=
  b.entries.find? (·.handler = handler)

/-- What each act is for a plain set: insertion, deletion, filtering by the group of a pair, and
filtering by the account of the receiver. The answers are about the set before and after. -/
noncomputable def perform (b : PairBook) : RegistryAct → PairBook × RegistryAnswer
  | .add handler node receiver =>
    ({ pairs := insert (handler, receiver) b.pairs
       creations :=
        if handler ∈ b.handlers then b.creations else b.creations ++ [(handler, node)] },
      .changed (decide ((handler, receiver) ∉ b.pairs)))
  | .remove handler receiver =>
    ({ b with pairs := b.pairs.erase (handler, receiver) },
      .changed (decide ((handler, receiver) ∈ b.pairs)))
  | .retain keep =>
    let after := { b with pairs := b.pairs.filter fun pair => (b.entry? pair.1).any keep }
    (after, .lost (b.handlers \ after.handlers).card)
  | .removeAccount contact =>
    let after := { b with pairs := b.pairs.filter fun pair => !pair.2.sameBare contact }
    (after, .lost (b.pairs \ after.pairs).card)

noncomputable def performAll (b : PairBook) : List RegistryAct → PairBook × List RegistryAnswer
  | [] => (b, [])
  | act :: acts =>
    let (after, answer) := b.perform act
    let (last, answers) := after.performAll acts
    (last, answer :: answers)

private theorem mem_handlers {b : PairBook} {handler : Address} :
    handler ∈ b.handlers ↔ ∃ receiver, (handler, receiver) ∈ b.pairs := by
  simp [handlers]

private theorem mem_receivers {b : PairBook} {handler receiver : Address} :
    receiver ∈ b.receivers handler ↔ (handler, receiver) ∈ b.pairs := by
  simp [receivers, Std.ExtTreeSet.mem_ofList]

private theorem handlers_mono {b after : PairBook} (h : after.pairs ⊆ b.pairs) :
    after.handlers ⊆ b.handlers :=
  Finset.image_subset_image h

/-- A creation that is logged anew supersedes the earlier ones of its handler. -/
theorem pwFilter_concat (log : List (Address × NodeId)) (creation : Address × NodeId) :
    (log ++ [creation]).pwFilter (fun earlier later => earlier.1 ≠ later.1) =
      (log.pwFilter fun earlier later => earlier.1 ≠ later.1).filter
        (fun old => old.1 ≠ creation.1) ++ [creation] := by
  have hmem : ∀ (first : Address × NodeId) (l : List (Address × NodeId)),
      (∀ old ∈ l.pwFilter fun earlier later => earlier.1 ≠ later.1, first.1 ≠ old.1) ↔
        ∀ old ∈ l, first.1 ≠ old.1 := by
    intro first l
    exact List.forall_mem_pwFilter (fun {x y z} hxz => by grind) first l
  induction log with
  | nil => exact List.pwFilter_cons_of_pos (by simp)
  | cons first log ih =>
    rw [List.cons_append]
    by_cases hlater : ∀ old ∈ log, first.1 ≠ old.1
    · rw [List.pwFilter_cons_of_pos ((hmem first log).mpr hlater), List.filter_cons]
      by_cases hsame : first.1 = creation.1
      · rw [List.pwFilter_cons_of_neg, ih]
        · simp [hsame]
        · rw [hmem]
          exact fun hall => hall creation (by simp) hsame
      · rw [List.pwFilter_cons_of_pos, ih]
        · simp [hsame]
        · rw [hmem]
          simpa [or_imp, forall_and, hsame] using hlater
    · rw [List.pwFilter_cons_of_neg (mt (hmem first log).mp hlater), List.pwFilter_cons_of_neg, ih]
      rw [hmem]
      exact fun hall => hlater fun old hold => hall old (List.mem_append_left _ hold)

private theorem nodup_latest (b : PairBook) : (b.latest.map Prod.fst).Nodup :=
  List.pairwise_map.mpr ((List.pairwise_pwFilter _).sublist List.filter_sublist)

end PairBook

namespace HandlerEntry

/-- The handler of an entry with the node that recorded it. -/
def stamp (e : HandlerEntry) : Address × NodeId :=
  (e.handler, e.node)

variable {handler receiver : Address} {node : NodeId} {es : List HandlerEntry}

private theorem map_stamp_record : (record handler node receiver es).1.map stamp =
    if handler ∈ es.map (·.handler) then es.map stamp else es.map stamp ++ [(handler, node)] := by
  induction es with
  | nil => simp [record, stamp]
  | cons first es ih =>
    by_cases hf : first.handler = handler
    · simp [record, hf, stamp]
    · have hf' : handler ≠ first.handler := fun h => hf h.symm
      simp only [record, if_neg hf, List.map_cons, ih, List.mem_cons, hf', false_or]
      split <;> simp

private theorem map_stamp_forget_sublist :
    ((forget handler receiver es).1.map stamp).Sublist (es.map stamp) := by
  induction es with
  | nil => simp [forget]
  | cons first es ih =>
    by_cases hf : first.handler = handler
    · simp only [forget, if_pos hf]
      split
      · exact List.sublist_cons_self _ _
      · exact List.Sublist.refl _
    · simp only [forget, if_neg hf, List.map_cons]
      exact ih.cons_cons _

/-- Recording changes something exactly when the pair is new. -/
theorem flag_record (handler : Address) (node : NodeId) (receiver : Address)
    (distinct : (es.map (·.handler)).Nodup) :
    (record handler node receiver es).2 = true ↔
      ¬ ∃ e ∈ es, e.handler = handler ∧ receiver ∈ e.receivers := by
  induction es with
  | nil => simp [record]
  | cons first es ih =>
    rw [List.map_cons, List.nodup_cons, List.mem_map] at distinct
    by_cases hf : first.handler = handler
    · simp only [record, if_pos hf, List.exists_mem_cons_iff]
      grind
    · simp only [record, if_neg hf, List.exists_mem_cons_iff, ih distinct.2]
      grind

/-- Forgetting finds something exactly when the pair is there. -/
theorem flag_forget (handler receiver : Address) (distinct : (es.map (·.handler)).Nodup) :
    (forget handler receiver es).2 = true ↔
      ∃ e ∈ es, e.handler = handler ∧ receiver ∈ e.receivers := by
  induction es with
  | nil => simp [forget]
  | cons first es ih =>
    rw [List.map_cons, List.nodup_cons, List.mem_map] at distinct
    by_cases hf : first.handler = handler
    · simp only [forget, if_pos hf, List.exists_mem_cons_iff]
      grind
    · simp only [forget, if_neg hf, List.exists_mem_cons_iff, ih distinct.2]
      grind

end HandlerEntry

namespace Registry

variable {r : Registry} {b : PairBook}

/-- A registry is the set of a book grouped by handler: its entries are the groups, no group is
empty, and what it tells of itself is what holds of the set. -/
structure Groups (r : Registry) (b : PairBook) : Prop where
  nodup_pairs : r.pairs.Nodup
  mem_pairs : ∀ pair, pair ∈ r.pairs ↔ pair ∈ b.pairs
  distinct : (r.entries.map (·.handler)).Nodup
  inhabited : ∀ e ∈ r.entries, e.receivers.isEmpty = false
  entries : r.entries = b.entries
  pairCount : r.pairCount = b.pairs.card
  get? : ∀ handler, r.get? handler = b.entry? handler
  hasAccount : ∀ contact, r.hasAccount contact = true ↔
    ∃ pair ∈ b.pairs, pair.2.sameBare contact = true
  receiversWhere : ∀ select receiver, receiver ∈ r.receiversWhere select ↔
    ∃ handler, select handler = true ∧ (handler, receiver) ∈ b.pairs

/-- What an act keeps of a registry and its book, from which `Groups` follows. -/
structure Matches (r : Registry) (b : PairBook) : Prop where
  regular : r.Regular
  pairSet : r.pairSet = b.pairs
  stamps : r.entries.map HandlerEntry.stamp = b.latest

private theorem matches_empty : empty.Matches .empty where
  regular := regular_empty
  pairSet := rfl
  stamps := rfl

private theorem Matches.mem_handlers (h : r.Matches b) {handler : Address} :
    handler ∈ b.handlers ↔ handler ∈ r.entries.map (·.handler) := by
  rw [PairBook.mem_handlers, ← h.pairSet, h.regular.exists_mem_pairSet]

/-- The receivers of an entry are those of its handler in the set. -/
theorem Matches.receivers (h : r.Matches b) {e : HandlerEntry} (he : e ∈ r.entries) :
    e.receivers = b.receivers e.handler := by
  apply Std.ExtTreeSet.ext_mem
  intro receiver
  rw [PairBook.mem_receivers, ← h.pairSet, mem_pairSet]
  constructor
  · exact fun hin => ⟨e, he, rfl, hin⟩
  · rintro ⟨other, hother, hsame, hin⟩
    have heq : other = e := List.inj_on_of_nodup_map h.regular.distinct hother he hsame
    exact heq ▸ hin

private theorem Matches.entries (h : r.Matches b) : r.entries = b.entries := by
  have hgroup : ∀ e ∈ r.entries,
      (⟨e.stamp.1, e.stamp.2, b.receivers e.stamp.1⟩ : HandlerEntry) = e := by
    intro e he
    rw [HandlerEntry.stamp, ← h.receivers he]
  rw [PairBook.entries, ← h.stamps, List.map_map]
  exact ((List.map_congr_left hgroup).trans r.entries.map_id).symm

private theorem Matches.groups (h : r.Matches b) : r.Groups b where
  nodup_pairs := h.regular.nodup_pairs
  mem_pairs pair := by rw [← h.pairSet, Registry.pairSet, List.mem_toFinset]
  distinct := h.regular.distinct
  inhabited := h.regular.inhabited
  entries := h.entries
  pairCount := by
    rw [← h.pairSet, Registry.pairSet, List.toFinset_card_of_nodup h.regular.nodup_pairs,
      length_pairs]
  get? handler := by rw [Registry.get?, PairBook.entry?, h.entries]
  hasAccount contact := by rw [← h.pairSet, hasAccount_iff]
  receiversWhere select receiver := by
    simp only [mem_receiversWhere, ← h.pairSet, mem_pairSet]
    grind

/-- The entry of a handler is found whatever stands before it. -/
theorem Regular.get?_of_mem (h : r.Regular) {e : HandlerEntry} (he : e ∈ r.entries) :
    r.get? e.handler = some e := by
  cases hget : r.get? e.handler with
  | none =>
    have hnone := List.find?_eq_none.mp hget e he
    simp at hnone
  | some found =>
    have hsame : found.handler = e.handler := by simpa using List.find?_some hget
    exact congrArg some
      (List.inj_on_of_nodup_map h.distinct (List.mem_of_find?_eq_some hget) he hsame)

/-- A sublist of a list with distinct keys is what its keys select. -/
theorem eq_filter_of_sublist {stamps before : List (Address × NodeId)}
    (h : stamps.Sublist before) (distinct : (before.map Prod.fst).Nodup) :
    stamps = before.filter fun stamp => stamp.1 ∈ stamps.map Prod.fst := by
  induction h with
  | slnil => rfl
  | @cons kept all first hsub ih =>
    rw [List.map_cons, List.nodup_cons] at distinct
    have hgone : first.1 ∉ kept.map Prod.fst := fun hin => distinct.1 ((hsub.map _).subset hin)
    rw [List.filter_cons, if_neg (by simpa using hgone)]
    exact ih distinct.2
  | @cons_cons kept all first hsub ih =>
    rw [List.map_cons, List.nodup_cons] at distinct
    rw [List.filter_cons, if_pos (by simp)]
    congr 1
    refine (ih distinct.2).trans (List.filter_congr fun stamp hstamp => ?_)
    have hne : stamp.1 ≠ first.1 := fun heq =>
      distinct.1 (heq ▸ List.mem_map_of_mem hstamp)
    simp [hne]

/-- An act that only takes pairs away, and keeps the order and the nodes of the entries, leaves of
the book what its pairs say. -/
theorem Matches.lessen (h : r.Matches b) {after : Registry} (regular : after.Regular)
    (stamps : (after.entries.map HandlerEntry.stamp).Sublist (r.entries.map HandlerEntry.stamp))
    {left : Finset (Address × Address)} (pairSet : after.pairSet = left) (fewer : left ⊆ b.pairs) :
    after.Matches { b with pairs := left } where
  regular := regular
  pairSet := pairSet
  stamps := by
    have hkeys : (after.entries.map HandlerEntry.stamp).map Prod.fst =
        after.entries.map (·.handler) := by
      simp [HandlerEntry.stamp]
    have hleft : ∀ handler, handler ∈ after.entries.map (·.handler) ↔
        handler ∈ ({ b with pairs := left } : PairBook).handlers := by
      intro handler
      rw [PairBook.mem_handlers, ← regular.exists_mem_pairSet, pairSet]
    rw [h.stamps] at stamps
    rw [eq_filter_of_sublist stamps b.nodup_latest, hkeys, PairBook.latest, PairBook.latest,
      List.filter_filter]
    apply List.filter_congr
    intro stamp _
    have hmono : ({ b with pairs := left } : PairBook).handlers ⊆ b.handlers :=
      PairBook.handlers_mono fewer
    have hstamp := @hmono stamp.1
    simp only [hleft]
    grind

private theorem Matches.add (h : r.Matches b) (handler : Address) (node : NodeId)
    (receiver : Address) :
    (r.add handler node receiver).1.Matches (b.perform (.add handler node receiver)).1 where
  regular := h.regular.add
  pairSet := by rw [pairSet_add, h.pairSet, PairBook.perform]
  stamps := by
    have hkeys : ∀ log, PairBook.handlers ⟨insert (handler, receiver) b.pairs, log⟩ =
        insert handler b.handlers := by
      intro log
      simp [PairBook.handlers, Finset.image_insert]
    show (HandlerEntry.record handler node receiver r.entries).1.map HandlerEntry.stamp = _
    rw [HandlerEntry.map_stamp_record, h.stamps]
    simp only [PairBook.perform, ← h.mem_handlers]
    split
    · next hold => rw [PairBook.latest, PairBook.latest, hkeys, Finset.insert_eq_of_mem hold]
    · next hnew =>
      rw [PairBook.latest, PairBook.latest, hkeys, PairBook.pwFilter_concat, List.filter_append,
        List.filter_filter]
      congr 1
      · apply List.filter_congr
        intro stamp _
        grind
      · simp

private theorem Matches.remove (h : r.Matches b) (handler receiver : Address) :
    (r.remove handler receiver).1.Matches (b.perform (.remove handler receiver)).1 := by
  apply h.lessen h.regular.remove HandlerEntry.map_stamp_forget_sublist
  · rw [h.regular.pairSet_remove, h.pairSet]
  · exact Finset.erase_subset _ _

/-- A pair stays when the entry of its handler does. -/
theorem Matches.pairSet_retain (h : r.Matches b) (keep : HandlerEntry → Bool) :
    (r.retain keep).1.pairSet = b.pairs.filter fun pair => (b.entry? pair.1).any keep := by
  ext ⟨handler, receiver⟩
  rw [Finset.mem_filter, ← h.pairSet, mem_pairSet, mem_pairSet, ← h.groups.get?]
  simp only [Registry.retain, List.mem_filter]
  constructor
  · rintro ⟨e, ⟨he, hkeep⟩, rfl, hin⟩
    exact ⟨⟨e, he, rfl, hin⟩, by simpa [h.regular.get?_of_mem he] using hkeep⟩
  · rintro ⟨⟨e, he, rfl, hin⟩, hkeep⟩
    exact ⟨e, ⟨he, by simpa [h.regular.get?_of_mem he] using hkeep⟩, rfl, hin⟩

private theorem Matches.retain (h : r.Matches b) (keep : HandlerEntry → Bool) :
    (r.retain keep).1.Matches (b.perform (.retain keep)).1 := by
  apply h.lessen (h.regular.retain keep) (List.filter_sublist.map _)
  · exact h.pairSet_retain keep
  · exact Finset.filter_subset _ _

private theorem Matches.removeAccount (h : r.Matches b) (contact : Address) :
    (r.removeAccount contact).1.Matches (b.perform (.removeAccount contact)).1 := by
  apply h.lessen (h.regular.removeAccount contact)
  · have hsame : (r.entries.map (·.withoutAccount contact)).map HandlerEntry.stamp =
        r.entries.map HandlerEntry.stamp := by
      simp [HandlerEntry.withoutAccount, HandlerEntry.stamp]
    exact hsame ▸ List.filter_sublist.map _
  · rw [Registry.pairSet_removeAccount, h.pairSet]
  · exact Finset.filter_subset _ _

/-- The number of entries is the number of handlers in the set. -/
theorem Matches.card_handlers (h : r.Matches b) : b.handlers.card = r.entries.length := by
  have hset : b.handlers = (r.entries.map (·.handler)).toFinset := by
    ext handler
    rw [h.mem_handlers, List.mem_toFinset]
  rw [hset, List.toFinset_card_of_nodup h.regular.distinct, List.length_map]

private theorem Matches.perform (h : r.Matches b) (act : RegistryAct) :
    (r.perform act).1.Matches (b.perform act).1 := by
  cases act with
  | add handler node receiver => exact h.add handler node receiver
  | remove handler receiver => exact h.remove handler receiver
  | retain keep => exact h.retain keep
  | removeAccount contact => exact h.removeAccount contact

private theorem Matches.answer (h : r.Matches b) (act : RegistryAct) :
    (r.perform act).2 = (b.perform act).2 := by
  cases act with
  | add handler node receiver =>
    have hflag := HandlerEntry.flag_record handler node receiver h.regular.distinct
    rw [← mem_pairSet, h.pairSet] at hflag
    exact congrArg RegistryAnswer.changed (Bool.eq_iff_iff.mpr (by simpa using! hflag))
  | remove handler receiver =>
    have hflag := HandlerEntry.flag_forget handler receiver h.regular.distinct
    rw [← mem_pairSet, h.pairSet] at hflag
    exact congrArg RegistryAnswer.changed (Bool.eq_iff_iff.mpr (by simpa using! hflag))
  | retain keep =>
    have hafter := (h.retain keep).card_handlers
    have hfewer : (b.perform (.retain keep)).1.handlers ⊆ b.handlers :=
      PairBook.handlers_mono (Finset.filter_subset _ _)
    have hcard := Finset.card_sdiff_of_subset hfewer
    rw [hafter, h.card_handlers] at hcard
    exact congrArg RegistryAnswer.lost hcard.symm
  | removeAccount contact =>
    have hgone : b.pairs \ (b.pairs.filter fun pair => !pair.2.sameBare contact) =
        b.pairs.filter fun pair => pair.2.sameBare contact := by
      ext pair
      simp only [Finset.mem_sdiff, Finset.mem_filter]
      grind
    have hcount := h.regular.count_removeAccount contact
    rw [h.pairSet, ← hgone] at hcount
    exact congrArg RegistryAnswer.lost hcount

private theorem Matches.performAll (h : r.Matches b) (acts : List RegistryAct) :
    (r.performAll acts).1.Matches (b.performAll acts).1 ∧
      (r.performAll acts).2 = (b.performAll acts).2 := by
  induction acts generalizing r b with
  | nil => exact ⟨h, rfl⟩
  | cons act acts ih =>
    obtain ⟨hlast, hanswers⟩ := ih (h.perform act)
    exact ⟨hlast, congrArg₂ List.cons (h.answer act) hanswers⟩

/-- After any acts on an empty registry, the registry is the plain set that these acts make, grouped
by handler, and it gave the answers that hold of this set. -/
theorem groups_performAll (acts : List RegistryAct) :
    (empty.performAll acts).1.Groups (PairBook.empty.performAll acts).1 ∧
      (empty.performAll acts).2 = (PairBook.empty.performAll acts).2 := by
  obtain ⟨hmatches, hanswers⟩ := matches_empty.performAll acts
  exact ⟨hmatches.groups, hanswers⟩

end Registry

end DirectedPresence
