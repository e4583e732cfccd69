import Mathlib.Data.Finset.Card
import Mathlib.Data.Finset.Image
import DirectedPresence.Registry

/-!
A registry as a set of pairs of a handler and a receiver. `Registry.Regular` is what every operation
keeps: handlers are pairwise distinct and no receiver set is empty. On regular registries the
operations are those of plain sets: insertion, deletion and filtering. `RecordedBy` says which node
wrote the entries; it is kept by the operations that one node performs.
-/

namespace DirectedPresence

theorem AddressSet.nodup_toList (addresses : AddressSet) : addresses.toList.Nodup :=
  Std.ExtTreeSet.distinct_toList.imp fun hne heq => hne (by simp [heq])

/-- The pairs of one first component with each element of a set are distinct. -/
theorem AddressSet.nodup_map_pair (addresses : AddressSet) (first : Address) :
    (addresses.toList.map fun address => (first, address)).Nodup :=
  addresses.nodup_toList.map fun _ _ heq => (Prod.mk.inj heq).2

theorem AddressSet.exists_mem {addresses : AddressSet} (h : addresses.isEmpty = false) :
    ∃ address, address ∈ addresses := by
  rwa [Std.ExtTreeSet.isEmpty_eq_false_iff, Std.ExtTreeSet.eq_empty_iff_forall_not_mem,
    Classical.not_forall_not] at h

namespace Registry

/-- The invariant of registries that grew from the empty one. -/
structure Regular (r : Registry) : Prop where
  distinct : (r.entries.map (·.handler)).Nodup
  inhabited : ∀ e ∈ r.entries, e.receivers.isEmpty = false

/-- Every entry was recorded by this node. -/
def RecordedBy (r : Registry) (node : NodeId) : Prop :=
  ∀ e ∈ r.entries, e.node = node

def pairSet (r : Registry) : Finset (Address × Address) :=
  r.pairs.toFinset

theorem mem_pairSet {r : Registry} {handler receiver : Address} :
    (handler, receiver) ∈ r.pairSet ↔
      ∃ e ∈ r.entries, e.handler = handler ∧ receiver ∈ e.receivers := by
  rw [pairSet, List.mem_toFinset, mem_pairs]

theorem regular_empty : empty.Regular :=
  ⟨List.nodup_nil, by simp [empty]⟩

theorem recordedBy_empty (node : NodeId) : empty.RecordedBy node := by
  simp [RecordedBy, empty]

end Registry

namespace HandlerEntry

private theorem isEmpty_eq_false_of_mem {receivers : AddressSet} {receiver : Address}
    (h : receiver ∈ receivers) : receivers.isEmpty = false := by
  rw [Std.ExtTreeSet.isEmpty_eq_false_iff]
  rintro rfl
  simp at h

variable {handler receiver : Address} {node : NodeId} {es : List HandlerEntry}

/-- An entry after recording is an old one, an old one with one receiver more, or the new one. -/
theorem mem_record {e : HandlerEntry} (h : e ∈ (record handler node receiver es).1) :
    e ∈ es ∨ (∃ old ∈ es, e = { old with receivers := old.receivers.insert receiver }) ∨
      e = ⟨handler, node, {receiver}⟩ := by
  induction es with
  | nil => simpa [record] using h
  | cons first es ih =>
    by_cases hf : first.handler = handler
    · simp only [record, if_pos hf, List.mem_cons] at h
      rcases h with hnew | hold
      · exact Or.inr (Or.inl ⟨first, by simp, hnew⟩)
      · exact Or.inl (by simp [hold])
    · simp only [record, if_neg hf, List.mem_cons] at h
      rcases h with hfirst | hrest
      · exact Or.inl (by simp [hfirst])
      · rcases ih hrest with hold | ⟨old, hold, heq⟩ | hnew
        · exact Or.inl (by simp [hold])
        · exact Or.inr (Or.inl ⟨old, by simp [hold], heq⟩)
        · exact Or.inr (Or.inr hnew)

private theorem map_handler_record : (record handler node receiver es).1.map (·.handler) =
    if handler ∈ es.map (·.handler) then es.map (·.handler)
    else es.map (·.handler) ++ [handler] := by
  induction es with
  | nil => simp [record]
  | cons first es ih =>
    by_cases hf : first.handler = handler
    · simp [record, hf]
    · have hf' : handler ≠ first.handler := fun h => hf h.symm
      simp only [record, if_neg hf, List.map_cons, ih, List.mem_cons, hf', false_or]
      split <;> simp

private theorem exists_record {h r : Address} :
    (∃ e ∈ (record handler node receiver es).1, e.handler = h ∧ r ∈ e.receivers) ↔
      (h = handler ∧ r = receiver) ∨ ∃ e ∈ es, e.handler = h ∧ r ∈ e.receivers := by
  induction es with
  | nil =>
    simp [record]
    grind
  | cons first es ih =>
    by_cases hf : first.handler = handler
    · subst hf
      simp only [record, if_pos, List.exists_mem_cons_iff, Std.ExtTreeSet.mem_insert,
        Std.LawfulEqOrd.compare_eq_iff_eq]
      constructor
      · rintro (⟨rfl, rfl | hold⟩ | hrest)
        · exact Or.inl ⟨rfl, rfl⟩
        · exact Or.inr (Or.inl ⟨rfl, hold⟩)
        · exact Or.inr (Or.inr hrest)
      · rintro (⟨rfl, rfl⟩ | ⟨rfl, hold⟩ | hrest)
        · exact Or.inl ⟨rfl, Or.inl rfl⟩
        · exact Or.inl ⟨rfl, Or.inr hold⟩
        · exact Or.inr hrest
    · simp only [record, if_neg hf, List.exists_mem_cons_iff, ih]
      constructor
      · rintro (hfirst | hnew | hrest)
        · exact Or.inr (Or.inl hfirst)
        · exact Or.inl hnew
        · exact Or.inr (Or.inr hrest)
      · rintro (hnew | hfirst | hrest)
        · exact Or.inr (Or.inl hnew)
        · exact Or.inl hfirst
        · exact Or.inr (Or.inr hrest)

/-- An entry after forgetting is an old one, or an old one that lost a receiver and has others. -/
theorem mem_forget {e : HandlerEntry} (h : e ∈ (forget handler receiver es).1) :
    e ∈ es ∨ ∃ old ∈ es, e = { old with receivers := old.receivers.erase receiver } ∧
      e.receivers.isEmpty = false := by
  induction es with
  | nil => simp [forget] at h
  | cons first es ih =>
    by_cases hf : first.handler = handler
    · simp only [forget, if_pos hf] at h
      split at h
      · exact Or.inl (by simp [h])
      · next hleft =>
        rcases List.mem_cons.mp h with hnew | hold
        · refine Or.inr ⟨first, by simp, hnew, ?_⟩
          rw [hnew]
          simpa using hleft
        · exact Or.inl (by simp [hold])
    · simp only [forget, if_neg hf, List.mem_cons] at h
      rcases h with hfirst | hrest
      · exact Or.inl (by simp [hfirst])
      · rcases ih hrest with hold | ⟨old, hold, heq⟩
        · exact Or.inl (by simp [hold])
        · exact Or.inr ⟨old, by simp [hold], heq⟩

private theorem map_handler_forget_sublist :
    ((forget handler receiver es).1.map (·.handler)).Sublist (es.map (·.handler)) := by
  induction es with
  | nil => simp [forget]
  | cons first es ih =>
    by_cases hf : first.handler = handler
    · simp only [forget, if_pos hf]
      split
      · exact List.sublist_cons_self _ _
      · exact List.Sublist.refl _
    · simp only [forget, if_neg hf, List.map_cons]
      exact ih.cons_cons _

/-- Where handlers are distinct, only the given pair is forgotten. -/
theorem exists_forget (distinct : (es.map (·.handler)).Nodup) {h r : Address} :
    (∃ e ∈ (forget handler receiver es).1, e.handler = h ∧ r ∈ e.receivers) ↔
      (∃ e ∈ es, e.handler = h ∧ r ∈ e.receivers) ∧ ¬ (h = handler ∧ r = receiver) := by
  induction es with
  | nil => simp [forget]
  | cons first es ih =>
    rw [List.map_cons, List.nodup_cons] at distinct
    by_cases hf : first.handler = handler
    · subst hf
      have hrest : (∃ e ∈ es, e.handler = h ∧ r ∈ e.receivers) → h ≠ first.handler := by
        rintro ⟨e, he, rfl, -⟩ heq
        exact distinct.1 (List.mem_map.mpr ⟨e, he, heq⟩)
      have herase : r ∈ first.receivers.erase receiver ↔
          r ∈ first.receivers ∧ r ≠ receiver := by
        rw [Std.ExtTreeSet.mem_erase, ne_eq, Std.LawfulEqOrd.compare_eq_iff_eq, and_comm,
          ne_comm]
      simp only [forget, if_pos]
      split
      · next hempty =>
        have hnone : ¬ r ∈ first.receivers.erase receiver := by
          rw [Std.ExtTreeSet.isEmpty_iff.mp hempty]
          exact Std.ExtTreeSet.not_mem_empty
        rw [List.exists_mem_cons_iff]
        grind
      · rw [List.exists_mem_cons_iff, List.exists_mem_cons_iff]
        grind
    · simp only [forget, if_neg hf, List.exists_mem_cons_iff, ih distinct.2]
      grind

end HandlerEntry

namespace Registry

variable {r : Registry} {handler receiver : Address} {node : NodeId}

theorem Regular.add (h : r.Regular) : (r.add handler node receiver).1.Regular where
  distinct := by
    show ((HandlerEntry.record handler node receiver r.entries).1.map (·.handler)).Nodup
    rw [HandlerEntry.map_handler_record]
    split
    · exact h.distinct
    · next hnew =>
      rw [List.nodup_append]
      refine ⟨h.distinct, List.nodup_singleton _, ?_⟩
      intro a ha b hb heq
      rw [List.mem_singleton] at hb
      exact hnew (hb ▸ heq ▸ ha)
  inhabited := by
    intro e he
    rcases HandlerEntry.mem_record he with hold | ⟨old, -, rfl⟩ | rfl
    · exact h.inhabited e hold
    · exact HandlerEntry.isEmpty_eq_false_of_mem Std.ExtTreeSet.mem_insert_self
    · have hin : receiver ∈ ({receiver} : AddressSet) := by simp
      exact HandlerEntry.isEmpty_eq_false_of_mem hin

theorem RecordedBy.add (h : r.RecordedBy node) :
    (r.add handler node receiver).1.RecordedBy node := by
  intro e he
  rcases HandlerEntry.mem_record he with hold | ⟨old, hold, rfl⟩ | rfl
  · exact h e hold
  · exact h old hold
  · rfl

theorem pairSet_add : (r.add handler node receiver).1.pairSet =
    insert (handler, receiver) r.pairSet := by
  ext ⟨h, a⟩
  rw [Finset.mem_insert, mem_pairSet, mem_pairSet, Prod.mk.injEq]
  exact HandlerEntry.exists_record

theorem isEmpty_add (r : Registry) : (r.add handler node receiver).1.isEmpty = false := by
  have hpair : (handler, receiver) ∈ (r.add handler node receiver).1.pairSet := by
    rw [pairSet_add]
    exact Finset.mem_insert_self _ _
  obtain ⟨e, he, -⟩ := mem_pairSet.mp hpair
  rw [isEmpty, List.isEmpty_eq_false_iff]
  exact List.ne_nil_of_mem he

theorem Regular.remove (h : r.Regular) : (r.remove handler receiver).1.Regular where
  distinct := h.distinct.sublist HandlerEntry.map_handler_forget_sublist
  inhabited := by
    intro e he
    rcases HandlerEntry.mem_forget he with hold | ⟨old, -, -, hleft⟩
    · exact h.inhabited e hold
    · exact hleft

theorem RecordedBy.remove (h : r.RecordedBy node) :
    (r.remove handler receiver).1.RecordedBy node := by
  intro e he
  rcases HandlerEntry.mem_forget he with hold | ⟨old, hold, rfl, -⟩
  · exact h e hold
  · exact h old hold

theorem Regular.pairSet_remove (h : r.Regular) : (r.remove handler receiver).1.pairSet =
    r.pairSet.erase (handler, receiver) := by
  ext ⟨g, a⟩
  rw [Finset.mem_erase, mem_pairSet, mem_pairSet, ne_eq, Prod.mk.injEq, and_comm]
  exact HandlerEntry.exists_forget h.distinct

theorem Regular.retain (h : r.Regular) (keep : HandlerEntry → Bool) :
    (r.retain keep).1.Regular where
  distinct := h.distinct.sublist (List.filter_sublist.map _)
  inhabited := fun e he => h.inhabited e (List.mem_of_mem_filter he)

theorem RecordedBy.retain (h : r.RecordedBy node) (keep : HandlerEntry → Bool) :
    (r.retain keep).1.RecordedBy node :=
  fun e he => h e (List.mem_of_mem_filter he)

theorem pairSet_retain (keep : Address → Bool) :
    (r.retain fun e => keep e.handler).1.pairSet = r.pairSet.filter fun pair => keep pair.1 := by
  ext ⟨h, a⟩
  rw [Finset.mem_filter, mem_pairSet, mem_pairSet]
  simp only [Registry.retain, List.mem_filter]
  grind

theorem Regular.removeAccount (h : r.Regular) (contact : Address) :
    (r.removeAccount contact).1.Regular where
  distinct := by
    have hsame : (r.entries.map (·.withoutAccount contact)).map (·.handler) =
        r.entries.map (·.handler) := by
      simp [HandlerEntry.withoutAccount]
    have hsub : ((r.removeAccount contact).1.entries.map (·.handler)).Sublist
        ((r.entries.map (·.withoutAccount contact)).map (·.handler)) :=
      List.filter_sublist.map _
    exact h.distinct.sublist (hsame ▸ hsub)
  inhabited := by
    intro e he
    simpa using (List.mem_filter.mp he).2

theorem RecordedBy.removeAccount (h : r.RecordedBy node) (contact : Address) :
    (r.removeAccount contact).1.RecordedBy node := by
  intro e he
  obtain ⟨old, hold, rfl⟩ := List.mem_map.mp (List.mem_of_mem_filter he)
  exact h old hold

theorem pairSet_removeAccount (contact : Address) : (r.removeAccount contact).1.pairSet =
    r.pairSet.filter fun pair => !pair.2.sameBare contact := by
  ext ⟨g, a⟩
  rw [Finset.mem_filter, mem_pairSet, mem_pairSet]
  simp only [Registry.removeAccount, List.mem_filter, List.mem_map]
  constructor
  · rintro ⟨_, ⟨⟨e, he, rfl⟩, -⟩, hg, ha⟩
    have hin := Std.ExtTreeSet.mem_filter.mp ha
    exact ⟨⟨e, he, hg, by simpa using hin.1⟩, by simpa using hin.2⟩
  · rintro ⟨⟨e, he, hg, ha⟩, hkeep⟩
    have hin : a ∈ (e.withoutAccount contact).receivers := by
      simp [HandlerEntry.withoutAccount, Std.ExtTreeSet.mem_filter, ha, hkeep]
    exact ⟨_, ⟨⟨e, he, rfl⟩, by simp [HandlerEntry.isEmpty_eq_false_of_mem hin]⟩, hg, hin⟩

theorem Regular.isEmpty_iff (h : r.Regular) : r.isEmpty = true ↔ r.pairSet = ∅ := by
  rw [isEmpty, List.isEmpty_iff]
  constructor
  · intro hnil
    simp [pairSet, pairs, hnil]
  · intro hnone
    rw [List.eq_nil_iff_forall_not_mem]
    intro e he
    obtain ⟨a, ha⟩ := AddressSet.exists_mem (h.inhabited e he)
    have hpair : (e.handler, a) ∈ r.pairSet := mem_pairSet.mpr ⟨e, he, rfl, ha⟩
    simp [hnone] at hpair

theorem Regular.exists_mem_pairSet (h : r.Regular) {handler : Address} :
    (∃ a, (handler, a) ∈ r.pairSet) ↔ handler ∈ r.entries.map (·.handler) := by
  simp only [mem_pairSet, List.mem_map]
  constructor
  · rintro ⟨a, e, he, heq, -⟩
    exact ⟨e, he, heq⟩
  · rintro ⟨e, he, heq⟩
    obtain ⟨a, ha⟩ := AddressSet.exists_mem (h.inhabited e he)
    exact ⟨a, e, he, heq, ha⟩

theorem hasAccount_iff {contact : Address} : r.hasAccount contact = true ↔
    ∃ pair ∈ r.pairSet, pair.2.sameBare contact = true := by
  simp only [hasAccount, List.any_eq_true, Std.ExtTreeSet.mem_toList, Prod.exists, mem_pairSet]
  constructor
  · rintro ⟨e, he, a, ha, hsame⟩
    exact ⟨e.handler, a, ⟨e, he, rfl, ha⟩, hsame⟩
  · rintro ⟨g, a, ⟨e, he, -, ha⟩, hsame⟩
    exact ⟨e, he, a, ha, hsame⟩

theorem length_pairs : r.pairs.length = r.pairCount := by
  simp [pairs, pairCount, List.length_flatMap, List.sum_eq_foldl, List.foldl_map]

theorem Regular.nodup_pairs (h : r.Regular) : r.pairs.Nodup := by
  rw [pairs, List.nodup_flatMap]
  constructor
  · exact fun e _ => AddressSet.nodup_map_pair e.receivers e.handler
  · apply (List.pairwise_map.mp h.distinct).imp
    intro e f hne pair he hf
    obtain ⟨a, -, rfl⟩ := List.mem_map.mp he
    obtain ⟨b, -, heq⟩ := List.mem_map.mp hf
    exact hne (Prod.mk.inj heq).1.symm

private theorem Regular.card_filter (h : r.Regular) (p : Address × Address → Bool) :
    (r.pairSet.filter fun pair => p pair).card = (r.pairs.filter p).length := by
  have hset : (r.pairSet.filter fun pair => p pair) = (r.pairs.filter p).toFinset := by
    ext pair
    simp [pairSet]
  rw [hset, List.toFinset_card_of_nodup (h.nodup_pairs.filter p)]

/-- The count of a removal is the number of pairs that go. -/
theorem Regular.count_removeAccount (h : r.Regular) (contact : Address) :
    (r.removeAccount contact).2 =
      (r.pairSet.filter fun pair => pair.2.sameBare contact).card := by
  have hleft : pairs ⟨r.entries.map (·.withoutAccount contact)⟩ =
      r.pairs.filter fun pair => !pair.2.sameBare contact := by
    simp only [pairs, List.filter_flatMap, List.flatMap_map]
    congr 1
    funext e
    simp only [HandlerEntry.withoutAccount, List.filter_map, Std.ExtTreeSet.toList_filter]
    rfl
  have hsplit := List.length_eq_length_filter_add (l := r.pairs)
    fun pair => pair.2.sameBare contact
  have hcard := h.card_filter fun pair => pair.2.sameBare contact
  rw [hcard, Registry.removeAccount, ← length_pairs, ← length_pairs, hleft, hsplit]
  exact Nat.add_sub_cancel _ _

/-- The count of a retention is the number of handlers that go. -/
theorem Regular.count_retain (h : r.Regular) (keep : Address → Bool) :
    (r.retain fun e => keep e.handler).2 =
      ((r.pairSet.filter fun pair => !keep pair.1).image Prod.fst).card := by
  have hset : (r.pairSet.filter fun pair => !keep pair.1).image Prod.fst =
      ((r.entries.map (·.handler)).filter fun handler => !keep handler).toFinset := by
    ext handler
    rw [List.mem_toFinset, List.mem_filter, ← h.exists_mem_pairSet]
    simp only [Finset.mem_image, Finset.mem_filter, Prod.exists]
    constructor
    · rintro ⟨_, a, ⟨hpair, hgone⟩, rfl⟩
      exact ⟨⟨a, hpair⟩, hgone⟩
    · rintro ⟨⟨a, hpair⟩, hgone⟩
      exact ⟨handler, a, ⟨hpair, hgone⟩, rfl⟩
  have hsplit := List.length_eq_length_filter_add (l := r.entries) fun e => keep e.handler
  rw [hset, List.toFinset_card_of_nodup (h.distinct.filter _), List.filter_map, List.length_map]
  simp only [Registry.retain, Function.comp_def]
  omega

/-- A removal that counts nothing changes nothing. -/
theorem Regular.removeAccount_eq_self (h : r.Regular) {contact : Address}
    (hzero : (r.removeAccount contact).2 = 0) : (r.removeAccount contact).1 = r := by
  rw [h.count_removeAccount, Finset.card_eq_zero, Finset.filter_eq_empty_iff] at hzero
  have hkept : ∀ e ∈ r.entries, e.withoutAccount contact = e := by
    intro e he
    have hreceivers : e.receivers.filter (fun receiver => !receiver.sameBare contact) =
        e.receivers := by
      apply Std.ExtTreeSet.ext_mem
      intro a
      rw [Std.ExtTreeSet.mem_filter]
      constructor
      · rintro ⟨ha, -⟩
        exact ha
      · intro ha
        have hpair : (e.handler, a) ∈ r.pairSet := mem_pairSet.mpr ⟨e, he, rfl, ha⟩
        exact ⟨ha, by simpa using hzero hpair⟩
    rw [HandlerEntry.withoutAccount, hreceivers]
  have hsame : r.entries.map (·.withoutAccount contact) = r.entries :=
    (List.map_congr_left hkept).trans r.entries.map_id
  have hall : r.entries.filter (fun e => !e.receivers.isEmpty) = r.entries :=
    List.filter_eq_self.mpr fun e he => by simp [h.inhabited e he]
  rw [Registry.removeAccount, hsame]
  exact congrArg Registry.mk hall

/-! ## Registries that may be absent -/

/-- The pairs of a registry that may be absent. -/
def pairsOf (r : Option Registry) : Finset (Address × Address) :=
  r.elim ∅ pairSet

/-- A registry, or nothing in place of an empty one. -/
def orNone (r : Registry) : Option Registry :=
  if r.isEmpty then none else some r

theorem Regular.pairsOf_orNone (h : r.Regular) : pairsOf r.orNone = r.pairSet := by
  unfold orNone
  split
  · next hempty => exact (h.isEmpty_iff.mp hempty).symm
  · rfl

theorem pairsOf_bind {value : Option Registry} {change : Registry → Option Registry}
    {keep : Address × Address → Prop} [DecidablePred keep]
    (hchange : ∀ r, value = some r → pairsOf (change r) = r.pairSet.filter keep) :
    pairsOf (value.bind change) = (pairsOf value).filter keep := by
  cases value with
  | none => rfl
  | some r => exact hchange r rfl

theorem pairsOf_add (value : Option Registry) :
    pairsOf (some ((value.getD .empty).add handler node receiver).1) =
      insert (handler, receiver) (pairsOf value) := by
  cases value with
  | none => exact pairSet_add
  | some r => exact pairSet_add

theorem Regular.pairsOf_remove (h : r.Regular) (handler receiver : Address) :
    pairsOf (r.remove handler receiver).1.orNone =
      r.pairSet.filter (· ≠ (handler, receiver)) := by
  rw [h.remove.pairsOf_orNone, h.pairSet_remove, Finset.filter_ne']

theorem Regular.pairsOf_removeAccount (h : r.Regular) (contact : Address) :
    pairsOf (r.removeAccount contact).1.orNone =
      r.pairSet.filter fun pair => !pair.2.sameBare contact := by
  rw [(h.removeAccount contact).pairsOf_orNone, pairSet_removeAccount]

end Registry

end DirectedPresence
