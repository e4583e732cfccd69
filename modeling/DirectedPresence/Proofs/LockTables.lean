import Mathlib.Data.List.Perm.Basic
import DirectedPresence.Cache.Grid

/-!
Locks by key, over whole histories. Handles on the lock of a key are made through any cache that
shares a table, taken, given back and dropped in any order (`Keyring.run`). A slot counts the
handles on its key, and a dropped handle counts down whatever slot is then stored under its key.
That this is always the slot that its mutex came from is what the invariant says (`Locks.Serves`):
the slot of a key stays as long as one of its handles lives, a later slot has a mutex that was never
given out before, and the mutexes that are taken are those of the handles that hold them, each once.
So a table is exact about the handles that are alive (`Keyring.exact_run`).
-/

namespace DirectedPresence

/-- The lock table that a cache uses. All views of a hub use the table of the hub. -/
def CacheRef.table : CacheRef → Nat ⊕ Nat
  | .standalone cache => .inl cache
  | .clustered hub _ => .inr hub

/-- What is done with locks. A handle is made through a cache; what is done with a handle is said of
its place among the handles that are alive. -/
inductive LockAct where
  | lockFor (cache : CacheRef) (key : Address)
  | take (place : Nat)
  | release (place : Nat)
  | drop (place : Nat)
deriving DecidableEq, Repr

/-- A grid, and the handles that are alive, in the order in which they were made. -/
structure Keyring (L : Type) where
  grid : Grid L
  handles : List Holder := []

namespace Keyring

variable {L : Type}

/-- What comes of an act. Where there is no such cache or no such handle nothing happens. A handle
that is dropped gives back what it holds. -/
def perform (ring : Keyring L) : LockAct → Keyring L
  | .lockFor cache key =>
    match ring.grid.lockFor? cache key with
    | none => ring
    | some (grid, handle) => ⟨grid, ring.handles ++ [handle]⟩
  | .take place =>
    match ring.handles[place]? with
    | none => ring
    | some handle =>
      let (grid, handle, _) := ring.grid.take handle
      ⟨grid, ring.handles.set place handle⟩
  | .release place =>
    match ring.handles[place]? with
    | none => ring
    | some handle =>
      let (grid, handle) := ring.grid.release handle
      ⟨grid, ring.handles.set place handle⟩
  | .drop place =>
    match ring.handles[place]? with
    | none => ring
    | some handle => ⟨ring.grid.drop handle, ring.handles.eraseIdx place⟩

def run (ring : Keyring L) (acts : List LockAct) : Keyring L :=
  acts.foldl perform ring

/-- The live handles of the table that a cache uses. -/
def live (ring : Keyring L) (cache : CacheRef) : List Holder :=
  ring.handles.filter fun handle => handle.cache.table = cache.table

end Keyring

/-! ## One table -/

/-- The slot of a key fits these handles on the key: there is one if there is a handle, it counts
them, and they all have its mutex. -/
def LockSlot.Fits : Option LockSlot → List KeyLock → Prop
  | none, locks => locks = []
  | some slot, locks => locks ≠ [] ∧ slot.holders = locks.length ∧
      ∀ lock ∈ locks, lock.mutex = slot.mutex

/-- A table is in order if these are its live handles: every slot fits the handles on its key,
different keys have different mutexes, all of which have been given out before, and the mutexes that
are taken are those of the handles that hold one. -/
structure Locks.Serves (t : Locks) (live : List Holder) : Prop where
  fits : ∀ key, LockSlot.Fits t.slots[key]? ((live.map (·.lock)).filter (·.key = key))
  issued : ∀ (key : Address) (slot : LockSlot), t.slots[key]? = some slot →
    slot.mutex < t.nextMutex
  apart : ∀ (key key' : Address) (slot slot' : LockSlot), t.slots[key]? = some slot →
    t.slots[key']? = some slot' → slot.mutex = slot'.mutex → key = key'
  guarded : t.taken.Perm ((live.filter (·.holds)).map (·.lock.mutex))
  alone : t.taken.Nodup

namespace LockSlot.Fits

variable {slot : LockSlot} {lock : KeyLock} {locks locks' : List KeyLock}

theorem perm {slot? : Option LockSlot} (h : Fits slot? locks) (hperm : locks.Perm locks') :
    Fits slot? locks' := by
  cases slot? with
  | none => exact (h ▸ hperm : [].Perm locks').nil_eq.symm
  | some slot =>
    obtain ⟨hsome, hcount, hmutex⟩ := h
    refine ⟨fun hnil => hsome (hnil ▸ hperm).eq_nil, hperm.length_eq ▸ hcount, ?_⟩
    exact fun lock hmem => hmutex lock (hperm.mem_iff.mpr hmem)

/-- One more handle with the mutex of the slot. -/
theorem cons (h : Fits (some slot) locks) (hmutex : lock.mutex = slot.mutex) :
    Fits (some { slot with holders := slot.holders + 1 }) (lock :: locks) := by
  refine ⟨List.cons_ne_nil _ _, congrArg (· + 1) h.2.1, ?_⟩
  intro other hmem
  rcases List.mem_cons.mp hmem with rfl | hmem
  · exact hmutex
  · exact h.2.2 other hmem

/-- One handle less; with the last one the slot goes. -/
theorem tail (h : Fits (some slot) (lock :: locks)) :
    Fits (if slot.holders = 1 then none else some { slot with holders := slot.holders - 1 })
      locks := by
  obtain ⟨-, hcount, hmutex⟩ := h
  rw [List.length_cons] at hcount
  split
  · next hone => exact List.eq_nil_of_length_eq_zero (by omega)
  · next hmore =>
    refine ⟨List.ne_nil_of_length_pos (by omega), ?_, ?_⟩
    · show slot.holders - 1 = locks.length
      omega
    · exact fun other hmem => hmutex other (List.mem_cons_of_mem _ hmem)

end LockSlot.Fits

namespace Locks

variable {t : Locks} {live live' : List Holder} {handle : Holder}

private theorem serves_nil (hslots : t.slots = ∅) (htaken : t.taken = []) : t.Serves [] where
  fits key := by
    rw [hslots, Std.ExtTreeMap.getElem?_empty]
    rfl
  issued := by simp [hslots]
  apart := by simp [hslots]
  guarded := by simp [htaken]
  alone := by simp [htaken]

theorem Serves.perm (h : t.Serves live) (hperm : live.Perm live') : t.Serves live' where
  fits key := (h.fits key).perm ((hperm.map _).filter _)
  issued := h.issued
  apart := h.apart
  guarded := h.guarded.trans ((hperm.filter _).map _)
  alone := h.alone

/-- A live handle is counted by a slot with its mutex. -/
theorem Serves.exists_slot (h : t.Serves live) (hmem : handle ∈ live) :
    ∃ slot, t.slots[handle.lock.key]? = some slot ∧ slot.mutex = handle.lock.mutex ∧
      0 < slot.holders := by
  have hhere : handle.lock ∈ (live.map (·.lock)).filter (·.key = handle.lock.key) :=
    List.mem_filter.mpr ⟨List.mem_map_of_mem hmem, decide_eq_true rfl⟩
  have hfits := h.fits handle.lock.key
  cases hslot : t.slots[handle.lock.key]? with
  | none =>
    rw [hslot] at hfits
    rw [show List.filter _ _ = [] from hfits] at hhere
    cases hhere
  | some slot =>
    rw [hslot] at hfits
    obtain ⟨hsome, hcount, hmutex⟩ := hfits
    exact ⟨slot, rfl, (hmutex _ hhere).symm, hcount ▸ List.length_pos_of_ne_nil hsome⟩

/-- A mutex is taken if a live handle holds it. -/
theorem Serves.isTaken_iff (h : t.Serves live) (lock : KeyLock) :
    t.isTaken lock = true ↔ ∃ handle ∈ live, handle.holds = true ∧
      handle.lock.mutex = lock.mutex := by
  simp [isTaken, h.guarded.mem_iff, and_assoc]

/-- The slot of one key changes, together with the handles on it, and keeps its mutex unless it gets
one that was never given out. No handle takes a mutex or gives one back. -/
theorem Serves.rewrite (h : t.Serves live) {t' : Locks} (key : Address) (slot? : Option LockSlot)
    (hslots : ∀ other, t'.slots[other]? = if key = other then slot? else t.slots[other]?)
    (hothers : ∀ other, key ≠ other → (live'.map (·.lock)).filter (·.key = other) =
      (live.map (·.lock)).filter (·.key = other))
    (hfits : LockSlot.Fits slot? ((live'.map (·.lock)).filter (·.key = key)))
    (hmutex : ∀ slot ∈ slot?, slot.mutex < t'.nextMutex ∧
      ((∃ old, t.slots[key]? = some old ∧ old.mutex = slot.mutex) ∨ t.nextMutex ≤ slot.mutex))
    (hnext : t.nextMutex ≤ t'.nextMutex) (htaken : t'.taken = t.taken)
    (hholding : live'.filter (·.holds) = live.filter (·.holds)) : t'.Serves live' := by
  have hother : ∀ other slot slot', key ≠ other → slot ∈ slot? → t.slots[other]? = some slot' →
      slot.mutex ≠ slot'.mutex := by
    intro other slot slot' hne hslot hslot' hsame
    rcases (hmutex slot hslot).2 with ⟨old, hold, heq⟩ | hfresh
    · exact hne (h.apart key other old slot' hold hslot' (heq.trans hsame))
    · have hissued := h.issued other slot' hslot'
      omega
  constructor
  · intro other
    rw [hslots other]
    split
    · next heq => exact heq ▸ hfits
    · next hne => exact hothers other hne ▸ h.fits other
  · intro other slot hslot
    rw [hslots other] at hslot
    split at hslot
    · exact (hmutex slot hslot).1
    · exact Nat.lt_of_lt_of_le (h.issued other slot hslot) hnext
  · intro first second slot slot' hslot hslot' hsame
    rw [hslots] at hslot hslot'
    split at hslot <;> split at hslot'
    · next heq heq' => exact heq.symm.trans heq'
    · next hne => exact absurd hsame (hother second slot slot' hne hslot hslot')
    · next hne _ => exact absurd hsame.symm (hother first slot' slot hne hslot' hslot)
    · exact h.apart first second slot slot' hslot hslot' hsame
  · rw [htaken, hholding]
    exact h.guarded
  · rw [htaken]
    exact h.alone

/-- A handle is made: the slot of its key counts it, or there is a new one, with a mutex that was
never given out. -/
theorem Serves.lockFor (h : t.Serves live) (cache : CacheRef) (key : Address) :
    (t.lockFor key).1.Serves (⟨cache, (t.lockFor key).2, false⟩ :: live) := by
  have hfits := h.fits key
  unfold Locks.lockFor
  cases hslot : t.slots[key]? with
  | none =>
    rw [hslot] at hfits
    refine h.rewrite key (some ⟨t.nextMutex, 1⟩) ?_ ?_ ?_ ?_ ?_ rfl ?_
    · exact fun other => by simp [Std.ExtTreeMap.getElem?_insert]
    · exact fun other hne => List.filter_cons_of_neg (by simpa using hne)
    · rw [List.map_cons, List.filter_cons_of_pos (by simp), show List.filter _ _ = [] from hfits]
      exact ⟨List.cons_ne_nil _ _, rfl, by simp⟩
    · rintro slot ⟨⟩
      exact ⟨Nat.lt_succ_self _, .inr (Nat.le_refl _)⟩
    · exact Nat.le_succ _
    · exact List.filter_cons_of_neg (by simp)
  | some slot =>
    rw [hslot] at hfits
    refine h.rewrite key (some { slot with holders := slot.holders + 1 }) ?_ ?_ ?_ ?_ ?_ rfl ?_
    · exact fun other => by simp [Std.ExtTreeMap.getElem?_insert]
    · exact fun other hne => List.filter_cons_of_neg (by simpa using hne)
    · rw [List.map_cons, List.filter_cons_of_pos (by simp)]
      exact hfits.cons rfl
    · rintro new ⟨⟩
      exact ⟨h.issued key slot hslot, .inl ⟨slot, hslot, rfl⟩⟩
    · exact Nat.le_refl _
    · exact List.filter_cons_of_neg (by simp)

/-- A handle that holds nothing is dropped: the slot that it is counted by counts one less, or goes
with it. -/
theorem Serves.drop (h : t.Serves (handle :: live)) (hfree : handle.holds = false) :
    (t.drop handle.lock).Serves live := by
  obtain ⟨slot, hslot, -, -⟩ := h.exists_slot List.mem_cons_self
  have hfits := h.fits handle.lock.key
  rw [hslot, List.map_cons, List.filter_cons_of_pos (by simp)] at hfits
  have hothers : ∀ other, handle.lock.key ≠ other → (live.map (·.lock)).filter (·.key = other) =
      ((handle :: live).map (·.lock)).filter (·.key = other) :=
    fun other hne => (List.filter_cons_of_neg (by simpa using hne)).symm
  have hholding : live.filter (·.holds) = (handle :: live).filter (·.holds) :=
    (List.filter_cons_of_neg (by simp [hfree])).symm
  have htail := hfits.tail
  simp only [Locks.drop, hslot]
  split at htail
  · next hone =>
    rw [if_pos hone]
    refine h.rewrite handle.lock.key none ?_ hothers htail nofun (Nat.le_refl _) rfl hholding
    exact fun other => by simp [Std.ExtTreeMap.getElem?_erase]
  · next hmore =>
    rw [if_neg hmore]
    refine h.rewrite handle.lock.key (some { slot with holders := slot.holders - 1 }) ?_ hothers
      htail ?_ (Nat.le_refl _) rfl hholding
    · exact fun other => by simp [Std.ExtTreeMap.getElem?_insert]
    · rintro new ⟨⟩
      exact ⟨h.issued _ slot hslot, .inl ⟨slot, hslot, rfl⟩⟩

/-- The mutex of a handle is taken if no handle holds it. -/
theorem Serves.tryTake (h : t.Serves (handle :: live)) :
    (t.tryTake handle.lock).1.Serves
      ({ handle with holds := handle.holds || (t.tryTake handle.lock).2 } :: live) := by
  unfold Locks.tryTake
  cases htaken : t.isTaken handle.lock with
  | true => simpa using h
  | false =>
    have hfree : handle.holds = false := by
      rw [Bool.eq_false_iff]
      intro hholds
      rw [(h.isTaken_iff _).mpr ⟨handle, List.mem_cons_self, hholds, rfl⟩] at htaken
      cases htaken
    have hguarded := h.guarded
    rw [List.filter_cons_of_neg (by simp [hfree])] at hguarded
    refine ⟨h.fits, h.issued, h.apart, ?_, ?_⟩
    · simpa using hguarded
    · exact List.nodup_cons.mpr ⟨by simpa [isTaken] using htaken, h.alone⟩

/-- A mutex is given back by the handle that holds it. -/
theorem Serves.release (h : t.Serves (handle :: live)) (hholds : handle.holds = true) :
    (t.release handle.lock).Serves ({ handle with holds := false } :: live) := by
  have hguarded := h.guarded.erase handle.lock.mutex
  rw [List.filter_cons_of_pos hholds, List.map_cons, List.erase_cons_head] at hguarded
  exact ⟨h.fits, h.issued, h.apart, hguarded, h.alone.erase _⟩

/-- A table is exact about the handles that are alive. -/
structure Exact (t : Locks) (live : List Holder) : Prop where
  /-- A key has a slot if a handle for it is alive. -/
  slot_iff : ∀ key, key ∈ t.slots ↔ ∃ handle ∈ live, handle.lock.key = key
  /-- A slot counts the live handles for its key. -/
  holders : ∀ (key : Address) (slot : LockSlot), t.slots[key]? = some slot →
    slot.holders = live.countP (·.lock.key = key)
  /-- The slot that a live handle would count down is the one that its mutex came from, and it is
  not at zero. -/
  slot_of : ∀ handle ∈ live, ∃ slot, t.slots[handle.lock.key]? = some slot ∧
    slot.mutex = handle.lock.mutex ∧ 0 < slot.holders
  /-- Live handles share a mutex if they are for the same key. -/
  mutex_iff : ∀ handle ∈ live, ∀ other ∈ live,
    handle.lock.mutex = other.lock.mutex ↔ handle.lock.key = other.lock.key
  /-- A key is held through one handle at most. -/
  guards : ∀ key, live.countP (fun handle => handle.holds && handle.lock.key = key) ≤ 1
  /-- A mutex can be taken if no handle for its key holds it. -/
  tryTake_iff : ∀ handle ∈ live, (t.tryTake handle.lock).2 = true ↔
    ∀ other ∈ live, other.lock.key = handle.lock.key → other.holds = false
  empty : live = [] → t.slots = ∅ ∧ t.taken = []

private theorem Serves.mutex_eq_iff (h : t.Serves live) {other : Holder} (hmem : handle ∈ live)
    (hother : other ∈ live) :
    handle.lock.mutex = other.lock.mutex ↔ handle.lock.key = other.lock.key := by
  obtain ⟨slot, hslot, hmutex, -⟩ := h.exists_slot hmem
  obtain ⟨slot', hslot', hmutex', -⟩ := h.exists_slot hother
  constructor
  · intro hsame
    exact h.apart _ _ slot slot' hslot hslot' ((hmutex.trans hsame).trans hmutex'.symm)
  · intro hsame
    rw [hsame, hslot', Option.some.injEq] at hslot
    rw [← hmutex, ← hmutex', hslot]

/-- The handles that hold a mutex hold different ones, so those for one key are one at most. -/
theorem Serves.countP_guards_le (h : t.Serves live) (key : Address) :
    live.countP (fun handle => handle.holds && handle.lock.key = key) ≤ 1 := by
  have hdistinct : ((live.filter fun handle => handle.holds && handle.lock.key = key).map
      (·.lock.mutex)).Nodup := by
    refine (h.guarded.nodup_iff.mp h.alone).sublist (List.Sublist.map _ ?_)
    exact List.monotone_filter_right live fun handle => by simp +contextual
  rw [List.countP_eq_length_filter]
  cases hguards : live.filter fun handle => handle.holds && handle.lock.key = key with
  | nil => exact Nat.zero_le 1
  | cons first rest =>
    have hmem : ∀ handle ∈ first :: rest, handle ∈ live ∧ handle.lock.key = key := by
      intro handle hhandle
      rw [← hguards] at hhandle
      simp only [List.mem_filter, Bool.and_eq_true, decide_eq_true_eq] at hhandle
      exact ⟨hhandle.1, hhandle.2.2⟩
    have hsame : (first :: rest).map (·.lock.mutex) =
        List.replicate (rest.length + 1) first.lock.mutex := by
      refine List.eq_replicate_iff.mpr ⟨List.length_map _, ?_⟩
      intro mutex hmutex
      obtain ⟨handle, hhandle, rfl⟩ := List.mem_map.mp hmutex
      have hfirst := hmem first List.mem_cons_self
      have hthis := hmem handle hhandle
      exact (h.mutex_eq_iff hthis.1 hfirst.1).mpr (hthis.2.trans hfirst.2.symm)
    rw [hguards, hsame, List.nodup_replicate] at hdistinct
    exact hdistinct

private theorem Serves.tryTake_iff (h : t.Serves live) (hmem : handle ∈ live) :
    (t.tryTake handle.lock).2 = true ↔
      ∀ other ∈ live, other.lock.key = handle.lock.key → other.holds = false := by
  have hanswer : (t.tryTake handle.lock).2 = !t.isTaken handle.lock := by
    unfold Locks.tryTake
    cases t.isTaken handle.lock <;> rfl
  rw [hanswer, Bool.not_eq_true', Bool.eq_false_iff, ne_eq, h.isTaken_iff]
  constructor
  · intro hnone other hother hkey
    rw [Bool.eq_false_iff]
    exact fun hholds => hnone ⟨other, hother, hholds, (h.mutex_eq_iff hother hmem).mpr hkey⟩
  · rintro hfree ⟨other, hother, hholds, hmutex⟩
    rw [hfree other hother ((h.mutex_eq_iff hother hmem).mp hmutex)] at hholds
    cases hholds

private theorem Serves.mem_slots_iff (h : t.Serves live) (key : Address) :
    key ∈ t.slots ↔ ∃ handle ∈ live, handle.lock.key = key := by
  rw [Std.ExtTreeMap.mem_iff_isSome_getElem?]
  constructor
  · intro hsome
    obtain ⟨slot, hslot⟩ := Option.isSome_iff_exists.mp hsome
    have hfits := h.fits key
    rw [hslot] at hfits
    obtain ⟨lock, hlock⟩ := List.exists_mem_of_ne_nil _ hfits.1
    obtain ⟨hmem, hkey⟩ := List.mem_filter.mp hlock
    obtain ⟨handle, hhandle, rfl⟩ := List.mem_map.mp hmem
    exact ⟨handle, hhandle, of_decide_eq_true hkey⟩
  · rintro ⟨handle, hmem, rfl⟩
    obtain ⟨slot, hslot, -⟩ := h.exists_slot hmem
    exact hslot ▸ rfl

private theorem Serves.exact (h : t.Serves live) : t.Exact live where
  slot_iff := h.mem_slots_iff
  holders key slot hslot := by
    have hfits := h.fits key
    rw [hslot] at hfits
    rw [hfits.2.1, ← List.countP_eq_length_filter, List.countP_map]
    rfl
  slot_of _ hmem := h.exists_slot hmem
  mutex_iff _ hmem _ hother := h.mutex_eq_iff hmem hother
  guards := h.countP_guards_le
  tryTake_iff _ hmem := h.tryTake_iff hmem
  empty := by
    rintro rfl
    refine ⟨?_, h.guarded.eq_nil⟩
    rw [Std.ExtTreeMap.eq_empty_iff_forall_not_mem]
    intro key hmem
    obtain ⟨handle, hhandle, -⟩ := (h.mem_slots_iff key).mp hmem
    cases hhandle

end Locks

/-! ## All tables -/

namespace Grid

variable {L : Type} {g : Grid L} {cache other : CacheRef} {handle : Holder}

private theorem locksOf_eq {locks : Locks} (hlocks : g.locks? handle.cache = some locks) :
    g.locksOf handle = locks := by
  rw [locksOf, hlocks, Option.getD_some]

private theorem locks?_congr (htable : cache.table = other.table) :
    g.locks? cache = g.locks? other := by
  cases cache <;> cases other <;> cases htable <;> rfl

private theorem locks?_setLocks (g : Grid L) (cache other : CacheRef) (locks : Locks) :
    (g.setLocks cache locks).locks? other =
      if cache.table = other.table then (g.locks? other).map fun _ => locks
      else g.locks? other := by
  cases cache with
  | standalone cache =>
    cases other with
    | standalone other =>
      by_cases heq : cache = other <;>
        simp [setLocks, locks?, CacheRef.table, heq, Function.comp_def]
    | clustered other view => rfl
  | clustered hub view =>
    cases other with
    | standalone other => rfl
    | clustered other view' =>
      by_cases heq : hub = other <;>
        simp [setLocks, locks?, CacheRef.table, heq, Function.comp_def]

private theorem isSome_locks?_setLocks (g : Grid L) (cache other : CacheRef) (locks : Locks) :
    ((g.setLocks cache locks).locks? other).isSome = (g.locks? other).isSome := by
  rw [locks?_setLocks]
  split
  · exact Option.isSome_map
  · rfl

private theorem isSome_locks?_release (g : Grid L) (handle : Holder) (other : CacheRef) :
    ((g.release handle).1.locks? other).isSome = (g.locks? other).isSome := by
  unfold release
  split
  · exact isSome_locks?_setLocks ..
  · rfl

end Grid

namespace Keyring

variable {L : Type} {ring : Keyring L} {cache : CacheRef} {handle : Holder} {place : Nat}
  {acts : List LockAct}

def Sound (ring : Keyring L) : Prop :=
  ∀ cache locks, ring.grid.locks? cache = some locks → locks.Serves (ring.live cache)

/-- Some handles of one table give way to others, and the table follows. -/
theorem Sound.change (h : ring.Sound) (before after : List Holder) {rest handles : List Holder}
    {locks' : Locks} (hbefore : ring.handles.Perm (before ++ rest))
    (hafter : handles.Perm (after ++ rest))
    (htable : ∀ handle ∈ before ++ after, handle.cache.table = cache.table)
    (hserves : ∀ locks others, ring.grid.locks? cache = some locks →
      locks.Serves (before ++ others) → locks'.Serves (after ++ others)) :
    Sound ⟨ring.grid.setLocks cache locks', handles⟩ := by
  intro other locks hlocks
  rw [Grid.locks?_setLocks] at hlocks
  split at hlocks
  · next heq =>
    obtain ⟨old, hold, rfl⟩ := Option.map_eq_some_iff.mp hlocks
    have hall : ∀ {part : List Holder}, part ⊆ before ++ after →
        part.filter (fun handle => handle.cache.table = other.table) = part := by
      intro part hpart
      refine List.filter_eq_self.mpr fun handle hmem => decide_eq_true ?_
      exact (htable handle (hpart hmem)).trans heq
    have hold' := (h other old hold).perm (hbefore.filter _)
    rw [List.filter_append, hall (List.subset_append_left _ _)] at hold'
    have hnew := hserves old _ ((Grid.locks?_congr heq).trans hold) hold'
    refine hnew.perm ((hafter.filter _).trans ?_).symm
    rw [List.filter_append, hall (List.subset_append_right _ _)]
  · next hne =>
    have hnone : ∀ {part : List Holder}, part ⊆ before ++ after →
        part.filter (fun handle => handle.cache.table = other.table) = [] := by
      intro part hpart
      refine List.filter_eq_nil_iff.mpr fun handle hmem => ?_
      rw [decide_eq_true_eq, htable handle (hpart hmem)]
      exact hne
    have hold := (h other locks hlocks).perm (hbefore.filter _)
    rw [List.filter_append, hnone (List.subset_append_left _ _)] at hold
    refine hold.perm ((hafter.filter _).trans ?_).symm
    rw [List.filter_append, hnone (List.subset_append_right _ _)]

/-- What is done with one handle. -/
theorem Sound.set (h : ring.Sound) (hget : ring.handles[place]? = some handle) {handle' : Holder}
    {locks' : Locks} (hcache : handle'.cache = handle.cache)
    (hserves : ∀ locks others, ring.grid.locks? handle.cache = some locks →
      locks.Serves (handle :: others) → locks'.Serves (handle' :: others)) :
    Sound ⟨ring.grid.setLocks handle.cache locks', ring.handles.set place handle'⟩ := by
  obtain ⟨hplace, rfl⟩ := List.getElem?_eq_some_iff.mp hget
  refine h.change [ring.handles[place]] [handle']
    (List.getElem_cons_eraseIdx_perm hplace).symm (List.set_perm_cons_eraseIdx hplace _) ?_ hserves
  simp [hcache]

private theorem Sound.lockFor (h : ring.Sound) {key : Address} {grid : Grid L}
    (hlock : ring.grid.lockFor? cache key = some (grid, handle)) :
    Sound ⟨grid, ring.handles ++ [handle]⟩ := by
  obtain ⟨locks, hlocks, hmade⟩ := Option.map_eq_some_iff.mp hlock
  obtain ⟨rfl, rfl⟩ := Prod.mk.inj hmade
  refine h.change [] [_] (.refl _) (List.perm_append_comm) ?_ ?_
  · simp
  · intro locks' others hlocks' hserves
    obtain rfl := Option.some.inj (hlocks.symm.trans hlocks')
    exact hserves.lockFor cache key

private theorem Sound.take (h : ring.Sound) (hget : ring.handles[place]? = some handle) :
    Sound ⟨(ring.grid.take handle).1, ring.handles.set place (ring.grid.take handle).2.1⟩ := by
  refine h.set hget rfl fun locks others hlocks hserves => ?_
  rw [Grid.take, Grid.locksOf_eq hlocks]
  exact hserves.tryTake

private theorem Sound.release (h : ring.Sound) (hget : ring.handles[place]? = some handle) :
    Sound ⟨(ring.grid.release handle).1, ring.handles.set place (ring.grid.release handle).2⟩ := by
  unfold Grid.release
  split
  · next hholds =>
    refine h.set hget rfl fun locks others hlocks hserves => ?_
    rw [Grid.locksOf_eq hlocks]
    exact hserves.release hholds
  · obtain ⟨hplace, rfl⟩ := List.getElem?_eq_some_iff.mp hget
    rw [List.set_getElem_self]
    exact h

/-- A handle that holds nothing goes. -/
theorem Sound.erase (h : ring.Sound) (hget : ring.handles[place]? = some handle)
    (hfree : handle.holds = false) :
    Sound ⟨ring.grid.setLocks handle.cache ((ring.grid.locksOf handle).drop handle.lock),
      ring.handles.eraseIdx place⟩ := by
  obtain ⟨hplace, rfl⟩ := List.getElem?_eq_some_iff.mp hget
  refine h.change [ring.handles[place]] []
    (List.getElem_cons_eraseIdx_perm hplace).symm (.refl _) (by simp) ?_
  intro locks others hlocks hserves
  rw [Grid.locksOf_eq hlocks]
  exact hserves.drop hfree

private theorem Sound.drop (h : ring.Sound) (hget : ring.handles[place]? = some handle) :
    Sound ⟨ring.grid.drop handle, ring.handles.eraseIdx place⟩ := by
  have hplace := (List.getElem?_eq_some_iff.mp hget).1
  have hfree : (ring.grid.release handle).2.holds = false := by
    unfold Grid.release
    split
    · rfl
    · next hfree => exact Bool.eq_false_iff.mpr hfree
  have hgone := (h.release hget).erase (List.getElem?_set_self hplace) hfree
  rw [List.eraseIdx_set_eq] at hgone
  exact hgone

/-- Every act keeps all tables in order. -/
theorem Sound.perform (h : ring.Sound) (act : LockAct) : (ring.perform act).Sound := by
  cases act with
  | lockFor cache key =>
    simp only [Keyring.perform]
    split
    · exact h
    · next hlock => exact h.lockFor hlock
  | take place =>
    simp only [Keyring.perform]
    split
    · exact h
    · next hget => exact h.take hget
  | release place =>
    simp only [Keyring.perform]
    split
    · exact h
    · next hget => exact h.release hget
  | drop place =>
    simp only [Keyring.perform]
    split
    · exact h
    · next hget => exact h.drop hget

private theorem Sound.run (h : ring.Sound) (acts : List LockAct) : (ring.run acts).Sound := by
  induction acts generalizing ring with
  | nil => exact h
  | cons act acts ih => exact ih (h.perform act)

/-- No act brings a cache about or takes one away. -/
theorem isSome_locks?_perform (ring : Keyring L) (act : LockAct) (cache : CacheRef) :
    ((ring.perform act).grid.locks? cache).isSome = (ring.grid.locks? cache).isSome := by
  cases act with
  | lockFor other key =>
    simp only [perform, Grid.lockFor?]
    cases hlocks : ring.grid.locks? other with
    | none => rfl
    | some locks => exact Grid.isSome_locks?_setLocks ..
  | take place =>
    simp only [perform]
    split
    · rfl
    · exact Grid.isSome_locks?_setLocks ..
  | release place =>
    simp only [perform]
    split
    · rfl
    · exact Grid.isSome_locks?_release ..
  | drop place =>
    simp only [perform]
    split
    · rfl
    · exact (Grid.isSome_locks?_setLocks ..).trans (Grid.isSome_locks?_release ..)

private theorem isSome_locks?_run (ring : Keyring L) (acts : List LockAct) (cache : CacheRef) :
    ((ring.run acts).grid.locks? cache).isSome = (ring.grid.locks? cache).isSome := by
  induction acts generalizing ring with
  | nil => rfl
  | cons act acts ih => exact (ih (ring.perform act)).trans (isSome_locks?_perform ring act cache)

/-- Whatever is done with the locks of fresh caches, on any keys and through any of them: a table is
exact about those of its handles that are alive, and it is the one that each of these uses. -/
theorem exact_run {grid : Grid L}
    (hfresh : ∀ cache locks, grid.locks? cache = some locks →
      locks.slots = ∅ ∧ locks.taken = [])
    {cache : CacheRef} (hcache : (grid.locks? cache).isSome) (acts : List LockAct) :
    ∃ locks, (run ⟨grid, []⟩ acts).grid.locks? cache = some locks ∧
      locks.Exact ((run ⟨grid, []⟩ acts).live cache) ∧
      ∀ handle ∈ (run ⟨grid, []⟩ acts).live cache,
        (run ⟨grid, []⟩ acts).grid.locksOf handle = locks := by
  have hsound : Sound (⟨grid, []⟩ : Keyring L) := by
    intro other locks hlocks
    obtain ⟨hslots, htaken⟩ := hfresh other locks hlocks
    exact Locks.serves_nil hslots htaken
  rw [← isSome_locks?_run ⟨grid, []⟩ acts, Option.isSome_iff_exists] at hcache
  obtain ⟨locks, hlocks⟩ := hcache
  refine ⟨locks, hlocks, (hsound.run acts cache locks hlocks).exact, ?_⟩
  intro handle hmem
  have htable : handle.cache.table = cache.table := of_decide_eq_true (List.mem_filter.mp hmem).2
  exact Grid.locksOf_eq ((Grid.locks?_congr htable).trans hlocks)

end Keyring

namespace LockSample

def juliet : Address := .ofParts (some "juliet") "example.org" (some "balcony")

def romeo : Address := .ofParts (some "romeo") "example.org" none

def grid : Grid Unit := ⟨[{ name := "hub" }], []⟩

def one : CacheRef := .clustered 0 ⟨⟨"one"⟩, 0⟩

def two : CacheRef := .clustered 0 ⟨⟨"two"⟩, 1⟩

/-- A key is taken through one view, and cannot be taken through the other until the handle that
holds it is dropped. With its last handle the slot goes; another handle is on a new mutex. -/
def acts : List LockAct :=
  [.lockFor one juliet, .lockFor two juliet, .lockFor two romeo, .take 0, .take 1, .take 2, .drop 0,
    .take 0, .drop 0, .lockFor one juliet]

/-- In the midst of the history the handles of two views share a mutex, and one of them holds it; in
the end there are two keys with a slot each. -/
theorem views_share_lock :
    (Keyring.run ⟨grid, []⟩ (acts.take 6)).handles =
        [⟨one, ⟨juliet, 0⟩, true⟩, ⟨two, ⟨juliet, 0⟩, false⟩, ⟨two, ⟨romeo, 1⟩, true⟩] ∧
      (Keyring.run ⟨grid, []⟩ acts).handles =
        [⟨two, ⟨romeo, 1⟩, true⟩, ⟨one, ⟨juliet, 2⟩, false⟩] ∧
      ∃ locks, (Keyring.run ⟨grid, []⟩ acts).grid.locks? one = some locks ∧
        locks.Exact [⟨two, ⟨romeo, 1⟩, true⟩, ⟨one, ⟨juliet, 2⟩, false⟩] := by
  have hfresh : ∀ cache locks, grid.locks? cache = some locks →
      locks.slots = ∅ ∧ locks.taken = [] := by
    intro cache locks hlocks
    cases cache with
    | standalone cache => cases hlocks
    | clustered hub view =>
      obtain ⟨found, hfound, rfl⟩ := Option.map_eq_some_iff.mp hlocks
      rw [List.mem_singleton.mp (List.mem_of_getElem? hfound)]
      exact ⟨rfl, rfl⟩
  have hone : (grid.locks? one).isSome := rfl
  obtain ⟨locks, hlocks, hexact, -⟩ := Keyring.exact_run hfresh hone acts
  have hlive : (Keyring.run ⟨grid, []⟩ acts).live one =
      [⟨two, ⟨romeo, 1⟩, true⟩, ⟨one, ⟨juliet, 2⟩, false⟩] := by
    decide +kernel
  exact ⟨by decide +kernel, by decide +kernel, locks, hlocks, hlive ▸ hexact⟩

end LockSample

end DirectedPresence
