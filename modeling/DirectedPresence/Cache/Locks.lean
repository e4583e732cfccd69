import DirectedPresence.Address

/-!
Locks by key. Whoever changes the registry of a sender holds the lock of that sender meanwhile. A
table has a slot for every key with a live handle; all handles of a key share the mutex of its slot,
and the slot goes with its last handle. Mutexes are numbered, so that a later slot of the same key
has another one.
-/

namespace DirectedPresence

/-- The mutex of a key and the number of live handles on it. -/
structure LockSlot where
  mutex : Nat
  holders : Nat
deriving DecidableEq, Repr

/-- A handle on the mutex of a key. -/
structure KeyLock where
  key : Address
  mutex : Nat
deriving DecidableEq, Repr

/-- The slots of a lock table, the number of the next mutex, and the mutexes that are taken. -/
structure Locks where
  slots : AddressMap LockSlot := ∅
  nextMutex : Nat := 0
  taken : List Nat := []
deriving DecidableEq

namespace Locks

def lockFor (t : Locks) (key : Address) : Locks × KeyLock :=
  match t.slots[key]? with
  | some slot =>
    ({ t with slots := t.slots.insert key { slot with holders := slot.holders + 1 } },
      ⟨key, slot.mutex⟩)
  | none =>
    ({ t with slots := t.slots.insert key ⟨t.nextMutex, 1⟩, nextMutex := t.nextMutex + 1 },
      ⟨key, t.nextMutex⟩)

def isTaken (t : Locks) (lock : KeyLock) : Bool :=
  lock.mutex ∈ t.taken

/-- Takes the mutex of a handle if it is free, and tells whether it was. -/
def tryTake (t : Locks) (lock : KeyLock) : Locks × Bool :=
  if t.isTaken lock then (t, false) else ({ t with taken := lock.mutex :: t.taken }, true)

def release (t : Locks) (lock : KeyLock) : Locks :=
  { t with taken := t.taken.erase lock.mutex }

/-- Drops a handle, and the slot of its key with the last one. -/
def drop (t : Locks) (lock : KeyLock) : Locks :=
  match t.slots[lock.key]? with
  | none => t
  | some slot =>
    if slot.holders = 1 then { t with slots := t.slots.erase lock.key }
    else { t with slots := t.slots.insert lock.key { slot with holders := slot.holders - 1 } }

end Locks

end DirectedPresence
