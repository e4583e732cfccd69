import DirectedPresence.Registry

/-!
The store of a node: the registries of the senders whose sessions live there. It is what the node
knows for certain; caches are rebuilt from it. A sender without directed presences has no registry
in the store. What an insertion and a removal do is said by `get?_insert` and `get?_remove`; a store
is determined by the registries that it gives (`ext_get?`).
-/

namespace DirectedPresence

/-- The registry of each local sender that has one. -/
structure Store where
  registries : AddressMap Registry := ∅
deriving DecidableEq

namespace Store

def get? (s : Store) (sender : Address) : Option Registry :=
  s.registries[sender]?

def contains (s : Store) (sender : Address) : Bool :=
  s.registries.contains sender

def size (s : Store) : Nat :=
  s.registries.size

def isEmpty (s : Store) : Bool :=
  s.registries.isEmpty

def remove (s : Store) (sender : Address) : Store :=
  ⟨s.registries.erase sender⟩

/-- The store with another registry for a sender; an empty registry removes the sender. -/
def insert (s : Store) (sender : Address) (registry : Registry) : Store :=
  if registry.isEmpty then s.remove sender else ⟨s.registries.insert sender registry⟩

/-- Changes the registry of a sender and hands on what `change` answers. A sender whose registry
ends up empty is removed; an unknown sender changes nothing. -/
def modify {α : Type} (s : Store) (sender : Address) (change : Registry → Registry × α) :
    Store × Option α :=
  match s.get? sender with
  | none => (s, none)
  | some registry =>
    let (changed, answer) := change registry
    (s.insert sender changed, some answer)

@[ext] theorem ext_get? {s t : Store} (h : ∀ sender, s.get? sender = t.get? sender) : s = t := by
  obtain ⟨s⟩ := s
  obtain ⟨t⟩ := t
  exact congrArg Store.mk (Std.ExtTreeMap.ext_getElem? fun {sender} => h sender)

theorem get?_remove (s : Store) (sender key : Address) :
    (s.remove sender).get? key = if sender = key then none else s.get? key := by
  simp [get?, remove, Std.ExtTreeMap.getElem?_erase]

theorem get?_insert (s : Store) (sender key : Address) (registry : Registry) :
    (s.insert sender registry).get? key =
      if sender = key then if registry.isEmpty then none else some registry
      else s.get? key := by
  by_cases h : registry.isEmpty
  · simp [insert, h, get?_remove]
  · simp [insert, h, get?, Std.ExtTreeMap.getElem?_insert]

def toList (s : Store) : List (Address × Registry) :=
  s.registries.toList

def senders (s : Store) : List Address :=
  s.registries.keys

theorem mem_toList_iff {s : Store} {sender : Address} {registry : Registry} :
    (sender, registry) ∈ s.toList ↔ s.get? sender = some registry :=
  Std.ExtTreeMap.mem_toList_iff_getElem?_eq_some

theorem map_fst_toList (s : Store) : s.toList.map Prod.fst = s.senders :=
  Std.ExtTreeMap.map_fst_toList_eq_keys

theorem nodup_senders (s : Store) : s.senders.Nodup :=
  Std.ExtTreeMap.nodup_keys

theorem nodup_toList (s : Store) : (s.toList.map Prod.fst).Nodup :=
  s.map_fst_toList ▸ s.nodup_senders

end Store

end DirectedPresence
