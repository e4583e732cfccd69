import DirectedPresence.Failure
import DirectedPresence.Registry

/-!
Events of a cache. Every change of a cache is told to its listeners with the node that caused it.
The registries in an event are its values; a listener may be registered to get events without them.
-/

namespace DirectedPresence

inductive CacheEvent where
  | added (key : Address) (value : Option Registry) (node : NodeId)
  | updated (key : Address) (old new : Option Registry) (node : NodeId)
  | removed (key : Address) (old : Option Registry) (node : NodeId)
  | evicted (key : Address) (old : Option Registry) (node : NodeId)
  | mapEvicted (node : NodeId)
  | mapCleared (node : NodeId)
deriving DecidableEq

namespace CacheEvent

def node : CacheEvent → NodeId
  | added _ _ node | updated _ _ _ node | removed _ _ node | evicted _ _ node
  | mapEvicted node | mapCleared node => node

def withoutValues : CacheEvent → CacheEvent
  | added key _ node => added key none node
  | updated key _ _ node => updated key none none node
  | removed key _ node => removed key none node
  | evicted key _ node => evicted key none node
  | mapEvicted node => mapEvicted node
  | mapCleared node => mapCleared node

/-- The event of a write: an update of `old`, or an addition where there was nothing. -/
def ofWrite (key : Address) (old : Option Registry) (new : Registry) (node : NodeId) :
    CacheEvent :=
  match old with
  | none => added key (some new) node
  | some old => updated key (some old) (some new) node

end CacheEvent

end DirectedPresence
