import DirectedPresence.Failure
import DirectedPresence.Form.Model
import DirectedPresence.Wire

/-!
What the cache of a cluster holds of a sender: the registry in its binary form, and the node that
wrote it last.
-/

namespace DirectedPresence

structure Holding where
  bytes : List UInt8
  owner : NodeId
deriving DecidableEq, Repr

def Holding.registry (h : Holding) : Except CacheError Registry :=
  match Wire.decode Registry h.bytes with
  | .ok (registry, _) => .ok registry
  | .error e => .error (.decode (Wire.describe e))

end DirectedPresence
