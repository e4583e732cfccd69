import DirectedPresence.Node.Caching
import DirectedPresence.Text.Quoted

/-!
Descriptions of the parts of a node, for diagnostics: the name of the part with its particulars in
braces. Names that users choose are quoted.
-/

namespace DirectedPresence

def describePart (part : String) (particulars : List (String × String)) : String :=
  part ++ " \x7b " ++ ", ".intercalate (particulars.map fun (key, value) => key ++ ": " ++ value) ++
    " \x7d"

def Phase.describe : Phase → String
  | .standalone => "Standalone"
  | .joining => "Joining"
  | .clustered => "Clustered"
  | .leaving => "Leaving"

def Store.describe (store : Store) : String :=
  describePart "LocalPresenceStore" [("len", toString store.size)]

/-- A handle on a lock of the given table. -/
def Locks.describe (locks : Locks) (lock : KeyLock) : String :=
  describePart "KeyLock" [("key", lock.key.describe), ("locked", toString (locks.isTaken lock))]

def Hub.describe {L : Type} (hub : Hub L) : String :=
  describePart "ClusterCacheHub" [("name", Text.quoted hub.name),
    ("members", toString hub.members.size), ("len", toString hub.size)]

def View.describe (view : View) (hubName : String) : String :=
  describePart "ClusteredCache" [("name", Text.quoted hubName), ("node", view.node.describe)]

def ReverseIndex.describe (index : ReverseIndex) : String :=
  describePart "ClusterReverseIndex" [("nodes", toString index.nodes.size)]

def Feed.describe (feed : Feed) : String :=
  describePart "DirectedPresenceListener" [("name", Text.quoted feed.name)]

def describeHandle (name : String) (node : NodeId) (clustered : Bool) : String :=
  describePart "CacheHandle" [("name", Text.quoted name), ("node", node.describe),
    ("clustered", toString clustered)]

namespace Seat

def describeCache (seat : Seat) : String :=
  describeHandle seat.cacheName seat.cacheNode seat.node.cache.isClustered

def describeNode (seat : Seat) : String :=
  describePart "PresenceNode" [("node", seat.node.id.describe),
    ("state", seat.node.phase.describe), ("cache", seat.describeCache)]

def describeDispatcher (seat : Seat) : String :=
  describePart "PresenceDispatcher" [("domain", Text.quoted seat.node.server.domain),
    ("node", seat.node.id.describe), ("senders", toString seat.node.store.size)]

def describeCoordinator (seat : Seat) : String :=
  describePart "ClusterCoordinator" [("node", seat.node.id.describe),
    ("state", seat.node.phase.describe)]

def describeSweeper (seat : Seat) : String :=
  describePart "ExpirySweeper" [("senders", toString seat.node.store.size)]

/-- The node, its dispatcher, its coordinator, its sweeper and its cache. -/
def describeAll (seat : Seat) : List String :=
  [seat.describeNode, seat.describeDispatcher, seat.describeCoordinator, seat.describeSweeper,
    seat.describeCache]

end Seat

end DirectedPresence
