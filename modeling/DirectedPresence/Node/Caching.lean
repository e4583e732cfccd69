import DirectedPresence.Node

/-!
The cache as an operation of a node sees it: read, write, remove and list, whatever its backing. A
change reaches the listeners at once. An operation that is made to fail does not reach the backing.
-/

namespace DirectedPresence.Seat

def services (seat : Seat) (env : Environment) : Services :=
  env seat.node.id

def cacheName (seat : Seat) : String :=
  match seat.node.cache.backing with
  | .standalone cache => cache.name
  | .clustered _ => seat.fabric.hub.name

/-- The node in whose name the cache is written. -/
def cacheNode (seat : Seat) : NodeId :=
  match seat.node.cache.backing with
  | .standalone cache => cache.node
  | .clustered view => view.node

/-- The seat after a change of the cache of its node alone. -/
def afterLocal {α : Type} (seat : Seat)
    (change : Change LocalCache Feed (NodeMap ReverseIndex) α) : Outcome α where
  answer := change.answer
  seat :=
    ⟨{ seat.fabric with indexes := change.world },
      { seat.node with cache := { seat.node.cache with backing := .standalone change.cache } }⟩
  trace := ⟨[], change.refusals.map (.listenerFailed change.cache.name)⟩
  hearings := change.hearings

/-- The seat after a change of the hub. -/
def afterHub {α : Type} (seat : Seat) (change : Change Hub Feed (NodeMap ReverseIndex) α) :
    Outcome α where
  answer := change.answer
  seat := { seat with fabric := ⟨change.cache, change.world⟩ }
  trace := ⟨[], change.refusals.map (.listenerFailed change.cache.name)⟩
  hearings := change.hearings

def get (seat : Seat) (key : Address) : Except CacheError (Option Registry) :=
  if seat.node.cache.faults.get then .error (.decode "get fault")
  else
    match seat.node.cache.backing with
    | .standalone cache => .ok (cache.get? key)
    | .clustered _ => seat.fabric.hub.get key

def entries [Enumerates] (seat : Seat) : Except CacheError (List (Address × Registry)) :=
  if seat.node.cache.faults.entries then .error (.decode "entries fault")
  else
    match seat.node.cache.backing with
    | .standalone cache => .ok cache.entries
    | .clustered _ => seat.fabric.hub.entries

/-- Caches the registry of a sender; the answer is the previous one. -/
def put [Enumerates] (env : Environment) (seat : Seat) (key : Address) (value : Registry) :
    Outcome (Except CacheError (Option Registry)) :=
  if seat.node.cache.faults.put then { answer := .error (.encode "put fault"), seat }
  else
    match seat.node.cache.backing with
    | .standalone cache =>
      (seat.afterLocal (cache.put (Feed.react env) key value seat.fabric.indexes)).map .ok
    | .clustered view =>
      seat.afterHub (seat.fabric.hub.put (Feed.react env) view.node key value seat.fabric.indexes)

def remove [Enumerates] (env : Environment) (seat : Seat) (key : Address) :
    Outcome (Except CacheError (Option Registry)) :=
  if seat.node.cache.faults.remove then { answer := .error (.decode "remove fault"), seat }
  else
    match seat.node.cache.backing with
    | .standalone cache =>
      (seat.afterLocal (cache.remove (Feed.react env) key seat.fabric.indexes)).map .ok
    | .clustered view =>
      seat.afterHub (seat.fabric.hub.remove (Feed.react env) view.node key seat.fabric.indexes)

def setStore (seat : Seat) (store : Store) : Seat :=
  { seat with node := { seat.node with store } }

def setCache (seat : Seat) (cache : NodeCache) : Seat :=
  { seat with node := { seat.node with cache } }

def setPhase (seat : Seat) (phase : Phase) : Seat :=
  { seat with node := { seat.node with phase } }

end DirectedPresence.Seat
