import DirectedPresence.Cache.Listeners
import DirectedPresence.ReverseIndex

/-!
Watching caches. A recorder keeps every event that it hears, and may refuse its n-th one; an indexer
feeds a reverse index. Both are named; registrations under one name share a record or an index, but
each registration of a recorder counts for itself.
-/

namespace DirectedPresence

inductive Watcher where
  | recorder (id : String) (registration : Nat) (failAt : Option Nat)
  | indexer (id : String) (localRoutes : AddressSet)
deriving DecidableEq

/-- What the watchers have heard: the number of events for each registration of a recorder, the
events of all recorders in the order of hearing, and the indexes. -/
structure Watched where
  counts : Std.ExtTreeMap Nat Nat compare := ∅
  events : List (String × CacheEvent) := []
  indexes : Std.ExtTreeMap String ReverseIndex compare := ∅

/-- How the watchers react to an event. A recorder that refuses one has recorded it before. -/
def Watcher.react : Reaction Watcher Watched
  | .recorder id registration failAt, event, watched =>
    let count := watched.counts[registration]?.getD 0 + 1
    ({ watched with
        counts := watched.counts.insert registration count
        events := watched.events ++ [(id, event)] },
      if failAt = some count then some (.missingValue (.ofDomain id) event.node) else none)
  | .indexer id localRoutes, event, watched =>
    match (watched.indexes[id]?.getD {}).observe localRoutes.contains event with
    | .ok index => ({ watched with indexes := watched.indexes.insert id index }, none)
    | .error refusal => (watched, some refusal)

namespace Watched

def recorded (w : Watched) (id : String) : List CacheEvent :=
  w.events.filterMap fun (who, event) => if who = id then some event else none

def recorders (w : Watched) : List String :=
  (w.events.map (·.1)).eraseDups

def rewind (w : Watched) : Watched :=
  { w with events := [] }

def prepare (w : Watched) (id : String) : Watched :=
  if w.indexes.contains id then w else { w with indexes := w.indexes.insert id {} }

end Watched

end DirectedPresence
