import DirectedPresence.Node.Caching

/-!
Sweeps. A handler that is served nowhere any more can never deliver to its receivers again, so a
sweep drops its entries from the registries of the node's senders, in the store and in the cache.
Nobody is told. Senders all of whose handlers are served are left alone.
-/

namespace DirectedPresence

def HandlerEntry.isServed (routes : Routes) (e : HandlerEntry) : Bool :=
  routes.reaches e.handler

namespace Seat

/-- Drops the entries of unserved handlers from the cached registry of a sender. -/
def sweepCached [Enumerates] (env : Environment) (seat : Seat) (sender : Address) :
    Outcome (Except CacheError Unit) :=
  match seat.get sender with
  | .error cause => { answer := .error cause, seat }
  | .ok none => { answer := .ok (), seat }
  | .ok (some registry) =>
    let (left, dropped) := registry.retain (HandlerEntry.isServed (seat.services env).routes)
    if dropped = 0 then { answer := .ok (), seat }
    else
      (if left.isEmpty then seat.remove env sender else seat.put env sender left).map
        fun answer => answer.map fun _ => ()

/-- Drops the entries of unserved handlers of a sender, and counts those in the store. -/
def sweepSender [Enumerates] (env : Environment) (seat : Seat) (sender : Address) : Outcome Nat :=
  let (store, dropped) :=
    seat.node.store.modify sender (·.retain (HandlerEntry.isServed (seat.services env).routes))
  ((seat.setStore store).sweepCached env sender).andThen fun answer seat =>
    { answer := dropped.getD 0
      seat
      trace := match answer with
        | .ok () => .empty
        | .error cause => .notice (.sweepFailed sender cause) }

def sweepEach [Enumerates] (env : Environment) : List (Address × Registry) → Seat → Outcome Nat
  | [], seat => { answer := 0, seat }
  | (sender, registry) :: rest, seat =>
    if registry.entries.all (HandlerEntry.isServed (seat.services env).routes) then
      sweepEach env rest seat
    else
      (seat.sweepSender env sender).andThen fun dropped seat =>
        (sweepEach env rest seat).map (dropped + ·)

/-- Drops all entries of handlers that are served nowhere, and counts those in the store. -/
def sweep [Enumerates] (env : Environment) (seat : Seat) : Outcome Nat :=
  sweepEach env seat.node.store.toList seat

end Seat

end DirectedPresence
