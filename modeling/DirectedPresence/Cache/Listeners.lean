import DirectedPresence.Cache.Event

/-!
Tables of listeners. A listener hears every event that is dispatched after its registration, in the
order of registration, until it refuses one; then its registration is dropped, once all others have
heard that event. What listeners do is given by a reaction on a world of which the table knows
nothing: an event changes the world and may be refused.
-/

namespace DirectedPresence

/-- How a listener reacts to an event. -/
abbrev Reaction (L σ : Type) := L → CacheEvent → σ → σ × Option ListenerError

structure Registration (L : Type) where
  id : Nat
  listener : L
  includesValues : Bool
deriving DecidableEq

/-- An event as one registration heard it, and why the listener refused it, if it did. -/
structure Hearing (L : Type) where
  registration : Registration L
  event : CacheEvent
  refusal : Option ListenerError
deriving DecidableEq

/-- The registrations in the order in which they were made, and the number of the next one. A
counter of 64 bits would start over only after 2 ^ 64 registrations at one table. Registrations are
made one at a time, a few in the life of a node, so no run gets there and the number is unbounded
here. -/
structure Listeners (L : Type) where
  nextId : Nat := 0
  registrations : List (Registration L) := []
deriving DecidableEq

def Registration.view {L : Type} (r : Registration L) (event : CacheEvent) : CacheEvent :=
  if r.includesValues then event else event.withoutValues

namespace Listeners

variable {L σ : Type}

def empty : Listeners L := {}

def size (t : Listeners L) : Nat :=
  t.registrations.length

def add (t : Listeners L) (listener : L) (includesValues : Bool) : Listeners L :=
  ⟨t.nextId + 1, t.registrations ++ [⟨t.nextId, listener, includesValues⟩]⟩

def deliver (react : Reaction L σ) (event : CacheEvent) :
    List (Registration L) → σ → σ × List (Hearing L)
  | [], world => (world, [])
  | r :: rs, world =>
    let (world, refusal) := react r.listener (r.view event) world
    let (world, hearings) := deliver react event rs world
    (world, ⟨r, r.view event, refusal⟩ :: hearings)

/-- Dispatches an event: every registration hears it, and those that refuse it are dropped. -/
def dispatch (react : Reaction L σ) (t : Listeners L) (event : CacheEvent) (world : σ) :
    Listeners L × σ × List (Hearing L) :=
  let (world, hearings) := deliver react event t.registrations world
  let refused := (hearings.filter (·.refusal.isSome)).map (·.registration.id)
  ({ t with registrations := t.registrations.filter fun r => r.id ∉ refused }, world, hearings)

end Listeners

/-- What comes of an operation on a cache of kind `κ`: its answer, the cache and the world of the
listeners after it, and what the listeners heard. -/
structure Change (κ : Type → Type) (L σ α : Type) where
  answer : α
  cache : κ L
  world : σ
  hearings : List (Hearing L) := []

def Change.refusals {κ : Type → Type} {L σ α : Type} (c : Change κ L σ α) : List ListenerError :=
  c.hearings.filterMap (·.refusal)

end DirectedPresence
