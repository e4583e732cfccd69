import DirectedPresence.Address

/-!
The directed presences of one sender. A registry records through which handler each receiver saw
the sender come online, in one entry per handler, in the order in which the handlers first
appeared. Starting from the empty registry every operation keeps the handlers distinct and every
receiver set inhabited; a registry that was received from elsewhere is taken as it is, and then an
operation on a handler concerns its first entry.
-/

namespace DirectedPresence

/-- The receivers that were reached through one handler, and the node that recorded them. -/
structure HandlerEntry where
  handler : Address
  node : NodeId
  receivers : AddressSet
deriving DecidableEq

/-- All directed presences of one sender. -/
structure Registry where
  entries : List HandlerEntry := []
deriving DecidableEq

namespace HandlerEntry

def withoutAccount (e : HandlerEntry) (contact : Address) : HandlerEntry :=
  { e with receivers := e.receivers.filter fun receiver => !receiver.sameBare contact }

/-- Records `receiver` under `handler`, in its first entry or else in a new last one. The flag
tells whether anything changed. -/
def record (handler : Address) (node : NodeId) (receiver : Address) :
    List HandlerEntry → List HandlerEntry × Bool
  | [] => ([⟨handler, node, {receiver}⟩], true)
  | e :: es =>
    if e.handler = handler then
      ({ e with receivers := e.receivers.insert receiver } :: es, !e.receivers.contains receiver)
    else
      let (rest, changed) := record handler node receiver es
      (e :: rest, changed)

/-- Forgets `receiver` in the first entry of `handler`, and the entry with its last receiver. The
flag tells whether the receiver was there. -/
def forget (handler receiver : Address) : List HandlerEntry → List HandlerEntry × Bool
  | [] => ([], false)
  | e :: es =>
    if e.handler = handler then
      let left := e.receivers.erase receiver
      (if left.isEmpty then es else { e with receivers := left } :: es,
        e.receivers.contains receiver)
    else
      let (rest, removed) := forget handler receiver es
      (e :: rest, removed)

end HandlerEntry

namespace Registry

def empty : Registry := {}

def isEmpty (r : Registry) : Bool :=
  r.entries.isEmpty

def size (r : Registry) : Nat :=
  r.entries.length

def get? (r : Registry) (handler : Address) : Option HandlerEntry :=
  r.entries.find? (·.handler = handler)

/-- The node that recorded the registry: that of the first entry. -/
def origin? (r : Registry) : Option NodeId :=
  r.entries.head?.map (·.node)

def pairs (r : Registry) : List (Address × Address) :=
  r.entries.flatMap fun e => e.receivers.toList.map fun receiver => (e.handler, receiver)

def pairCount (r : Registry) : Nat :=
  r.entries.foldl (fun count e => count + e.receivers.size) 0

/-- Records that `handler` delivered to `receiver`, and whether that is new. -/
def add (r : Registry) (handler : Address) (node : NodeId) (receiver : Address) :
    Registry × Bool :=
  let (entries, changed) := HandlerEntry.record handler node receiver r.entries
  (⟨entries⟩, changed)

/-- Forgets that `handler` delivered to `receiver`, and whether that was recorded. -/
def remove (r : Registry) (handler receiver : Address) : Registry × Bool :=
  let (entries, removed) := HandlerEntry.forget handler receiver r.entries
  (⟨entries⟩, removed)

/-- Keeps the entries that satisfy `keep`, and counts the others. -/
def retain (r : Registry) (keep : HandlerEntry → Bool) : Registry × Nat :=
  let kept := r.entries.filter keep
  (⟨kept⟩, r.entries.length - kept.length)

def hasAccount (r : Registry) (contact : Address) : Bool :=
  r.entries.any fun e => e.receivers.toList.any (·.sameBare contact)

/-- Forgets every receiver that belongs to the account of `contact`, and counts them. Entries
without a receiver are dropped. -/
def removeAccount (r : Registry) (contact : Address) : Registry × Nat :=
  let trimmed := r.entries.map (·.withoutAccount contact)
  (⟨trimmed.filter fun e => !e.receivers.isEmpty⟩,
    r.pairCount - pairCount ⟨trimmed⟩)

def receiversWhere (r : Registry) (select : Address → Bool) : AddressSet :=
  Std.ExtTreeSet.ofList ((r.entries.filter fun e => select e.handler).flatMap
    fun e => e.receivers.toList) compare

theorem mem_pairs {r : Registry} {handler receiver : Address} :
    (handler, receiver) ∈ r.pairs ↔
      ∃ e ∈ r.entries, e.handler = handler ∧ receiver ∈ e.receivers := by
  simp [pairs, Std.ExtTreeSet.mem_toList, Prod.ext_iff]
  grind

theorem mem_receiversWhere {r : Registry} {select : Address → Bool} {receiver : Address} :
    receiver ∈ r.receiversWhere select ↔
      ∃ e ∈ r.entries, select e.handler = true ∧ receiver ∈ e.receivers := by
  simp [receiversWhere, Std.ExtTreeSet.mem_toList, Std.ExtTreeSet.mem_ofList, and_assoc]

end Registry

end DirectedPresence
