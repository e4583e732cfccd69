import DirectedPresence.Cache.Hub
import DirectedPresence.Cache.Local
import DirectedPresence.ReverseIndex
import DirectedPresence.Settings
import DirectedPresence.Store

/-!
Nodes and what they share. A node tracks the directed presences of its senders in its store and in
a cache. The cache is its own while the node stands alone, and a view of the cluster's hub while it
is a member. What the nodes of a cluster share is the fabric: the hub, and the reverse indexes that
the events of the hub feed.

An operation of a node sees the node and the fabric, and nothing of the other nodes: together they
are a `Seat`.
-/

namespace DirectedPresence

/-- The server that a node runs on. -/
structure Server where
  node : NodeId
  domain : String
  shuttingDown : Bool := false
deriving DecidableEq, Repr

namespace Server

def ofDomain (node : NodeId) (domain : String) : Server :=
  { node, domain := Address.canonicalDomain domain }

def isLocal (s : Server) (a : Address) : Bool :=
  a.domain = s.domain

end Server

/-- The listener that feeds the reverse index of a node. -/
structure Feed where
  name : String
  node : NodeId
deriving DecidableEq, Repr

inductive Phase where
  | standalone
  | joining
  | clustered
  | leaving
deriving DecidableEq, Repr

/-- Where the cached registries of a node are kept. -/
inductive Backing where
  | standalone (cache : LocalCache Feed)
  | clustered (view : View)
deriving DecidableEq

/-- The cache of a node, and which of its operations are made to fail. -/
structure NodeCache where
  backing : Backing
  faults : Faults := {}
deriving DecidableEq

def NodeCache.isClustered (c : NodeCache) : Bool :=
  match c.backing with
  | .standalone _ => false
  | .clustered _ => true

structure Node where
  server : Server
  settings : Settings
  store : Store := {}
  cache : NodeCache
  phase : Phase := .standalone
deriving DecidableEq

namespace Node

def id (n : Node) : NodeId :=
  n.server.node

/-- An empty cache for a node that stands alone. -/
def freshCache (server : Server) (settings : Settings) : NodeCache :=
  ⟨.standalone { name := settings.cacheName, node := server.node }, {}⟩

/-- A node that stands alone and tracks nothing. -/
def start (server : Server) (settings : Settings) : Node :=
  { server, settings, cache := freshCache server settings }

end Node

/-- What the nodes of a cluster share. -/
structure Fabric where
  hub : Hub Feed
  indexes : NodeMap ReverseIndex := ∅
deriving DecidableEq

namespace Fabric

def index (f : Fabric) (node : NodeId) : ReverseIndex :=
  f.indexes[node]?.getD {}

def setIndex (f : Fabric) (node : NodeId) (index : ReverseIndex) : Fabric :=
  { f with indexes := f.indexes.insert node index }

end Fabric

/-- How the feeds of the nodes react to the events of a cache. -/
def Feed.react (env : Environment) : Reaction Feed (NodeMap ReverseIndex) :=
  fun feed event indexes =>
    match (indexes[feed.node]?.getD {}).observe (env feed.node).routes.isLocal event with
    | .ok index => (indexes.insert feed.node index, none)
    | .error refusal => (indexes, some refusal)

structure Seat where
  fabric : Fabric
  node : Node
deriving DecidableEq

/-- What comes of an operation at a seat: its answer, the seat after it, its trace, and what the
feeds of the nodes heard. -/
structure Outcome (α : Type) where
  answer : α
  seat : Seat
  trace : Trace := {}
  hearings : List (Hearing Feed) := []

namespace Outcome

variable {α β : Type}

/-- Goes on with another operation at the seat that the first one left. -/
def andThen (o : Outcome α) (next : α → Seat → Outcome β) : Outcome β :=
  let after := next o.answer o.seat
  ⟨after.answer, after.seat, o.trace ++ after.trace, o.hearings ++ after.hearings⟩

def map (f : α → β) (o : Outcome α) : Outcome β :=
  { o with answer := f o.answer }

/-- The same outcome after a trace. -/
def after (before : Trace) (o : Outcome α) : Outcome α :=
  { o with trace := before ++ o.trace }

@[simp] theorem answer_andThen (o : Outcome α) (next : α → Seat → Outcome β) :
    (o.andThen next).answer = (next o.answer o.seat).answer := rfl

@[simp] theorem seat_andThen (o : Outcome α) (next : α → Seat → Outcome β) :
    (o.andThen next).seat = (next o.answer o.seat).seat := rfl

@[simp] theorem trace_andThen (o : Outcome α) (next : α → Seat → Outcome β) :
    (o.andThen next).trace = o.trace ++ (next o.answer o.seat).trace := rfl

@[simp] theorem hearings_andThen (o : Outcome α) (next : α → Seat → Outcome β) :
    (o.andThen next).hearings = o.hearings ++ (next o.answer o.seat).hearings := rfl

@[simp] theorem answer_map (f : α → β) (o : Outcome α) : (o.map f).answer = f o.answer := rfl

@[simp] theorem seat_map (f : α → β) (o : Outcome α) : (o.map f).seat = o.seat := rfl

@[simp] theorem trace_map (f : α → β) (o : Outcome α) : (o.map f).trace = o.trace := rfl

@[simp] theorem answer_after (before : Trace) (o : Outcome α) :
    (o.after before).answer = o.answer := rfl

@[simp] theorem seat_after (before : Trace) (o : Outcome α) :
    (o.after before).seat = o.seat := rfl

end Outcome

end DirectedPresence
