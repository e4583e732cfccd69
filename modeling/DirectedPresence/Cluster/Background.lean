import DirectedPresence.Cluster

/-!
The background activity of a node: a loop that handles membership events as they come in through a
channel, and a timer that sweeps at every multiple of the sweep interval, the start not included.
Closing the channel ends the loop; stopping ends both.
-/

namespace DirectedPresence

structure Background where
  /-- Milliseconds since the start. -/
  clock : Nat := 0
  listening : Bool := true
  sweeping : Bool := true
deriving DecidableEq, Repr

namespace Background

/-- The sweeps that fall due while the given time passes. -/
def due (b : Background) (interval elapsed : Nat) : Nat :=
  if b.sweeping then (b.clock + elapsed) / interval - b.clock / interval else 0

def close (b : Background) : Background :=
  { b with listening := false }

def stop (b : Background) : Background :=
  { b with listening := false, sweeping := false }

end Background

namespace Seat

/-- Sweeps a number of times, and counts what was dropped. -/
def sweepTimes (env : Environment) : Nat → Seat → Outcome Nat
  | 0, seat => { answer := 0, seat }
  | times + 1, seat =>
    (seat.sweep env).andThen fun dropped seat =>
      (sweepTimes env times seat).map (dropped + ·)

def sleep (env : Environment) (seat : Seat) (b : Background) (elapsed : Nat) :
    Background × Outcome Unit :=
  ({ b with clock := b.clock + elapsed },
    (sweepTimes env (b.due seat.node.settings.sweepInterval.toNat elapsed) seat).map fun _ => ())

/-- Sends a membership event to the loop, and tells whether it was accepted. -/
def send (env : Environment) (seat : Seat) (b : Background) (event : MembershipEvent) :
    Outcome Bool :=
  if b.listening then (seat.handle env event).map fun _ => true
  else { answer := false, seat }

end Seat

end DirectedPresence
