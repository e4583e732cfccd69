import DirectedPresence.Form
import DirectedPresence.Text.Blank

/-!
The settings of a node, their defaults, and which settings are refused.
-/

namespace DirectedPresence

structure Settings where
  cacheName : String := "Directed Presences"
  /-- The time between two sweeps, in milliseconds. -/
  sweepInterval : UInt64 := 60000
  /-- Whether the cache listener of the node asks for values. -/
  includeValues : Bool := true
  listenerName : String := "directed-presence-listener"
deriving DecidableEq, Repr

inductive SettingsError where
  | blankCacheName
  | zeroSweepInterval
  | blankListenerName
deriving DecidableEq, Repr

namespace SettingsError

def field : SettingsError → String
  | .blankCacheName => "cache_name"
  | .zeroSweepInterval => "sweep_interval_ms"
  | .blankListenerName => "listener_name"

def reason : SettingsError → String
  | .blankCacheName | .blankListenerName => "must not be empty"
  | .zeroSweepInterval => "must be greater than zero"

def message (e : SettingsError) : String :=
  "invalid value for `" ++ e.field ++ "`: " ++ e.reason

end SettingsError

namespace Settings

/-- Accepts the settings, or reports the first that must be refused. -/
def validate (s : Settings) : Except SettingsError Settings :=
  if Text.isBlankText s.cacheName then .error .blankCacheName
  else if s.sweepInterval = 0 then .error .zeroSweepInterval
  else if Text.isBlankText s.listenerName then .error .blankListenerName
  else .ok s

/-- The settings with another sweep interval. What is below a millisecond is dropped, and an
interval beyond the greatest word becomes the greatest word. -/
def withInterval (s : Settings) (seconds nanoseconds : Nat) : Settings :=
  let milliseconds := (seconds * 1000000000 + nanoseconds) / 1000000
  { s with sweepInterval := (min milliseconds (UInt64.size - 1)).toUInt64 }

def period (s : Settings) : Nat × Nat :=
  (s.sweepInterval.toNat / 1000, s.sweepInterval.toNat % 1000 * 1000000)

def fields : Fields :=
  .field "cache_name" .text (.field "sweep_interval_ms" .word (.field "include_values" .flag
    (.field "listener_name" .text .done)))

instance : Form Settings where
  shape := .record fields
  toValue s := (s.cacheName, s.sweepInterval, s.includeValues, s.listenerName, ())
  ofValue := fun (cacheName, sweepInterval, includeValues, listenerName, ()) =>
    ⟨cacheName, sweepInterval, includeValues, listenerName⟩

instance : LawfulForm Settings := ⟨fun _ => rfl⟩

end Settings

end DirectedPresence
