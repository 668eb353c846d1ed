/-!
# Durations

A span of time in whole nanoseconds.  Settings are given in seconds or
milliseconds.  Timers count milliseconds: a part of a millisecond counts as a
whole one when a timer waits for it.
-/

namespace SlotCluster

/-- A span of time. -/
structure Duration where
  nanos : Nat
  deriving DecidableEq, Repr, Inhabited

namespace Duration

def nanosPerSecond : Nat := 1000000000

def nanosPerMilli : Nat := 1000000

def ofMillis (n : Nat) : Duration :=
  ⟨n * nanosPerMilli⟩

def ofSeconds (n : Nat) : Duration :=
  ⟨n * nanosPerSecond⟩

def toMillis (d : Duration) : Nat :=
  d.nanos / nanosPerMilli

/-- How many milliseconds a timer waits for a duration to pass. -/
def ticks (d : Duration) : Nat :=
  (d.nanos + (nanosPerMilli - 1)) / nanosPerMilli

def seconds (d : Duration) : Nat :=
  d.nanos / nanosPerSecond

def subsecond (d : Duration) : Nat :=
  d.nanos % nanosPerSecond

end Duration
end SlotCluster
