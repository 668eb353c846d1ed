import SlotCluster.Address.Duration

/-!
# The refresh scheduler

A scheduler starts one recurring task and never a second one.  The task starts a
round whenever a period has passed and its owner wants one.  Rounds do not
overlap: the next one waits for the end of the last.

Moments are counted in nanoseconds since the clock began.  Ticks are due one
period apart.  A tick that comes more than the tolerance too late does not make
the later ones crowd: the next one is due a whole period after it.  The timer
that wakes the task goes off on whole milliseconds, so a tick may be seen a part
of a millisecond after it was due; this moves none of the later ones.
-/

namespace SlotCluster

/-- How late a tick may come before the later ones are moved. -/
def lateness : Duration := .ofMillis 5

namespace Scheduler

/-- What the recurring task is doing. -/
inductive Loop where
  /-- There is no task. -/
  | none
  /-- The task has been started and has not run yet. -/
  | spawned
  /-- Waits for the tick that is due at a moment. -/
  | waiting (due : Nat)
  /-- Runs a round.  When the next tick is due is known already. -/
  | working (next : Nat)
  /-- Has come to its end. -/
  | ended
  deriving DecidableEq, Repr

/-- What the task finds when it looks for its owner. -/
inductive Owner where
  | gone
  /-- The owner does not want rounds now. -/
  | idle
  | active
  deriving DecidableEq, Repr

end Scheduler

/-- A scheduler of recurring rounds. -/
structure Scheduler where
  period : Duration
  isActivated : Bool := false
  isCancelled : Bool := false
  loop : Scheduler.Loop := .none
  deriving DecidableEq, Repr

namespace Scheduler

/-- Start the recurring task, unless that has happened before or the scheduler
is cancelled.  Outside of a runtime nothing can be started, and the scheduler
stays as it is.  Tells whether a task was started. -/
def activate (s : Scheduler) (inRuntime : Bool) : Scheduler × Bool :=
  if s.isCancelled || s.isActivated || !inRuntime then
    (s, false)
  else
    ({ s with isActivated := true, loop := .spawned }, true)

/-- Let a started task run for the first time: its first tick is due a period
later.  A period of no length ends it. -/
def begin (s : Scheduler) (now : Nat) : Option Scheduler :=
  match s.loop with
  | .spawned =>
      if s.period.nanos = 0 then some { s with loop := .ended }
      else some { s with loop := .waiting (now + s.period.nanos) }
  | _ => none

/-- When the timer goes off for a tick: on the first whole millisecond from the
moment on at which the tick is due. -/
def wakeUp (due : Nat) : Nat :=
  (Duration.ofMillis (Duration.ticks ⟨due⟩)).nanos

/-- When the tick is due after one that was due at `due` and came at `now`. -/
def nextTick (s : Scheduler) (due now : Nat) : Nat :=
  if due + lateness.nanos < now then now + s.period.nanos
  else due + s.period.nanos

/-- Let a tick come for which the timer has gone off.  A round starts exactly
when the task is working afterwards. -/
def tick (s : Scheduler) (now : Nat) (owner : Owner) : Option Scheduler :=
  match s.loop with
  | .waiting due =>
      if wakeUp due ≤ now then
        match owner with
        | .gone => some { s with loop := .ended }
        | .idle => some { s with loop := .waiting (s.nextTick due now) }
        | .active => some { s with loop := .working (s.nextTick due now) }
      else
        none
  | _ => none

def finish (s : Scheduler) : Option Scheduler :=
  match s.loop with
  | .working next => some { s with loop := .waiting next }
  | _ => none

/-- Whether the recurring task exists and has not come to its end. -/
def isRunning (s : Scheduler) : Bool :=
  match s.loop with
  | .none => false
  | .ended => false
  | _ => true

def isWorking (s : Scheduler) : Bool :=
  match s.loop with
  | .working _ => true
  | _ => false

/-- Stop the recurring task for good, with the round that it may be running.
Callers are outside of the task.  From inside of a round a task could not stop
itself at once: that round would go on until it waits for something. -/
def cancel (s : Scheduler) : Scheduler :=
  { s with isCancelled := true, loop := .none }

def drop (s : Scheduler) : Scheduler :=
  { s with loop := .none }

/-- When the timer goes off next, in whole milliseconds. -/
def nextDue? (s : Scheduler) : Option Nat :=
  match s.loop with
  | .waiting due => some (Duration.ticks ⟨due⟩)
  | _ => none

end Scheduler
end SlotCluster
