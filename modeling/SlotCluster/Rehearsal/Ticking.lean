import SlotCluster.Client.Scheduler

/-!
# Rehearsing the scheduler

One scheduler and one owner that records its rounds.  The owner can be switched
off, its rounds can be made to last, and both the scheduler and the owner can be
dropped.  A running round keeps a dropped owner alive until its end, but nothing
can be done to the owner any more.
-/

namespace SlotCluster
namespace Rehearsal

/-- What the owner of the recurring task has recorded. -/
structure Record where
  /-- The times at which rounds have begun. -/
  begun : List Nat := []
  /-- How many rounds have ended. -/
  ended : Nat := 0
  deriving DecidableEq, Repr

/-- A scheduler with its owner and a clock. -/
structure Ticking where
  scheduler : Option Scheduler
  now : Nat := 0
  isActive : Bool := true
  /-- How long rounds last. -/
  delay : Nat := 0
  /-- Whether somebody holds the owner. -/
  isHeld : Bool := true
  record : Record := {}
  /-- The record when it was last seen. -/
  seen : Record := {}
  /-- When the running round ends. -/
  roundEnd : Option Nat := none
  deriving Repr

/-- What can be done to a scheduler and its owner. -/
inductive TickingStep where
  | activate
  | sleep (millis : Nat)
  | set (isActive : Option Bool) (delay : Option Nat)
  | cancel
  | dropOwner
  | dropScheduler

namespace Ticking

def isAlive (t : Ticking) : Bool :=
  t.isHeld || t.roundEnd.isSome

/-- What the recurring task finds when it looks for its owner. -/
def owner (t : Ticking) : Scheduler.Owner :=
  if !t.isHeld then .gone else if t.isActive then .active else .idle

/-- The ticking after its scheduler has changed.  A round goes on only while the
task is working. -/
def withScheduler (t : Ticking) (s : Scheduler) : Ticking :=
  { t with
    scheduler := some s
    roundEnd := if s.isWorking then t.roundEnd else none }

def moment (t : Ticking) : Nat :=
  (Duration.ofMillis t.now).nanos

def act (t : Ticking) : Option Ticking :=
  match t.scheduler with
  | none => none
  | some s =>
      match s.begin t.moment with
      | some s => some (t.withScheduler s)
      | none =>
          match s.tick t.moment t.owner with
          | some s =>
              let t :=
                if s.isWorking then
                  { t with
                    record :=
                      { t.record with begun := t.record.begun ++ [t.now] }
                    roundEnd := some (t.now + t.delay) }
                else
                  t
              some (t.withScheduler s)
          | none =>
              match t.roundEnd, s.finish with
              | some finish, some s =>
                  if finish ≤ t.now then
                    some ({ t with
                      record :=
                        { t.record with
                          ended := t.record.ended + 1 } }.withScheduler s)
                  else
                    none
              | _, _ => none

/-- Do what is due, and let time pass up to a moment.  Things that are due at
one moment are few. -/
def passTo (moment : Nat) : Nat -> Ticking -> Ticking
  | 0, t => t
  | fuel + 1, t =>
      match t.act with
      | some t => passTo moment fuel t
      | none =>
          let dues :=
            t.roundEnd.toList ++ (t.scheduler.bind Scheduler.nextDue?).toList
          match (dues.filter (fun d => t.now < d && d ≤ moment)).min? with
          | some next => passTo moment fuel { t with now := next }
          | none => { t with now := moment }

def patience (millis : Nat) : Nat :=
  4 * (millis + 4)

def look (t : Ticking) : Ticking :=
  if t.isAlive then { t with seen := t.record } else t

def perform (t : Ticking) : TickingStep -> Ticking × Option Bool
  | .activate =>
      match t.scheduler with
      | some s =>
          if t.isHeld then
            let (s, started) := s.activate true
            ((passTo t.now (patience 0) (t.withScheduler s)).look, some started)
          else
            (t.look, none)
      | none => (t.look, none)
  | .sleep millis => ((passTo (t.now + millis) (patience millis) t).look, none)
  | .set isActive delay =>
      if t.isHeld then
        ({ t with
          isActive := isActive.getD t.isActive
          delay := delay.getD t.delay }.look, none)
      else
        (t.look, none)
  | .cancel =>
      match t.scheduler with
      | some s => ((t.withScheduler s.cancel).look, none)
      | none => (t.look, none)
  | .dropOwner => ({ t.look with isHeld := false }.look, none)
  | .dropScheduler =>
      ({ t.look with scheduler := none, roundEnd := none }.look, none)

end Ticking
end Rehearsal
end SlotCluster
