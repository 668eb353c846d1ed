import SlotCluster.Proofs.Client.Scheduling

/-!
# Schedulers under a clock

A scheduler is watched with a clock that never goes back: when it was activated,
when its task has begun, which ticks the task has seen and when they were due,
and when rounds have begun and ended.  How long rounds last, whether the target
wants them, and how late the task gets to see a tick is open.  An event does one
of a few things to what has been noted, and the notes agree with the task.
-/

namespace SlotCluster
namespace Scheduler

structure Tick where
  due : Nat
  time : Nat
  answer : Owner
  deriving DecidableEq, Repr

def Tick.InTime (tick : Tick) : Prop :=
  tick.time ≤ tick.due + lateness.nanos

/-- A round that is over.  While it lasted, the next tick was due at `next`. -/
structure Span where
  began : Nat
  ended : Nat
  next : Nat
  deriving DecidableEq, Repr

def Span.length (span : Span) : Nat :=
  span.ended - span.began

def Loop.next? : Loop -> Option Nat
  | .waiting due => some due
  | .working next => some next
  | _ => .none

theorem Loop.eq_of_next? {loop : Loop} {next later : Nat}
    (h : loop = .waiting next ∨ loop = .working next ∨ loop = .ended)
    (hlater : loop.next? = some later) : later = next := by
  rcases h with rfl | rfl | rfl <;> cases hlater
  · rfl
  · rfl

structure Timetable where
  course : Course
  now : Nat := 0
  /-- When a call to activate was answered with yes. -/
  activated : Option Nat := none
  /-- When the task has begun to wait for ticks. -/
  begun : Option Nat := none
  ticks : List Tick := []
  /-- The rounds that are over. -/
  rounds : List Span := []
  /-- When the round in progress has begun. -/
  running : Option Nat := none
  deriving DecidableEq, Repr

def Event.IsAt (moment : Nat) : Event -> Prop
  | .begin now => now = moment
  | .tick now _ => now = moment
  | _ => True

instance (moment : Nat) (event : Event) : Decidable (event.IsAt moment) := by
  unfold Event.IsAt
  split <;> infer_instance

def Course.tick? (c : Course) (moment : Nat) : Event -> Option Tick
  | .tick _ isWanted =>
      c.scheduler.loop.next?.map (fun due => ⟨due, moment, c.owner isWanted⟩)
  | _ => none

namespace Timetable

def start (period : Duration) : Timetable :=
  { course := Course.start period }

def starts (t : Timetable) : List Nat :=
  t.rounds.map Span.began ++ t.running.toList

def wanted (t : Timetable) : List Nat :=
  (t.ticks.filter (fun tick => tick.answer = .active)).map Tick.time

def span? (t : Timetable) (moment : Nat) : Option Span :=
  t.running.bind (fun began =>
    t.course.scheduler.loop.next?.map (fun next => ⟨began, moment, next⟩))

def note (t : Timetable) (moment : Nat) (event : Event)
    (c : Course) : Timetable :=
  { course := c
    now := moment
    activated :=
      if c.scheduler.isActivated && !t.course.scheduler.isActivated then
        some moment
      else
        t.activated
    begun :=
      if t.course.scheduler.loop = .spawned ∧
          c.scheduler.loop.next?.isSome then
        some moment
      else
        t.begun
    ticks := t.ticks ++ (t.course.tick? moment event).toList
    rounds :=
      if c.scheduler.isWorking then
        t.rounds
      else
        t.rounds ++ (t.span? moment).toList
    running :=
      if c.scheduler.isWorking then some (t.running.getD moment) else none }

def step (t : Timetable) : Nat × Event -> Option Timetable
  | (moment, event) =>
      if t.now ≤ moment ∧ event.IsAt moment then
        (t.course.step event).map (t.note moment event)
      else
        none

def run (t : Timetable) (events : List (Nat × Event)) : Option Timetable :=
  SlotCluster.run step t events

/-- Until this moment the task has let something pass that it could have done:
to begin, or to see a tick for which the timer has gone off. -/
def Lags (t : Timetable) (moment : Nat) : Prop :=
  match t.course.scheduler.loop with
  | .spawned => t.now < moment
  | .waiting due => max t.now (wakeUp due) < moment
  | _ => False

def Prompt (t : Timetable) : List (Nat × Event) -> Prop
  | [] => True
  | (moment, event) :: rest =>
      ¬ t.Lags moment ∧ forall u, t.step (moment, event) = some u ->
        Prompt u rest

variable {t u : Timetable} {moment due next began : Nat}
variable {event : Event} {events : List (Nat × Event)}
variable {c : Course} {period : Duration}

theorem step_eq_some (h : t.step (moment, event) = some u) :
    t.now ≤ moment ∧ event.IsAt moment ∧
      exists c, t.course.step event = some c ∧ u = t.note moment event c := by
  unfold step at h
  rw [Option.ite_none_right_eq_some] at h
  rcases h with ⟨⟨hclock, hat⟩, hmap⟩
  rcases Option.map_eq_some_iff.mp hmap with ⟨c, hc, rfl⟩
  exact ⟨hclock, hat, c, hc, rfl⟩

/-!
## What an event does

An event that leaves the task alone is noted with its moment only.
-/

inductive Moves (t : Timetable) (moment : Nat) : Timetable -> Prop where
  /-- It is not about the task. -/
  | rest (c : Course) (loop : c.scheduler.loop = t.course.scheduler.loop)
      (activated : c.scheduler.isActivated = t.course.scheduler.isActivated) :
      Moves t moment { t with course := c, now := moment }
  | spawned (c : Course) (loop : c.scheduler.loop = .spawned)
      (before : t.course.scheduler.isActivated = false)
      (after : c.scheduler.isActivated = true) :
      Moves t moment
        { t with course := c, now := moment, activated := some moment }
  | begun (c : Course) (was : t.course.scheduler.loop = .spawned)
      (loop : c.scheduler.loop =
        .waiting (moment + t.course.scheduler.period.nanos))
      (activated : c.scheduler.isActivated = t.course.scheduler.isActivated) :
      Moves t moment { t with course := c, now := moment, begun := some moment }
  | idled {due : Nat} (c : Course) (answer : Owner) (vain : answer ≠ .active)
      (was : t.course.scheduler.loop = .waiting due)
      (isDue : wakeUp due ≤ moment)
      (loop : c.scheduler.loop =
        .waiting (t.course.scheduler.nextTick due moment) ∨
        c.scheduler.loop = .ended)
      (activated : c.scheduler.isActivated = t.course.scheduler.isActivated) :
      Moves t moment
        { t with
          course := c
          now := moment
          ticks := t.ticks ++ [⟨due, moment, answer⟩] }
  | started {due : Nat} (c : Course)
      (was : t.course.scheduler.loop = .waiting due)
      (isDue : wakeUp due ≤ moment)
      (loop : c.scheduler.loop =
        .working (t.course.scheduler.nextTick due moment))
      (activated : c.scheduler.isActivated = t.course.scheduler.isActivated) :
      Moves t moment
        { t with
          course := c
          now := moment
          ticks := t.ticks ++ [⟨due, moment, .active⟩]
          running := some moment }
  | finished {next began : Nat} (c : Course)
      (was : t.course.scheduler.loop = .working next)
      (round : t.running = some began) (loop : c.scheduler.loop = .waiting next)
      (activated : c.scheduler.isActivated = t.course.scheduler.isActivated) :
      Moves t moment
        { t with
          course := c
          now := moment
          rounds := t.rounds ++ [⟨began, moment, next⟩]
          running := none }
  /-- The task ends, and the round with it that may be in progress. -/
  | stopped (c : Course)
      (dead : c.scheduler.loop = .none ∨ c.scheduler.loop = .ended)
      (activated : c.scheduler.isActivated = t.course.scheduler.isActivated) :
      Moves t moment
        { t with
          course := c
          now := moment
          rounds := t.rounds ++ (t.span? moment).toList
          running := none }

theorem running_eq_none
    (hworking : t.running.isSome = t.course.scheduler.isWorking)
    (h : t.course.scheduler.isWorking = false) : t.running = none :=
  Option.not_isSome_iff_eq_none.mp (by rw [hworking, h]; decide)

theorem span?_of_idle (h : t.running = none) : t.span? moment = none := by
  rw [span?, h]
  rfl

theorem span?_of_working (hround : t.running = some began)
    (hwas : t.course.scheduler.loop = .working next) :
    t.span? moment = some ⟨began, moment, next⟩ := by
  rw [span?, hround, hwas]
  rfl

theorem moves_rest (hworking : t.running.isSome = t.course.scheduler.isWorking)
    (hloop : c.scheduler.loop = t.course.scheduler.loop)
    (hactivated : c.scheduler.isActivated = t.course.scheduler.isActivated)
    (htick : t.course.tick? moment event = none) :
    t.Moves moment (t.note moment event c) := by
  have hsame : c.scheduler.isWorking = t.running.isSome := by
    rw [hworking]
    unfold isWorking
    rw [hloop]
  have hbegun : ¬ (t.course.scheduler.loop = .spawned ∧
      c.scheduler.loop.next?.isSome = true) := by
    rintro ⟨hspawned, hnext⟩
    rw [hloop, hspawned] at hnext
    cases hnext
  have hnote :
      t.note moment event c = { t with course := c, now := moment } := by
    unfold note
    rw [hactivated, htick, hsame, Bool.and_not_self, if_neg hbegun]
    cases hrunning : t.running <;> simp [span?_of_idle, hrunning]
  rw [hnote]
  exact Moves.rest c hloop hactivated

theorem moves_stopped
    (hdead : c.scheduler.loop = .none ∨ c.scheduler.loop = .ended)
    (hactivated : c.scheduler.isActivated = t.course.scheduler.isActivated)
    (htick : t.course.tick? moment event = none) :
    t.Moves moment (t.note moment event c) := by
  have hidle : c.scheduler.isWorking = false := by
    unfold isWorking
    rcases hdead with hloop | hloop <;> rw [hloop]
  have hnext : c.scheduler.loop.next? = none := by
    rcases hdead with hloop | hloop <;> rw [hloop] <;> rfl
  have hnote : t.note moment event c =
      { t with
        course := c
        now := moment
        rounds := t.rounds ++ (t.span? moment).toList
        running := none } := by
    simp [note, hactivated, hidle, hnext, htick]
  rw [hnote]
  exact Moves.stopped c hdead hactivated

theorem note_spawned
    (hworking : t.running.isSome = t.course.scheduler.isWorking)
    (hc : t.course.Tracked) {inRuntime : Bool} {answers : List Mark}
    (hbefore : t.course.scheduler.isActivated = false) :
    t.note moment (.activate inRuntime)
        (t.course.move
          { t.course.scheduler with isActivated := true, loop := .spawned }
          answers) =
      { t with
        course := t.course.move
          { t.course.scheduler with isActivated := true, loop := .spawned }
          answers
        now := moment, activated := some moment } := by
  have hnone : t.running = none :=
    running_eq_none hworking (by rw [isWorking, hc.loop_eq_none hbefore])
  simp [note, Course.move, Course.tick?, isWorking, Loop.next?, span?_of_idle,
    hbefore, hnone]

theorem note_begun (hworking : t.running.isSome = t.course.scheduler.isWorking)
    (hwas : t.course.scheduler.loop = .spawned) :
    t.note moment (.begin moment)
        (t.course.move { t.course.scheduler with loop := .waiting due } []) =
      { t with
        course :=
          t.course.move { t.course.scheduler with loop := .waiting due } []
        now := moment, begun := some moment } := by
  have hnone : t.running = none :=
    running_eq_none hworking (by rw [isWorking, hwas])
  simp [note, Course.move, Course.tick?, isWorking, Loop.next?, span?_of_idle,
    hnone, hwas]

theorem moves_of_activate (hc : t.course.Tracked)
    (hworking : t.running.isSome = t.course.scheduler.isWorking)
    {inRuntime : Bool} (h : t.course.step (.activate inRuntime) = some c) :
    c.scheduler.period = t.course.scheduler.period ∧
      t.Moves moment (t.note moment (.activate inRuntime) c) := by
  simp only [Course.step, Option.ite_none_right_eq_some, Option.some.injEq] at h
  rcases h with ⟨_, rfl⟩
  rcases t.course.scheduler.activate_eq inRuntime with
    ⟨hrefused, _⟩ | ⟨haccepted, _, _, hbefore⟩
  · rw [hrefused]
    exact ⟨rfl, moves_rest hworking rfl rfl rfl⟩
  · rw [haccepted, note_spawned hworking hc hbefore]
    exact ⟨rfl, Moves.spawned _ rfl hbefore rfl⟩

theorem moves_of_begin
    (hworking : t.running.isSome = t.course.scheduler.isWorking)
    (h : t.course.step (.begin moment) = some c) :
    c.scheduler.period = t.course.scheduler.period ∧
      t.Moves moment (t.note moment (.begin moment) c) := by
  simp only [Course.step, Option.map_eq_some_iff] at h
  rcases h with ⟨s, hs, rfl⟩
  unfold begin at hs
  split at hs
  · rename_i hwas
    split at hs
    · cases hs
      exact ⟨rfl, moves_stopped (Or.inr rfl) rfl rfl⟩
    · cases hs
      rw [note_begun hworking hwas]
      exact ⟨rfl, Moves.begun _ hwas rfl rfl⟩
  · cases hs

theorem note_idled (hworking : t.running.isSome = t.course.scheduler.isWorking)
    {isWanted : Bool} {answer : Owner} {loop : Loop}
    (hwas : t.course.scheduler.loop = .waiting due)
    (howner : t.course.owner isWanted = answer)
    (hidle : isWorking { t.course.scheduler with loop } = false) :
    t.note moment (.tick moment isWanted)
        (t.course.move { t.course.scheduler with loop } []) =
      { t with
        course :=
          t.course.move { t.course.scheduler with loop } [], now := moment
        ticks := t.ticks ++ [⟨due, moment, answer⟩] } := by
  have hnone : t.running = none :=
    running_eq_none hworking (by rw [isWorking, hwas])
  have hover :
      (t.course.move { t.course.scheduler with loop } []).scheduler.isWorking =
        false :=
    hidle
  unfold note
  rw [hover, hnone, Course.tick?, howner, hwas]
  simp [Course.move, Loop.next?, span?_of_idle, hnone]

theorem note_started
    (hworking : t.running.isSome = t.course.scheduler.isWorking)
    {isWanted : Bool} (hwas : t.course.scheduler.loop = .waiting due)
    (howner : t.course.owner isWanted = .active) :
    t.note moment (.tick moment isWanted)
        (t.course.move { t.course.scheduler with loop := .working next } []) =
      { t with
        course :=
          t.course.move { t.course.scheduler with loop := .working next } []
        now := moment, ticks := t.ticks ++ [⟨due, moment, .active⟩]
        running := some moment } := by
  have hnone : t.running = none :=
    running_eq_none hworking (by rw [isWorking, hwas])
  simp [note, Course.move, Course.tick?, isWorking, Loop.next?, hnone,
    howner, hwas]

theorem note_finished (hround : t.running = some began)
    (hwas : t.course.scheduler.loop = .working next) :
    t.note moment .finish
        (t.course.move { t.course.scheduler with loop := .waiting next } []) =
      { t with
        course :=
          t.course.move { t.course.scheduler with loop := .waiting next } []
        now := moment, rounds := t.rounds ++ [⟨began, moment, next⟩]
        running := none } := by
  simp [note, Course.move, Course.tick?, isWorking, hwas,
    span?_of_working hround hwas]

theorem moves_of_tick
    (hworking : t.running.isSome = t.course.scheduler.isWorking)
    {isWanted : Bool} (h : t.course.step (.tick moment isWanted) = some c) :
    c.scheduler.period = t.course.scheduler.period ∧
      t.Moves moment (t.note moment (.tick moment isWanted) c) := by
  simp only [Course.step, Option.map_eq_some_iff] at h
  rcases h with ⟨s, hs, rfl⟩
  unfold Scheduler.tick at hs
  split at hs
  · rename_i due hwas
    split at hs
    · rename_i hdue
      split at hs
      · rename_i howner
        cases hs
        rw [note_idled hworking hwas howner rfl]
        exact ⟨rfl, Moves.idled _ .gone (by decide) hwas hdue (Or.inr rfl) rfl⟩
      · rename_i howner
        cases hs
        rw [note_idled hworking hwas howner rfl]
        exact ⟨rfl, Moves.idled _ .idle (by decide) hwas hdue (Or.inl rfl) rfl⟩
      · rename_i howner
        cases hs
        rw [note_started hworking hwas howner]
        exact ⟨rfl, Moves.started _ hwas hdue rfl rfl⟩
    · cases hs
  · cases hs

theorem moves_of_finish
    (hworking : t.running.isSome = t.course.scheduler.isWorking)
    (h : t.course.step .finish = some c) :
    c.scheduler.period = t.course.scheduler.period ∧
      t.Moves moment (t.note moment .finish c) := by
  simp only [Course.step, Option.map_eq_some_iff] at h
  rcases h with ⟨s, hs, rfl⟩
  unfold Scheduler.finish at hs
  split at hs
  · rename_i next hwas
    cases hs
    obtain ⟨began, hbegan⟩ : exists began, t.running = some began := by
      rw [← Option.isSome_iff_exists, hworking, isWorking, hwas]
    rw [note_finished hbegan hwas]
    exact ⟨rfl, Moves.finished _ hwas hbegan rfl rfl⟩
  · cases hs

theorem moves_of_step (hc : t.course.Tracked)
    (hworking : t.running.isSome = t.course.scheduler.isWorking)
    (h : t.step (moment, event) = some u) :
    t.now ≤ moment ∧ u.course.scheduler.period = t.course.scheduler.period ∧
      t.Moves moment u := by
  rcases step_eq_some h with ⟨hclock, hat, c, hstep, rfl⟩
  refine ⟨hclock, ?_⟩
  cases event with
  | activate inRuntime => exact moves_of_activate hc hworking hstep
  | cancel =>
      simp only [Course.step, Option.ite_none_right_eq_some,
        Option.some.injEq] at hstep
      rcases hstep with ⟨_, rfl⟩
      exact ⟨rfl, moves_stopped (Or.inl rfl) rfl rfl⟩
  | dropScheduler =>
      simp only [Course.step, Option.ite_none_right_eq_some,
        Option.some.injEq] at hstep
      rcases hstep with ⟨_, rfl⟩
      exact ⟨rfl, moves_stopped (Or.inl rfl) rfl rfl⟩
  | dropTarget =>
      cases hstep
      exact ⟨rfl, moves_rest hworking rfl rfl rfl⟩
  | begin now =>
      cases hat
      exact moves_of_begin hworking hstep
  | tick now isWanted =>
      cases hat
      exact moves_of_tick hworking hstep
  | finish => exact moves_of_finish hworking hstep

/-! ## What a timetable tells of the task -/

structure Kept (t : Timetable) (period : Duration) : Prop where
  tracked : t.course.Tracked
  period_eq : t.course.scheduler.period = period
  working : t.running.isSome = t.course.scheduler.isWorking
  activated : t.activated.isSome = t.course.scheduler.isActivated
  past : forall first, t.activated = some first -> first ≤ t.now
  begun : forall first, t.begun = some first ->
    exists called, t.activated = some called ∧ called ≤ first

theorem kept_start (period : Duration) : (start period).Kept period where
  tracked := Course.tracked_start period
  period_eq := rfl
  working := rfl
  activated := rfl
  past := nofun
  begun := nofun

theorem Kept.first (h : t.Kept period)
    (hloop : t.course.scheduler.loop ≠ .none) :
    exists first, t.activated = some first := by
  rw [← Option.isSome_iff_exists, h.activated]
  exact (h.tracked.task hloop).1

theorem Kept.activated_eq_none (h : t.Kept period)
    (hbefore : t.course.scheduler.isActivated = false) : t.activated = none :=
  Option.not_isSome_iff_eq_none.mp (by rw [h.activated, hbefore]; decide)

theorem Kept.begun_eq_none (h : t.Kept period)
    (hbefore : t.course.scheduler.isActivated = false) : t.begun = none := by
  rw [Option.eq_none_iff_forall_ne_some]
  intro first hfirst
  rcases h.begun first hfirst with ⟨called, hcalled, _⟩
  rw [h.activated_eq_none hbefore] at hcalled
  cases hcalled

theorem Kept.exists_working (h : t.Kept period)
    (hround : t.running = some began) :
    exists next, t.course.scheduler.loop = .working next := by
  have hworking : t.course.scheduler.isWorking = true := by
    rw [← h.working, hround]
    rfl
  unfold isWorking at hworking
  split at hworking
  · exact ⟨_, ‹_›⟩
  · cases hworking

theorem activated_of_moves (h : t.Kept period) (hmoves : t.Moves moment u) :
    u.activated.isSome = u.course.scheduler.isActivated ∧
      (u.activated = t.activated ∨ t.activated = none ∧
        u.activated = some moment) := by
  cases hmoves with
  | spawned c loop before after =>
      exact ⟨after.symm, Or.inr ⟨h.activated_eq_none before, rfl⟩⟩
  | rest c loop activated =>
      exact ⟨h.activated.trans activated.symm, Or.inl rfl⟩
  | begun c was loop activated =>
      exact ⟨h.activated.trans activated.symm, Or.inl rfl⟩
  | idled c answer vain was isDue loop activated =>
      exact ⟨h.activated.trans activated.symm, Or.inl rfl⟩
  | started c was isDue loop activated =>
      exact ⟨h.activated.trans activated.symm, Or.inl rfl⟩
  | finished c was round loop activated =>
      exact ⟨h.activated.trans activated.symm, Or.inl rfl⟩
  | stopped c dead activated =>
      exact ⟨h.activated.trans activated.symm, Or.inl rfl⟩

theorem begun_of_moves (h : t.Kept period) (hclock : t.now ≤ moment)
    (hmoves : t.Moves moment u) :
    forall first, u.begun = some first ->
      exists called, u.activated = some called ∧ called ≤ first := by
  cases hmoves with
  | spawned c loop before after =>
      show forall first, t.begun = some first -> _
      rw [h.begun_eq_none before]
      exact nofun
  | begun c was loop activated =>
      intro first hfirst
      cases hfirst
      rcases h.first (by rw [was]; exact nofun) with ⟨called, hcalled⟩
      exact ⟨called, hcalled, Nat.le_trans (h.past called hcalled) hclock⟩
  | rest c loop activated => exact h.begun
  | idled c answer vain was isDue loop activated => exact h.begun
  | started c was isDue loop activated => exact h.begun
  | finished c was round loop activated => exact h.begun
  | stopped c dead activated => exact h.begun

theorem working_of_moves (h : t.Kept period) (hmoves : t.Moves moment u) :
    u.running.isSome = u.course.scheduler.isWorking := by
  cases hmoves with
  | rest c loop activated =>
      show t.running.isSome = isWorking c.scheduler
      rw [h.working, isWorking, isWorking, loop]
  | spawned c loop before after =>
      show t.running.isSome = isWorking c.scheduler
      rw [h.working, isWorking, h.tracked.loop_eq_none before, isWorking, loop]
  | begun c was loop activated =>
      show t.running.isSome = isWorking c.scheduler
      rw [h.working, isWorking, was, isWorking, loop]
  | idled c answer vain was isDue loop activated =>
      show t.running.isSome = isWorking c.scheduler
      rw [h.working, isWorking, was]
      rcases loop with hloop | hloop <;> rw [isWorking, hloop]
  | started c was isDue loop activated =>
      show true = isWorking c.scheduler
      rw [isWorking, loop]
  | finished c was round loop activated =>
      show false = isWorking c.scheduler
      rw [isWorking, loop]
  | stopped c dead activated =>
      show false = isWorking c.scheduler
      rcases dead with hloop | hloop <;> rw [isWorking, hloop]

theorem kept_of_step (h : t.Kept period)
    (hstep : t.step (moment, event) = some u) :
    u.Kept period ∧ t.now ≤ moment ∧ t.Moves moment u := by
  rcases moves_of_step h.tracked h.working hstep with ⟨hclock, hperiod, hmoves⟩
  rcases step_eq_some hstep with ⟨_, _, c, hc, rfl⟩
  rcases activated_of_moves h hmoves with ⟨hactivated, hfirst⟩
  refine ⟨?_, hclock, hmoves⟩
  constructor
  case tracked =>
    exact Course.tracked_of_moves h.tracked (Course.moves_of_step h.tracked hc)
  case period_eq => exact hperiod.trans h.period_eq
  case working => exact working_of_moves h hmoves
  case activated => exact hactivated
  case past =>
    intro first hnow
    rcases hfirst with hsame | ⟨_, hnew⟩
    · rw [hsame] at hnow
      exact Nat.le_trans (h.past first hnow) hclock
    · rw [hnew] at hnow
      cases hnow
      exact Nat.le_refl moment
  case begun => exact begun_of_moves h hclock hmoves

end Timetable

end Scheduler
end SlotCluster
