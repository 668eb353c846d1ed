import SlotCluster.Rehearsal.Ticking
import SlotCluster.Run

/-!
# One recurring task

A scheduler and its target are called from outside, and the recurring task has
its turns in between: in what order all this happens is open.  What shows of it
is a history of marks.  Every mark is lawful after those before it, and this
alone says that there is one task at most and that it stops for good.

A task that exists was started by the one call that was answered with yes, and
the scheduler has neither been cancelled nor dropped since.  This is what every
event keeps.
-/

namespace SlotCluster
namespace Scheduler

inductive Event where
  | activate (inRuntime : Bool)
  | cancel
  | dropScheduler
  | dropTarget
  /-- The recurring task runs for the first time. -/
  | begin (now : Nat)
  /-- The task sees a tick.  A target that is still there says whether it wants
  a round. -/
  | tick (now : Nat) (isWanted : Bool)
  | finish
  deriving DecidableEq, Repr

inductive Mark where
  /-- A call to activate the scheduler has returned. -/
  | answered (inRuntime answer : Bool)
  | cancelled
  | schedulerDropped
  | targetDropped
  /-- A recurring task has been started. -/
  | spawned
  /-- The task has started a round. -/
  | started
  deriving DecidableEq, Repr

def Mark.isYes : Mark -> Bool
  | answered _ answer => answer
  | _ => false

def changes (s s' : Scheduler) : List Mark :=
  if s'.loop = .spawned ∧ s.loop ≠ .spawned then [.spawned]
  else if s'.isWorking && !s.isWorking then [.started]
  else []

structure Course where
  scheduler : Scheduler
  isHeld : Bool := true
  hasTarget : Bool := true
  history : List Mark := []
  deriving DecidableEq, Repr

namespace Course

def start (period : Duration) : Course :=
  { scheduler := { period } }

def move (c : Course) (s : Scheduler) (call : List Mark) : Course :=
  { c with
    scheduler := s
    history := c.history ++ changes c.scheduler s ++ call }

def owner (c : Course) (isWanted : Bool) : Owner :=
  if !c.hasTarget then .gone else if isWanted then .active else .idle

def step (c : Course) : Event -> Option Course
  | .activate inRuntime =>
      let (s, answer) := c.scheduler.activate inRuntime
      if c.isHeld then some (c.move s [.answered inRuntime answer]) else none
  | .cancel =>
      if c.isHeld then some (c.move c.scheduler.cancel [.cancelled]) else none
  | .dropScheduler =>
      if c.isHeld then
        some { c.move c.scheduler.drop [.schedulerDropped] with
          isHeld := false }
      else
        none
  | .dropTarget =>
      some { c.move c.scheduler [.targetDropped] with hasTarget := false }
  | .begin now => (c.scheduler.begin now).map (fun s => c.move s [])
  | .tick now isWanted =>
      (c.scheduler.tick now (c.owner isWanted)).map (fun s => c.move s [])
  | .finish => c.scheduler.finish.map (fun s => c.move s [])

def run (c : Course) (events : List Event) : Option Course :=
  SlotCluster.run step c events

end Course

variable {period : Duration} {s s' : Scheduler} {c d : Course}
  {events : List Event} {event : Event}

/-!
## Lawful histories

Every mark of a history may follow those in front of it, and what may not
follow itself stands there at most once.
-/

def Mark.Follows (front : List Mark) : Mark -> Prop
  | answered inRuntime answer =>
      answer = true <->
        inRuntime = true ∧ cancelled ∉ front ∧
          forall mark, mark ∈ front -> mark.isYes = false
  | spawned => spawned ∉ front
  | started =>
      cancelled ∉ front ∧ schedulerDropped ∉ front ∧ targetDropped ∉ front
  | _ => True

inductive Lawful : List Mark -> Prop where
  | nil : Lawful []
  | snoc {history : List Mark} {mark : Mark} (front : Lawful history)
      (last : mark.Follows history) : Lawful (history ++ [mark])

namespace Lawful

variable {history front back : List Mark} {mark : Mark}

theorem follows (h : Lawful history)
    (hsplit : history = front ++ mark :: back) : mark.Follows front := by
  induction h generalizing back with
  | nil => cases front <;> cases hsplit
  | @snoc history last hfront hlast ih =>
      rcases List.eq_nil_or_concat back with rfl | ⟨before, final, rfl⟩
      · rcases List.append_inj' hsplit rfl with ⟨rfl, hmark⟩
        cases hmark
        exact hlast
      · rw [List.concat_eq_append, ← List.cons_append,
          ← List.append_assoc] at hsplit
        exact ih (List.append_inj' hsplit rfl).1

theorem countP_le_one {p : Mark -> Bool} (h : Lawful history)
    (honce : forall front mark, mark.Follows front -> p mark = true ->
      forall other, other ∈ front -> p other = false) :
    history.countP p ≤ 1 := by
  induction h with
  | nil => exact Nat.zero_le 1
  | @snoc history last hfront hlast ih =>
      rw [List.countP_append, List.countP_singleton]
      cases hp : p last with
      | false => exact ih
      | true =>
          have hnone : history.countP p = 0 := by
            rw [List.countP_eq_zero]
            intro other hother
            rw [honce history last hlast hp other hother]
            decide
          rw [hnone]
          decide

end Lawful

/-! ## What an event does -/

theorem activate_eq (s : Scheduler) (inRuntime : Bool) :
    (s.activate inRuntime = (s, false) ∧
      (inRuntime = false ∨ s.isCancelled = true ∨ s.isActivated = true)) ∨
      (s.activate inRuntime =
        ({ s with isActivated := true, loop := .spawned }, true) ∧
        inRuntime = true ∧ s.isCancelled = false ∧ s.isActivated = false) := by
  unfold activate
  cases inRuntime <;> cases s.isCancelled <;> cases s.isActivated <;> simp

/-- A turn of the recurring task changes nothing but the task.  It starts a
round only for a target that wants one. -/
inductive Turn (s : Scheduler) : Owner -> Scheduler -> Prop where
  | rest {owner : Owner} (loop : Loop) (running : s.loop ≠ .none)
      (quiet : changes s { s with loop } = []) : Turn s owner { s with loop }
  | round (next : Nat) (running : s.loop ≠ .none)
      (shows : changes s { s with loop := .working next } = [.started]) :
      Turn s .active { s with loop := .working next }

theorem turn_of_begin {now : Nat} (owner : Owner) (h : s.begin now = some s') :
    s.Turn owner s' := by
  unfold begin at h
  split at h
  · rename_i hloop
    split at h
    · cases h
      exact Turn.rest _ (by simp [hloop]) (by simp [changes, isWorking])
    · cases h
      exact Turn.rest _ (by simp [hloop]) (by simp [changes, isWorking])
  · cases h

theorem turn_of_tick {now : Nat} {owner : Owner}
    (h : s.tick now owner = some s') : s.Turn owner s' := by
  unfold tick at h
  split at h
  · rename_i due hloop
    have hrunning : s.loop ≠ .none := by simp [hloop]
    split at h
    · split at h
      · cases h
        exact Turn.rest _ hrunning (by simp [changes, isWorking])
      · cases h
        exact Turn.rest _ hrunning (by simp [changes, isWorking])
      · cases h
        exact Turn.round _ hrunning (by simp [changes, isWorking, hloop])
    · cases h
  · cases h

theorem turn_of_finish (owner : Owner) (h : s.finish = some s') :
    s.Turn owner s' := by
  unfold finish at h
  split at h
  · rename_i next hloop
    cases h
    exact Turn.rest _ (by simp [hloop]) (by simp [changes, isWorking])
  · cases h

theorem changes_of_spawned (h : s'.loop = .spawned)
    (hbefore : s.loop ≠ .spawned) : changes s s' = [.spawned] :=
  if_pos ⟨h, hbefore⟩

theorem changes_self (s : Scheduler) : changes s s = [] := by
  unfold changes
  cases s.isWorking <;> simp

theorem changes_of_none (h : s'.loop = .none) : changes s s' = [] := by
  unfold changes isWorking
  simp [h]

theorem isWorking_of_begin {now : Nat} (h : s.begin now = some s') :
    s'.isWorking = false := by
  unfold begin at h
  split at h
  · split at h <;> cases h <;> rfl
  · cases h

theorem isWorking_of_tick {now : Nat} {owner : Owner}
    (h : s.tick now owner = some s') : s.isWorking = false := by
  unfold tick at h
  split at h
  · rename_i due hloop
    simp [isWorking, hloop]
  · cases h

theorem isWorking_of_finish (h : s.finish = some s') :
    s'.isWorking = false := by
  unfold finish at h
  split at h
  · cases h
    rfl
  · cases h

namespace Course

/-- The history tells in what state the scheduler is. -/
structure Tracked (c : Course) : Prop where
  cancelled : c.scheduler.isCancelled = true <-> Mark.cancelled ∈ c.history
  activated : c.scheduler.isActivated = true <->
    exists mark, mark ∈ c.history ∧ mark.isYes = true
  spawned : Mark.spawned ∈ c.history -> c.scheduler.isActivated = true
  held : c.isHeld = true <-> Mark.schedulerDropped ∉ c.history
  target : c.hasTarget = true <-> Mark.targetDropped ∉ c.history
  task : c.scheduler.loop ≠ .none ->
    c.scheduler.isActivated = true ∧ c.scheduler.isCancelled = false ∧
      c.isHeld = true
  lawful : Lawful c.history

inductive Moves (c : Course) : Course -> Prop where
  | refused {inRuntime : Bool} (held : c.isHeld = true)
      (why : inRuntime = false ∨ c.scheduler.isCancelled = true ∨
        c.scheduler.isActivated = true) :
      Moves c { c with history := c.history ++ [.answered inRuntime false] }
  | accepted (held : c.isHeld = true)
      (uncancelled : c.scheduler.isCancelled = false)
      (unactivated : c.scheduler.isActivated = false) : Moves c { c with
          scheduler :=
            { c.scheduler with isActivated := true, loop := .spawned }
          history := c.history ++ [.spawned] ++ [.answered true true] }
  | cancelled (held : c.isHeld = true) :
      Moves c { c with
        scheduler := c.scheduler.cancel, history := c.history ++ [.cancelled] }
  | schedulerDropped (held : c.isHeld = true) :
      Moves c { c with
        scheduler := c.scheduler.drop
        isHeld := false
        history := c.history ++ [.schedulerDropped] }
  | targetDropped :
      Moves c { c with
        hasTarget := false, history := c.history ++ [.targetDropped] }
  | rest (loop : Loop) (running : c.scheduler.loop ≠ .none) :
      Moves c { c with scheduler := { c.scheduler with loop } }
  | round (next : Nat) (running : c.scheduler.loop ≠ .none)
      (wanted : c.hasTarget = true) :
      Moves c { c with
        scheduler := { c.scheduler with loop := .working next }
        history := c.history ++ [.started] }

theorem hasTarget_of_active {isWanted : Bool} (h : c.owner isWanted = .active) :
    c.hasTarget = true := by
  unfold owner at h
  split at h
  · cases h
  · rename_i htarget
    simpa using htarget

theorem moves_of_turn {owner : Owner} (h : c.scheduler.Turn owner s)
    (hwanted : owner = .active -> c.hasTarget = true) :
    c.Moves (c.move s []) := by
  cases h with
  | rest loop running quiet =>
      unfold move
      rw [quiet, List.append_nil, List.append_nil]
      exact Moves.rest loop running
  | round next running shows =>
      unfold move
      rw [shows, List.append_nil]
      exact Moves.round next running (hwanted rfl)

theorem Tracked.loop_eq_none (hc : c.Tracked)
    (h : c.scheduler.isActivated = false) : c.scheduler.loop = .none := by
  apply Decidable.byContradiction
  intro hloop
  have hactivated := (hc.task hloop).1
  rw [h] at hactivated
  cases hactivated

theorem moves_of_step (hc : c.Tracked)
    (h : c.step event = some d) : c.Moves d := by
  cases event with
  | activate inRuntime =>
      simp only [step, Option.ite_none_right_eq_some, Option.some.injEq] at h
      rcases h with ⟨hheld, rfl⟩
      unfold move
      rcases c.scheduler.activate_eq inRuntime with ⟨hrefused, hwhy⟩ |
        ⟨haccepted, rfl, huncancelled, hunactivated⟩
      · rw [hrefused, changes_self, List.append_nil]
        exact Moves.refused hheld hwhy
      · rw [haccepted,
          changes_of_spawned rfl (by simp [hc.loop_eq_none hunactivated])]
        exact Moves.accepted hheld huncancelled hunactivated
  | cancel =>
      simp only [step, Option.ite_none_right_eq_some, Option.some.injEq] at h
      rcases h with ⟨hheld, rfl⟩
      unfold move
      rw [changes_of_none rfl, List.append_nil]
      exact Moves.cancelled hheld
  | dropScheduler =>
      simp only [step, Option.ite_none_right_eq_some, Option.some.injEq] at h
      rcases h with ⟨hheld, rfl⟩
      unfold move
      rw [changes_of_none rfl, List.append_nil]
      exact Moves.schedulerDropped hheld
  | dropTarget =>
      cases h
      unfold move
      rw [changes_self, List.append_nil]
      exact Moves.targetDropped
  | begin now =>
      rcases Option.map_eq_some_iff.mp h with ⟨s, hs, rfl⟩
      exact moves_of_turn (turn_of_begin .gone hs) nofun
  | tick now isWanted =>
      rcases Option.map_eq_some_iff.mp h with ⟨s, hs, rfl⟩
      exact moves_of_turn (turn_of_tick hs) hasTarget_of_active
  | finish =>
      rcases Option.map_eq_some_iff.mp h with ⟨s, hs, rfl⟩
      exact moves_of_turn (turn_of_finish .gone hs) nofun

theorem step_activate (h : c.isHeld = true) (inRuntime : Bool) :
    c.step (.activate inRuntime) =
      some (c.move (c.scheduler.activate inRuntime).1
        [.answered inRuntime (c.scheduler.activate inRuntime).2]) :=
  if_pos h

theorem Tracked.all_no (hc : c.Tracked) (h : c.scheduler.isActivated = false) :
    forall mark, mark ∈ c.history -> mark.isYes = false := by
  intro mark hmark
  rw [← Bool.not_eq_true]
  intro hyes
  rw [hc.activated.mpr ⟨mark, hmark, hyes⟩] at h
  cases h

/-! ## Runs -/

theorem tracked_start (period : Duration) : (start period).Tracked where
  cancelled := by simp [start]
  activated := by simp [start]
  spawned := by simp [start]
  held := by simp [start]
  target := by simp [start]
  task := by simp [start]
  lawful := Lawful.nil

theorem tracked_of_moves (hc : c.Tracked) (h : c.Moves d) : d.Tracked := by
  cases h with
  | @refused inRuntime held why =>
      constructor
      case lawful =>
        refine hc.lawful.snoc ⟨nofun, ?_⟩
        intro h
        rcases h with ⟨rfl, huncancelled, hno⟩
        rcases why with hruntime | hcancelled | hactivated
        · cases hruntime
        · exact absurd (hc.cancelled.mp hcancelled) huncancelled
        · rcases hc.activated.mp hactivated with ⟨mark, hmark, hyes⟩
          rw [hno mark hmark] at hyes
          exact hyes
      case task => exact hc.task
      case spawned => simpa using hc.spawned
      all_goals simp [hc.cancelled, hc.activated, hc.held, hc.target,
        or_and_right, exists_or, Mark.isYes]
  | accepted held uncancelled unactivated =>
      have hunspawned : Mark.spawned.Follows c.history := by
        intro h
        rw [hc.spawned h] at unactivated
        cases unactivated
      constructor
      case lawful =>
        refine (hc.lawful.snoc hunspawned).snoc
          ⟨fun _ => ⟨rfl, ?_, ?_⟩, fun _ => rfl⟩
        · simp [← hc.cancelled, uncancelled]
        · simpa [or_imp, forall_and, Mark.isYes] using hc.all_no unactivated
      case task => exact fun _ => ⟨rfl, uncancelled, held⟩
      case activated => simp [or_and_right, exists_or, Mark.isYes]
      case spawned => exact fun _ => rfl
      all_goals simp [hc.cancelled, hc.held, hc.target]
  | cancelled held =>
      constructor
      case lawful => exact hc.lawful.snoc trivial
      case task => exact fun h => absurd rfl h
      case spawned => simpa [cancel] using hc.spawned
      all_goals simp [cancel, hc.activated, hc.held, hc.target, or_and_right,
        exists_or, Mark.isYes]
  | schedulerDropped held =>
      constructor
      case lawful => exact hc.lawful.snoc trivial
      case task => exact fun h => absurd rfl h
      case spawned => simpa [drop] using hc.spawned
      all_goals simp [drop, hc.cancelled, hc.activated, hc.target, or_and_right,
        exists_or, Mark.isYes]
  | targetDropped =>
      constructor
      case lawful => exact hc.lawful.snoc trivial
      case task => exact hc.task
      case spawned => simpa using hc.spawned
      all_goals simp [hc.cancelled, hc.activated, hc.held, or_and_right,
        exists_or, Mark.isYes]
  | rest loop running =>
      exact ⟨hc.cancelled, hc.activated, hc.spawned, hc.held, hc.target,
        fun _ => hc.task running, hc.lawful⟩
  | round next running wanted =>
      rcases hc.task running with ⟨hactivated, huncancelled, hheld⟩
      constructor
      case lawful =>
        refine hc.lawful.snoc ⟨?_, hc.held.mp hheld, hc.target.mp wanted⟩
        rw [← hc.cancelled, huncancelled]
        decide
      case task => exact fun _ => ⟨hactivated, huncancelled, hheld⟩
      case spawned => simpa using hc.spawned
      all_goals simp [hc.cancelled, hc.activated, hc.held, hc.target,
        or_and_right, exists_or, Mark.isYes]

theorem tracked_of_run (hc : c.Tracked)
    (h : c.run events = some d) : d.Tracked :=
  run_keeps h hc (fun hb hstep => tracked_of_moves hb (moves_of_step hb hstep))

/-- In whatever order a scheduler and its target are called and the task has its
turns, one call to activate is answered with yes at most, and one task is
spawned at most.  A call is answered with yes exactly if it is made inside of a
runtime, the scheduler has not been cancelled and no call before it was answered
so; those that were made outside do not count.  No round starts once the
scheduler has been cancelled or dropped, or its target has been dropped. -/
theorem one_task_of_run (h : (start period).run events = some c) :
    c.history.countP Mark.isYes ≤ 1 ∧ c.history.count .spawned ≤ 1 ∧
      (forall front back inRuntime answer,
        c.history = front ++ .answered inRuntime answer :: back ->
        (answer = true <->
          inRuntime = true ∧ .cancelled ∉ front ∧
            forall mark, mark ∈ front -> mark.isYes = false)) ∧
      (forall front back, c.history = front ++ .started :: back ->
        .cancelled ∉ front ∧ .schedulerDropped ∉ front ∧
          .targetDropped ∉ front) := by
  have hlawful := (tracked_of_run (tracked_start period) h).lawful
  refine ⟨?_, ?_, ?_, ?_⟩
  · apply hlawful.countP_le_one
    intro front mark hfollows hyes
    cases mark with
    | answered inRuntime answer => exact (hfollows.mp hyes).2.2
    | _ => cases hyes
  · apply hlawful.countP_le_one
    intro front mark hfollows hspawned other hother
    rw [eq_of_beq hspawned] at hfollows
    rw [beq_eq_false_iff_ne]
    rintro rfl
    exact hfollows hother
  · intro front back inRuntime answer hsplit
    exact hlawful.follows hsplit
  · intro front back hsplit
    exact hlawful.follows hsplit

/-- A call outside of a runtime comes before the one that starts the task, and
the scheduler is cancelled while the task is in its second round. -/
theorem one_task_of_run_cancelled :
    exists c, (start (.ofSeconds 1)).run
        [.activate false, .activate true, .begin 0, .tick 1000000000 true,
          .activate true, .finish, .tick 2000000000 true,
          .cancel, .activate true, .dropScheduler] = some c ∧
      c.history =
        [.answered false false, .spawned, .answered true true, .started,
          .answered true false, .started,
          .cancelled, .answered true false, .schedulerDropped] ∧
      c.history.countP Mark.isYes ≤ 1 ∧ c.history.count .spawned ≤ 1 := by
  have hrun : (start (.ofSeconds 1)).run
        [.activate false, .activate true, .begin 0, .tick 1000000000 true,
          .activate true, .finish, .tick 2000000000 true,
          .cancel, .activate true, .dropScheduler] = some
      { scheduler :=
          { period := .ofSeconds 1, isActivated := true, isCancelled := true }
        isHeld := false
        history :=
          [.answered false false, .spawned, .answered true true, .started,
            .answered true false, .started, .cancelled, .answered true false,
            .schedulerDropped] } := by decide
  rcases one_task_of_run hrun with ⟨hyes, hspawned, _, _⟩
  exact ⟨_, hrun, rfl, hyes, hspawned⟩

end Course
end Scheduler

/-!
## Rehearsals

A rehearsal calls a scheduler in a given order and records the rounds that
begin.  Each of its steps leads the course on by some events.
-/

namespace Rehearsal
namespace Ticking

open Scheduler (Course Event)

structure Shows (t : Ticking) (c : Course) : Prop where
  scheduler : t.scheduler = if c.isHeld then some c.scheduler else none
  target : t.isHeld = c.hasTarget
  rounds : t.record.begun.length = c.history.count .started

def Follows (t : Ticking) (c : Course) : Prop :=
  exists events d, c.run events = some d ∧ t.Shows d

variable {t u : Ticking} {c d : Course} {s s' : Scheduler}

theorem count_changes (s s' : Scheduler) :
    (Scheduler.changes s s').count .started =
      if s'.isWorking && !s.isWorking then 1 else 0 := by
  unfold Scheduler.changes
  split
  · rename_i h
    simp [Scheduler.isWorking, h.1]
  · split <;> rfl

theorem count_move (c : Course) (s : Scheduler) {call : List Scheduler.Mark}
    (hcall : call.count .started = 0) :
    (c.move s call).history.count .started = c.history.count .started +
      if s.isWorking && !c.scheduler.isWorking then 1 else 0 := by
  unfold Course.move
  rw [List.count_append, List.count_append, count_changes, hcall, Nat.add_zero]

theorem Follows.refl (h : t.Shows c) : t.Follows c :=
  ⟨[], c, rfl, h⟩

theorem Follows.step {event : Event} (hd : c.step event = some d)
    (h : t.Follows d) : t.Follows c := by
  rcases h with ⟨events, e, he, hshows⟩
  exact ⟨event :: events, e, run_cons.mpr ⟨d, hd, he⟩, hshows⟩

theorem isHeld_of_scheduler (h : t.Shows c) (hs : t.scheduler = some s) :
    c.isHeld = true ∧ c.scheduler = s := by
  rw [h.scheduler, Option.ite_none_right_eq_some, Option.some.injEq] at hs
  exact hs

theorem shows_move (h : t.Shows c) (hheld : c.isHeld = true)
    {call : List Scheduler.Mark} (hcall : call.count .started = 0)
    {record : Record}
    (hrecord : record.begun.length = t.record.begun.length +
      if s.isWorking && !c.scheduler.isWorking then 1 else 0)
    {roundEnd : Option Nat} :
    ({ t with record, roundEnd }.withScheduler s).Shows (c.move s call) := by
  constructor
  · simp [withScheduler, Course.move, hheld]
  · exact h.target
  · rw [count_move c s hcall, ← h.rounds]
    exact hrecord

/-- What is due in a rehearsal is a turn of the recurring task. -/
theorem act_follows (h : t.Shows c) (hact : t.act = some u) :
    exists event d, c.step event = some d ∧ u.Shows d := by
  unfold act at hact
  split at hact
  · cases hact
  · rename_i s hs
    rcases isHeld_of_scheduler h hs with ⟨hheld, rfl⟩
    split at hact
    · rename_i s' hbegin
      cases hact
      refine ⟨.begin t.moment, _, congrArg (Option.map _) hbegin,
        shows_move h hheld rfl ?_⟩
      rw [Scheduler.isWorking_of_begin hbegin]
      rfl
    · split at hact
      · rename_i s' htick
        cases hact
        have howner : t.owner = c.owner t.isActive := by
          rw [owner, h.target]; rfl
        rw [howner] at htick
        refine ⟨.tick t.moment t.isActive, _, congrArg (Option.map _) htick, ?_⟩
        cases hworking : s'.isWorking with
        | true =>
            refine shows_move h hheld rfl ?_
            rw [hworking, Scheduler.isWorking_of_tick htick]
            exact List.length_append
        | false =>
            refine shows_move h hheld rfl ?_
            rw [hworking]
            rfl
      · split at hact
        · rename_i finish s' hend hfinish
          split at hact
          · cases hact
            refine ⟨.finish, _, congrArg (Option.map _) hfinish,
              shows_move h hheld rfl ?_⟩
            rw [Scheduler.isWorking_of_finish hfinish]
            rfl
          · cases hact
        · cases hact

theorem passTo_follows (moment fuel : Nat) (h : t.Shows c) :
    (passTo moment fuel t).Follows c := by
  induction fuel generalizing t c with
  | zero => exact Follows.refl h
  | succ fuel ih =>
      rw [passTo]
      split
      · rename_i u hact
        rcases act_follows h hact with ⟨event, d, hd, hshows⟩
        exact Follows.step hd (ih hshows)
      · simp only
        split
        · exact ih ⟨h.scheduler, h.target, h.rounds⟩
        · exact Follows.refl ⟨h.scheduler, h.target, h.rounds⟩

theorem Shows.look (h : t.Shows c) : t.look.Shows c := by
  unfold Ticking.look
  split
  · exact ⟨h.scheduler, h.target, h.rounds⟩
  · exact h

theorem Follows.look (h : t.Follows c) : t.look.Follows c := by
  rcases h with ⟨events, d, hd, hshows⟩
  exact ⟨events, d, hd, hshows.look⟩

theorem perform_follows (h : t.Shows c) (step : TickingStep) :
    (t.perform step).1.Follows c := by
  cases step with
  | activate =>
      simp only [perform]
      split
      · rename_i s hs
        rcases isHeld_of_scheduler h hs with ⟨hheld, rfl⟩
        split
        · have hidle :
              ((c.scheduler.activate true).1.isWorking &&
                !c.scheduler.isWorking) = false := by
            rcases c.scheduler.activate_eq true with ⟨heq, _⟩ | ⟨heq, _⟩
            · rw [heq, Bool.and_not_self]
            · rw [heq]
              rfl
          refine (Follows.step (Course.step_activate hheld true)
            (passTo_follows _ _ ?_)).look
          apply shows_move h hheld rfl
          rw [hidle]
          rfl
        · exact (Follows.refl h).look
      · exact (Follows.refl h).look
  | sleep millis => exact (passTo_follows _ _ h).look
  | set isActive delay =>
      simp only [perform]
      split
      · apply Follows.look
        exact Follows.refl ⟨h.scheduler, h.target, h.rounds⟩
      · exact (Follows.refl h).look
  | cancel =>
      simp only [perform]
      split
      · rename_i s hs
        rcases isHeld_of_scheduler h hs with ⟨hheld, rfl⟩
        have hstep : c.step .cancel = some _ := if_pos hheld
        exact (Follows.step hstep
          (Follows.refl (shows_move h hheld rfl rfl))).look
      · exact (Follows.refl h).look
  | dropOwner =>
      have hstep : c.step .dropTarget = some _ := rfl
      apply Follows.look
      refine Follows.step hstep
        (Follows.refl ⟨h.look.scheduler, rfl, h.look.rounds.trans ?_⟩)
      rw [count_move c c.scheduler rfl, Bool.and_not_self]
      rfl
  | dropScheduler =>
      apply Follows.look
      cases hheld : c.isHeld with
      | true =>
          have hstep : c.step .dropScheduler = some _ := if_pos hheld
          refine Follows.step hstep
            (Follows.refl ⟨rfl, h.look.target, h.look.rounds.trans ?_⟩)
          rw [count_move c c.scheduler.drop rfl]
          rfl
      | false =>
          refine Follows.refl ⟨?_, h.look.target, h.look.rounds⟩
          rw [hheld]
          rfl

def performAll (t : Ticking) (steps : List TickingStep) : Ticking :=
  steps.foldl (fun t step => (t.perform step).1) t

theorem performAll_follows (h : t.Shows c) (steps : List TickingStep) :
    (t.performAll steps).Follows c := by
  induction steps generalizing t c with
  | nil => exact Follows.refl h
  | cons step rest ih =>
      rcases perform_follows h step with ⟨events, d, hd, hshows⟩
      rcases ih hshows with ⟨more, e, he, hlast⟩
      exact ⟨events ++ more, e, run_append_iff.mpr ⟨d, hd, he⟩, hlast⟩

/-- A rehearsal is one of the courses that a new scheduler can take, with the
rounds that it records. -/
theorem rehearsal_follows (period : Duration) (steps : List TickingStep) :
    (performAll { scheduler := some { period } } steps).Follows
      (Course.start period) :=
  performAll_follows ⟨rfl, rfl, rfl⟩ steps

end Ticking
end Rehearsal
end SlotCluster
