import SlotCluster.Proofs.Client.Clocks

/-!
# When rounds begin

Every start has put the next tick a whole period off, less the lateness that a
tick may have without moving the later ones.  This is the invariant that keeps
starts apart.

A tick that comes within the tolerance puts the next one exactly a period after
the moment at which it was due itself, so the moments at which ticks are due do
not drift.  If the task sees every tick when the timer goes off, and no round
outlasts the moment at which the next tick is due, then no tick is late.
-/

namespace SlotCluster
namespace Scheduler

variable {s : Scheduler} {due now : Nat}

/-! ## Timers -/

theorem le_wakeUp (due : Nat) : due ≤ wakeUp due := by
  unfold wakeUp Duration.ofMillis Duration.ticks Duration.nanosPerMilli
  dsimp only
  omega

theorem wakeUp_le (due : Nat) : wakeUp due ≤ due + lateness.nanos := by
  unfold wakeUp lateness Duration.ofMillis Duration.ticks Duration.nanosPerMilli
  dsimp only
  omega

theorem wakeUp_mono {due next : Nat} (h : due ≤ next) :
    wakeUp due ≤ wakeUp next := by
  unfold wakeUp Duration.ofMillis Duration.ticks
  apply Nat.mul_le_mul_right
  exact Nat.div_le_div_right (Nat.add_le_add_right h _)

theorem due_add_le_nextTick (h : due ≤ now) :
    due + s.period.nanos ≤ s.nextTick due now := by
  unfold nextTick
  split
  · exact Nat.add_le_add_right h s.period.nanos
  · exact Nat.le_refl _

theorem add_le_nextTick_add :
    now + s.period.nanos ≤ s.nextTick due now + lateness.nanos := by
  unfold nextTick
  split <;> omega

theorem nextTick_of_inTime (h : now ≤ due + lateness.nanos) :
    s.nextTick due now = due + s.period.nanos :=
  if_neg (Nat.not_lt_of_le h)

namespace Timetable

variable {t u : Timetable} {moment due next : Nat}
variable {event : Event} {events : List (Nat × Event)} {period : Duration}

/-! ## Ticks keep their distance -/

/-- No tick comes before it is due, and none is due before a period has passed
since the scheduler was activated.  No two ticks are closer to each other than a
period less the tolerance.  This goes for the tick that the task waits for,
too. -/
structure Apart (t : Timetable) (period : Duration) : Prop where
  past : forall tick, tick ∈ t.ticks -> tick.due ≤ tick.time ∧ tick.time ≤ t.now
  first : forall tick, tick ∈ t.ticks ->
    exists first, t.activated = some first ∧ first + period.nanos ≤ tick.due
  ticks : t.ticks.Pairwise (fun earlier later =>
    earlier.time + period.nanos ≤ later.time + lateness.nanos)
  due : forall due, t.course.scheduler.loop.next? = some due ->
    (exists first, t.activated = some first ∧ first + period.nanos ≤ due) ∧
      forall tick, tick ∈ t.ticks ->
        tick.time + period.nanos ≤ due + lateness.nanos

theorem apart_start (period : Duration) : (start period).Apart period where
  past := nofun
  first := nofun
  ticks := List.Pairwise.nil
  due := nofun

theorem Apart.ticks_eq_nil (h : t.Apart period) (hnone : t.activated = none) :
    t.ticks = [] := by
  rw [List.eq_nil_iff_forall_not_mem]
  intro tick htick
  rcases h.first tick htick with ⟨first, hactivated, _⟩
  rw [hnone] at hactivated
  cases hactivated

theorem Apart.same (h : t.Apart period) (hclock : t.now ≤ u.now)
    (hactivated : u.activated = t.activated) (hticks : u.ticks = t.ticks)
    (hdue : forall due, u.course.scheduler.loop.next? = some due ->
      t.course.scheduler.loop.next? = some due) :
    u.Apart period := by
  constructor
  case past =>
    rw [hticks]
    intro tick htick
    exact ⟨(h.past tick htick).1, Nat.le_trans (h.past tick htick).2 hclock⟩
  case first =>
    rw [hticks, hactivated]
    exact h.first
  case ticks =>
    rw [hticks]
    exact h.ticks
  case due =>
    intro due hnext
    rw [hticks, hactivated]
    exact h.due due (hdue due hnext)

theorem Apart.ticked (h : t.Apart period) {answer : Owner}
    (hperiod : t.course.scheduler.period = period)
    (hwas : t.course.scheduler.loop = .waiting due)
    (hisDue : wakeUp due ≤ moment) (hclock : t.now ≤ moment)
    (hnow : u.now = moment) (hactivated : u.activated = t.activated)
    (hticks : u.ticks = t.ticks ++ [⟨due, moment, answer⟩])
    (hdue : forall next, u.course.scheduler.loop.next? = some next ->
      next = t.course.scheduler.nextTick due moment) : u.Apart period := by
  rcases h.due due (by rw [hwas]; rfl) with ⟨⟨first, hfirst, hdelay⟩, hbefore⟩
  have hreached : due ≤ moment := Nat.le_trans (le_wakeUp due) hisDue
  have hlater : due ≤ t.course.scheduler.nextTick due moment :=
    Nat.le_trans (Nat.le_add_right _ _) (due_add_le_nextTick hreached)
  have hlast : moment + period.nanos ≤
      t.course.scheduler.nextTick due moment + lateness.nanos := by
    rw [← hperiod]
    exact add_le_nextTick_add
  constructor
  case past =>
    intro tick htick
    rw [hticks, List.mem_append, List.mem_singleton] at htick
    rw [hnow]
    rcases htick with htick | rfl
    · exact ⟨(h.past tick htick).1, Nat.le_trans (h.past tick htick).2 hclock⟩
    · exact ⟨hreached, Nat.le_refl moment⟩
  case first =>
    intro tick htick
    rw [hticks, List.mem_append, List.mem_singleton] at htick
    rw [hactivated]
    rcases htick with htick | rfl
    · exact h.first tick htick
    · exact ⟨first, hfirst, hdelay⟩
  case ticks =>
    rw [hticks, List.pairwise_append]
    refine ⟨h.ticks, List.pairwise_singleton _ _, ?_⟩
    intro earlier hearlier later hnew
    rw [List.mem_singleton.mp hnew]
    exact Nat.le_trans (hbefore earlier hearlier)
      (Nat.add_le_add_right hreached _)
  case due =>
    intro next hnext
    rw [hdue next hnext, hactivated]
    refine ⟨⟨first, hfirst, Nat.le_trans hdelay hlater⟩, ?_⟩
    intro tick htick
    rw [hticks, List.mem_append, List.mem_singleton] at htick
    rcases htick with htick | rfl
    · exact Nat.le_trans (hbefore tick htick) (Nat.add_le_add_right hlater _)
    · exact hlast

theorem apart_of_moves (h : t.Apart period) (hkept : t.Kept period)
    (hclock : t.now ≤ moment) (hmoves : t.Moves moment u) : u.Apart period := by
  cases hmoves with
  | rest c loop activated =>
      refine h.same hclock rfl rfl ?_
      show forall due, c.scheduler.loop.next? = some due -> _
      rw [loop]
      exact fun due hdue => hdue
  | spawned c loop before after =>
      have hticks : t.ticks = [] :=
        h.ticks_eq_nil (hkept.activated_eq_none before)
      constructor
      case past =>
        show forall tick, tick ∈ t.ticks -> _
        rw [hticks]
        exact nofun
      case first =>
        show forall tick, tick ∈ t.ticks -> _
        rw [hticks]
        exact nofun
      case ticks => exact h.ticks
      case due =>
        show forall due, c.scheduler.loop.next? = some due -> _
        rw [loop]
        exact nofun
  | begun c was loop activated =>
      rcases hkept.first (by rw [was]; exact nofun) with ⟨first, hfirst⟩
      have hdelay : first + period.nanos ≤ moment + period.nanos :=
        Nat.add_le_add_right (Nat.le_trans (hkept.past first hfirst) hclock) _
      have hpast : forall tick, tick ∈ t.ticks ->
          tick.due ≤ tick.time ∧ tick.time ≤ moment :=
        fun tick htick =>
          ⟨(h.past tick htick).1, Nat.le_trans (h.past tick htick).2 hclock⟩
      refine ⟨hpast, h.first, h.ticks, ?_⟩
      show forall due, c.scheduler.loop.next? = some due -> _
      rw [loop, hkept.period_eq]
      intro due hdue
      cases hdue
      refine ⟨⟨first, hfirst, hdelay⟩, ?_⟩
      intro tick htick
      exact Nat.le_trans (Nat.add_le_add_right (hpast tick htick).2 _)
        (Nat.le_add_right _ _)
  | idled c answer vain was isDue loop activated =>
      exact h.ticked hkept.period_eq was isDue hclock rfl rfl rfl
        (fun _ hnext => Loop.eq_of_next? (loop.imp_right Or.inr) hnext)
  | started c was isDue loop activated =>
      exact h.ticked hkept.period_eq was isDue hclock rfl rfl rfl
        (fun _ hnext => Loop.eq_of_next? (Or.inr (Or.inl loop)) hnext)
  | finished c was round loop activated =>
      refine h.same hclock rfl rfl ?_
      show forall due, c.scheduler.loop.next? = some due -> _
      rw [loop, was]
      exact fun due hdue => hdue
  | stopped c dead activated =>
      refine h.same hclock rfl rfl ?_
      show forall due, c.scheduler.loop.next? = some due -> _
      rcases dead with hloop | hloop <;> rw [hloop] <;> exact nofun

/-! ## Rounds come one after the other -/

/-- Rounds do not overlap, and one begins on every tick on which the target
wants it. -/
structure Ordered (t : Timetable) : Prop where
  starts : t.starts = t.wanted
  running : forall began, t.running = some began ->
    began ≤ t.now ∧ forall span, span ∈ t.rounds -> span.ended ≤ began
  past : forall span, span ∈ t.rounds ->
    span.began ≤ span.ended ∧ span.ended ≤ t.now
  rounds : t.rounds.Pairwise (fun earlier later => earlier.ended ≤ later.began)

theorem ordered_start (period : Duration) : (start period).Ordered where
  starts := rfl
  running := nofun
  past := nofun
  rounds := List.Pairwise.nil

theorem Ordered.same (h : t.Ordered) (hclock : t.now ≤ u.now)
    (hrounds : u.rounds = t.rounds) (hrunning : u.running = t.running)
    (hwanted : u.wanted = t.wanted) : u.Ordered := by
  constructor
  case starts =>
    rw [Timetable.starts, hrounds, hrunning, hwanted]
    exact h.starts
  case running =>
    intro began hbegan
    rw [hrunning] at hbegan
    rw [hrounds]
    exact ⟨Nat.le_trans (h.running began hbegan).1 hclock,
      (h.running began hbegan).2⟩
  case past =>
    rw [hrounds]
    exact fun span hspan =>
      ⟨(h.past span hspan).1, Nat.le_trans (h.past span hspan).2 hclock⟩
  case rounds =>
    rw [hrounds]
    exact h.rounds

theorem Ordered.over (h : t.Ordered) {began : Nat} (hclock : t.now ≤ moment)
    (hnow : u.now = moment) (hround : t.running = some began)
    (hrounds : u.rounds = t.rounds ++ [⟨began, moment, next⟩])
    (hrunning : u.running = none)
    (hwanted : u.wanted = t.wanted) : u.Ordered := by
  rcases h.running began hround with ⟨hbegan, hafter⟩
  constructor
  case starts =>
    rw [hwanted, ← h.starts, Timetable.starts, Timetable.starts, hrounds,
      hrunning, hround]
    simp
  case running =>
    rw [hrunning]
    exact nofun
  case past =>
    intro span hspan
    rw [hrounds, List.mem_append, List.mem_singleton] at hspan
    rw [hnow]
    rcases hspan with hspan | rfl
    · exact ⟨(h.past span hspan).1, Nat.le_trans (h.past span hspan).2 hclock⟩
    · exact ⟨Nat.le_trans hbegan hclock, Nat.le_refl moment⟩
  case rounds =>
    rw [hrounds, List.pairwise_append]
    refine ⟨h.rounds, List.pairwise_singleton _ _, ?_⟩
    intro span hspan last hlast
    rw [List.mem_singleton.mp hlast]
    exact hafter span hspan

theorem ordered_of_moves (h : t.Ordered) (hkept : t.Kept period)
    (hclock : t.now ≤ moment) (hmoves : t.Moves moment u) : u.Ordered := by
  cases hmoves with
  | rest c loop activated => exact h.same hclock rfl rfl rfl
  | spawned c loop before after => exact h.same hclock rfl rfl rfl
  | begun c was loop activated => exact h.same hclock rfl rfl rfl
  | idled c answer vain was isDue loop activated =>
      refine h.same hclock rfl rfl ?_
      simp [wanted, vain]
  | started c was isDue loop activated =>
      have hidle : t.running = none :=
        running_eq_none hkept.working (by rw [isWorking, was])
      have hstarts : t.starts = t.rounds.map Span.began := by
        simp [starts, hidle]
      constructor
      case starts =>
        show t.rounds.map Span.began ++ [moment] = _
        rw [← hstarts, h.starts]
        simp [wanted]
      case running =>
        intro began hbegan
        cases hbegan
        exact ⟨Nat.le_refl moment, fun span hspan =>
          Nat.le_trans (h.past span hspan).2 hclock⟩
      case past =>
        exact fun span hspan =>
          ⟨(h.past span hspan).1, Nat.le_trans (h.past span hspan).2 hclock⟩
      case rounds => exact h.rounds
  | finished c was round loop activated =>
      exact h.over hclock rfl round rfl rfl rfl
  | stopped c dead activated =>
      cases hround : t.running with
      | none =>
          refine h.same hclock ?_ hround.symm rfl
          show t.rounds ++ (t.span? moment).toList = t.rounds
          rw [span?_of_idle hround, Option.toList_none, List.append_nil]
      | some began =>
          rcases hkept.exists_working hround with ⟨next, hworking⟩
          have hrounds : t.rounds ++ (t.span? moment).toList =
              t.rounds ++ [⟨began, moment, next⟩] := by
            rw [span?_of_working hround hworking, Option.toList_some]
          exact h.over hclock rfl hround hrounds rfl rfl

/-! ## Ticks without drift -/

/-- As long as ticks come within the tolerance, they are due whole periods after
the moment at which the task has begun.  This goes for the tick that the task
waits for, too. -/
structure Steady (t : Timetable) (period : Duration) : Prop where
  spawned : t.course.scheduler.loop = .spawned -> t.begun = none
  unbegun : t.begun = none ->
    t.ticks = [] ∧ t.course.scheduler.loop.next? = none
  ticks : forall first, t.begun = some first -> forall k tick,
    t.ticks[k]? = some tick ->
      (forall earlier, earlier ∈ t.ticks.take k -> earlier.InTime) ->
        tick.due = first + (k + 1) * period.nanos
  next : forall first, t.begun = some first -> forall due,
    t.course.scheduler.loop.next? = some due ->
      (forall earlier, earlier ∈ t.ticks -> earlier.InTime) ->
        due = first + (t.ticks.length + 1) * period.nanos

theorem steady_start (period : Duration) : (start period).Steady period where
  spawned := fun _ => rfl
  unbegun := fun _ => ⟨rfl, rfl⟩
  ticks := nofun
  next := nofun

theorem Steady.same (h : t.Steady period) (hbegun : u.begun = t.begun)
    (hticks : u.ticks = t.ticks)
    (hspawned : u.course.scheduler.loop = .spawned -> t.begun = none)
    (hnext : forall due, u.course.scheduler.loop.next? = some due ->
      t.course.scheduler.loop.next? = some due) :
    u.Steady period := by
  constructor
  case spawned =>
    rw [hbegun]
    exact hspawned
  case unbegun =>
    rw [hbegun, hticks]
    intro hnone
    refine ⟨(h.unbegun hnone).1, ?_⟩
    rw [Option.eq_none_iff_forall_ne_some]
    intro due hdue
    have hbefore := hnext due hdue
    rw [(h.unbegun hnone).2] at hbefore
    cases hbefore
  case ticks =>
    rw [hbegun, hticks]
    exact h.ticks
  case next =>
    rw [hbegun, hticks]
    exact fun first hfirst due hdue => h.next first hfirst due (hnext due hdue)

theorem Steady.ticked (h : t.Steady period) {answer : Owner}
    (hperiod : t.course.scheduler.period = period)
    (hwas : t.course.scheduler.loop = .waiting due) (hbegun : u.begun = t.begun)
    (hticks : u.ticks = t.ticks ++ [⟨due, moment, answer⟩])
    (hspawned : u.course.scheduler.loop ≠ .spawned)
    (hdue : forall next, u.course.scheduler.loop.next? = some next ->
      next = t.course.scheduler.nextTick due moment) :
    u.Steady period := by
  have hwaits : t.course.scheduler.loop.next? = some due := by rw [hwas]; rfl
  constructor
  case spawned => exact fun hloop => absurd hloop hspawned
  case unbegun =>
    rw [hbegun]
    intro hnone
    rw [(h.unbegun hnone).2] at hwaits
    cases hwaits
  case ticks =>
    rw [hbegun, hticks]
    intro first hfirst k tick htick hearlier
    rcases Nat.lt_or_ge k t.ticks.length with hk | hk
    · rw [List.getElem?_append_left hk] at htick
      rw [List.take_append_of_le_length (Nat.le_of_lt hk)] at hearlier
      exact h.ticks first hfirst k tick htick hearlier
    · rw [List.getElem?_append_right hk, List.getElem?_singleton,
        Option.ite_none_right_eq_some] at htick
      rcases htick with ⟨hzero, htick⟩
      cases htick
      have hlast : k = t.ticks.length :=
        Nat.le_antisymm (Nat.le_of_sub_eq_zero hzero) hk
      rw [hlast, List.take_append_of_le_length (Nat.le_refl _),
        List.take_length] at hearlier
      rw [hlast]
      exact h.next first hfirst due hwaits hearlier
  case next =>
    rw [hbegun, hticks]
    intro first hfirst next hnext hall
    have hearlier : forall earlier, earlier ∈ t.ticks -> earlier.InTime :=
      fun earlier hmem => hall earlier (List.mem_append_left _ hmem)
    have hinTime : moment ≤ due + lateness.nanos :=
      hall _ (List.mem_append_right _ (List.mem_singleton_self _))
    calc next = due + period.nanos := by
          rw [hdue next hnext, nextTick_of_inTime hinTime, hperiod]
      _ = first + (t.ticks.length + 1) * period.nanos + period.nanos := by
          rw [h.next first hfirst due hwaits hearlier]
      _ = first + (t.ticks.length + 1 + 1) * period.nanos := by
          rw [Nat.succ_mul (t.ticks.length + 1), Nat.add_assoc]
      _ = _ := by rw [List.length_append, List.length_singleton]

theorem steady_of_moves (h : t.Steady period) (hkept : t.Kept period)
    (hmoves : t.Moves moment u) : u.Steady period := by
  cases hmoves with
  | rest c loop activated =>
      refine h.same rfl rfl ?_ ?_
      · show c.scheduler.loop = .spawned -> _
        rw [loop]
        exact h.spawned
      · show forall due, c.scheduler.loop.next? = some due -> _
        rw [loop]
        exact fun due hdue => hdue
  | spawned c loop before after =>
      refine h.same rfl rfl (fun _ => hkept.begun_eq_none before) ?_
      show forall due, c.scheduler.loop.next? = some due -> _
      rw [loop]
      exact nofun
  | begun c was loop activated =>
      have hticks : t.ticks = [] := (h.unbegun (h.spawned was)).1
      constructor
      case spawned =>
        show c.scheduler.loop = .spawned -> _
        rw [loop]
        exact nofun
      case unbegun => exact nofun
      case ticks =>
        intro first _ k tick
        show t.ticks[k]? = some tick -> _
        rw [hticks]
        exact nofun
      case next =>
        intro first hfirst
        cases hfirst
        show forall due, c.scheduler.loop.next? = some due -> _ ->
          due = moment + (t.ticks.length + 1) * period.nanos
        rw [loop, hticks, hkept.period_eq]
        intro due hdue _
        cases hdue
        rw [List.length_nil, Nat.zero_add, Nat.one_mul]
  | idled c answer vain was isDue loop activated =>
      refine h.ticked hkept.period_eq was rfl rfl ?_
        (fun _ hnext => Loop.eq_of_next? (loop.imp_right Or.inr) hnext)
      show c.scheduler.loop ≠ .spawned
      rcases loop with hloop | hloop <;> rw [hloop] <;> exact nofun
  | started c was isDue loop activated =>
      refine h.ticked hkept.period_eq was rfl rfl ?_
        (fun _ hnext => Loop.eq_of_next? (Or.inr (Or.inl loop)) hnext)
      show c.scheduler.loop ≠ .spawned
      rw [loop]
      exact nofun
  | finished c was round loop activated =>
      refine h.same rfl rfl ?_ ?_
      · show c.scheduler.loop = .spawned -> _
        rw [loop]
        exact nofun
      · show forall due, c.scheduler.loop.next? = some due -> _
        rw [loop, was]
        exact fun due hdue => hdue
  | stopped c dead activated =>
      refine h.same rfl rfl ?_ ?_
      · show c.scheduler.loop = .spawned -> _
        rcases dead with hloop | hloop <;> rw [hloop] <;> exact nofun
      · show forall due, c.scheduler.loop.next? = some due -> _
        rcases dead with hloop | hloop <;> rw [hloop] <;> exact nofun

/-!
## Tasks that are never late

A task is punctual if it has begun at once and has seen every tick when the
timer went off.
-/

def OnTime (t : Timetable) : Loop -> Prop
  | .spawned => t.activated = some t.now
  | .waiting due => t.now ≤ wakeUp due
  | _ => True

structure Punctual (t : Timetable) : Prop where
  loop : t.OnTime t.course.scheduler.loop
  begun : forall first, t.begun = some first -> t.activated = some first
  ticks : forall tick, tick ∈ t.ticks -> tick.time = wakeUp tick.due

theorem punctual_start (period : Duration) : (start period).Punctual where
  loop := trivial
  begun := nofun
  ticks := nofun

theorem Punctual.of_loop (h : t.Punctual) {loop : Loop}
    (hloop : t.course.scheduler.loop = loop) : t.OnTime loop := by
  rw [← hloop]
  exact h.loop

theorem eq_of_spawned (hclock : t.now ≤ moment) (hprompt : ¬ t.Lags moment)
    (hwas : t.course.scheduler.loop = .spawned) : moment = t.now := by
  unfold Lags at hprompt
  rw [hwas] at hprompt
  exact Nat.le_antisymm (Nat.le_of_not_lt hprompt) hclock

theorem le_of_waiting (hdue : t.now ≤ wakeUp due) (hprompt : ¬ t.Lags moment)
    (hwas : t.course.scheduler.loop = .waiting due) : moment ≤ wakeUp due := by
  unfold Lags at hprompt
  simp only [hwas, Nat.max_eq_right hdue] at hprompt
  exact Nat.le_of_not_lt hprompt

theorem Punctual.ticked (h : t.Punctual) {answer : Owner}
    (htime : moment = wakeUp due) (hactivated : u.activated = t.activated)
    (hbegun : u.begun = t.begun)
    (hticks : u.ticks = t.ticks ++ [⟨due, moment, answer⟩])
    (hloop : u.OnTime u.course.scheduler.loop) : u.Punctual := by
  constructor
  case loop => exact hloop
  case begun =>
    rw [hbegun, hactivated]
    exact h.begun
  case ticks =>
    intro tick htick
    rw [hticks, List.mem_append, List.mem_singleton] at htick
    rcases htick with htick | rfl
    · exact h.ticks tick htick
    · exact htime

theorem le_wakeUp_nextTick (h : moment = wakeUp due) :
    moment ≤ wakeUp (s.nextTick due moment) := by
  have hreached : due ≤ moment := h ▸ le_wakeUp due
  calc moment = wakeUp due := h
    _ ≤ wakeUp (s.nextTick due moment) :=
      wakeUp_mono
        (Nat.le_trans (Nat.le_add_right _ _) (due_add_le_nextTick hreached))

theorem punctual_of_moves (h : t.Punctual) (hkept : t.Kept period)
    (hclock : t.now ≤ moment) (hprompt : ¬ t.Lags moment)
    (hshort : forall span, span ∈ u.rounds -> span.ended ≤ span.next)
    (hmoves : t.Moves moment u) : u.Punctual := by
  cases hmoves with
  | rest c loop activated =>
      refine ⟨?_, h.begun, h.ticks⟩
      show OnTime _ c.scheduler.loop
      rw [loop]
      cases hwas : t.course.scheduler.loop with
      | spawned =>
          rw [eq_of_spawned hclock hprompt hwas]
          exact h.of_loop hwas
      | waiting due => exact le_of_waiting (h.of_loop hwas) hprompt hwas
      | working next => trivial
      | none => trivial
      | ended => trivial
  | spawned c loop before after =>
      refine ⟨?_, ?_, h.ticks⟩
      · show OnTime _ c.scheduler.loop
        rw [loop]
        rfl
      · show forall first, t.begun = some first -> _
        rw [hkept.begun_eq_none before]
        exact nofun
  | begun c was loop activated =>
      have hnow := eq_of_spawned hclock hprompt was
      refine ⟨?_, ?_, h.ticks⟩
      · show OnTime _ c.scheduler.loop
        rw [loop]
        exact Nat.le_trans (Nat.le_add_right _ _) (le_wakeUp _)
      · intro first hfirst
        cases hfirst
        rw [hnow]
        exact h.of_loop was
  | idled c answer vain was isDue loop activated =>
      have htime :=
        Nat.le_antisymm (le_of_waiting (h.of_loop was) hprompt was) isDue
      refine h.ticked htime rfl rfl rfl ?_
      show OnTime _ c.scheduler.loop
      rcases loop with hloop | hloop <;> rw [hloop]
      · exact le_wakeUp_nextTick htime
      · trivial
  | started c was isDue loop activated =>
      have htime :=
        Nat.le_antisymm (le_of_waiting (h.of_loop was) hprompt was) isDue
      refine h.ticked htime rfl rfl rfl ?_
      show OnTime _ c.scheduler.loop
      rw [loop]
      trivial
  | @finished next began c was round loop activated =>
      have hended : moment ≤ next := hshort ⟨began, moment, next⟩ (by simp)
      refine ⟨?_, h.begun, h.ticks⟩
      show OnTime _ c.scheduler.loop
      rw [loop]
      exact Nat.le_trans hended (le_wakeUp next)
  | stopped c dead activated =>
      refine ⟨?_, h.begun, h.ticks⟩
      show OnTime _ c.scheduler.loop
      rcases dead with hloop | hloop <;> rw [hloop] <;> trivial

/-! ## Runs -/

structure Regular (t : Timetable) (period : Duration) : Prop where
  kept : t.Kept period
  apart : t.Apart period
  steady : t.Steady period
  ordered : t.Ordered

theorem regular_start (period : Duration) : (start period).Regular period where
  kept := kept_start period
  apart := apart_start period
  steady := steady_start period
  ordered := ordered_start period

theorem Regular.step (h : t.Regular period)
    (hstep : t.step (moment, event) = some u) : u.Regular period := by
  rcases kept_of_step h.kept hstep with ⟨hkept, hclock, hmoves⟩
  constructor
  case kept => exact hkept
  case apart => exact apart_of_moves h.apart h.kept hclock hmoves
  case steady => exact steady_of_moves h.steady h.kept hmoves
  case ordered => exact ordered_of_moves h.ordered h.kept hclock hmoves

theorem Regular.run (h : t.Regular period) (hrun : t.run events = some u) :
    u.Regular period :=
  run_keeps hrun h Regular.step

theorem rounds_of_step (h : t.step (moment, event) = some u) :
    t.rounds ⊆ u.rounds := by
  rcases step_eq_some h with ⟨_, _, c, _, rfl⟩
  show t.rounds ⊆ if c.scheduler.isWorking then t.rounds else t.rounds ++ _
  split
  · exact fun _ hspan => hspan
  · exact List.subset_append_left _ _

theorem rounds_of_run (h : t.run events = some u) : t.rounds ⊆ u.rounds :=
  run_keeps h (fun _ hspan => hspan)
    (fun hr hstep => List.Subset.trans hr (rounds_of_step hstep))

theorem punctual_of_run (hregular : t.Regular period) (h : t.Punctual)
    (hprompt : t.Prompt events) (hrun : t.run events = some u)
    (hshort : forall span, span ∈ u.rounds -> span.ended ≤ span.next) :
    u.Punctual := by
  induction events generalizing t with
  | nil =>
      cases hrun
      exact h
  | cons first rest ih =>
      rcases run_cons.mp hrun with ⟨r, hr, hrest⟩
      rcases kept_of_step hregular.kept hr with ⟨_, hclock, hmoves⟩
      have hshorter : forall span, span ∈ r.rounds -> span.ended ≤ span.next :=
        fun span hspan => hshort span (rounds_of_run hrest hspan)
      have hnext :=
        punctual_of_moves h hregular.kept hclock hprompt.1 hshorter hmoves
      exact ih (hregular.step hr) hnext (hprompt.2 r hr) hrest

theorem Regular.due_of_punctual (h : t.Regular period) (hpunctual : t.Punctual)
    {first : Nat} (hfirst : t.activated = some first) {k : Nat} {tick : Tick}
    (htick : t.ticks[k]? = some tick) :
    tick.due = first + (k + 1) * period.nanos := by
  cases hbegun : t.begun with
  | none =>
      rw [(h.steady.unbegun hbegun).1] at htick
      cases htick
  | some moment =>
      have hsame : moment = first :=
        Option.some.inj ((hpunctual.begun moment hbegun).symm.trans hfirst)
      rw [← hsame]
      refine h.steady.ticks moment hbegun k tick htick
        (fun earlier hearlier => ?_)
      unfold Tick.InTime
      rw [hpunctual.ticks earlier (List.mem_of_mem_take hearlier)]
      exact wakeUp_le earlier.due

/-!
## Every sequence of rounds

A waiting task that never lags can have its target ask for any rounds.
-/

def answerOf : Option Nat -> Owner
  | none => .idle
  | some _ => .active

structure Ready (t : Timetable) (due : Nat) : Prop where
  loop : t.course.scheduler.loop = .waiting due
  target : t.course.hasTarget = true
  running : t.running = none

theorem step_of_course (hclock : t.now ≤ moment) (hat : event.IsAt moment)
    {c : Course} (hc : t.course.step event = some c) :
    t.step (moment, event) = some (t.note moment event c) := by
  rw [step, if_pos ⟨hclock, hat⟩, hc]
  rfl

theorem Ready.working (h : t.Ready due) :
    t.running.isSome = t.course.scheduler.isWorking := by
  rw [h.running, isWorking, h.loop]
  rfl

theorem Ready.idle (h : t.Ready due) (hclock : t.now ≤ moment)
    (hdue : wakeUp due ≤ moment) :
    exists r next, t.step (moment, .tick moment false) = some r ∧ r.Ready next ∧
      r.activated = t.activated ∧ r.ticks = t.ticks ++ [⟨due, moment, .idle⟩] ∧
      r.rounds = t.rounds := by
  let next := t.course.scheduler.nextTick due moment
  have howner : t.course.owner false = .idle := by simp [Course.owner, h.target]
  have hc : t.course.step (.tick moment false) =
      some (t.course.move
        { t.course.scheduler with loop := .waiting next } []) := by
    simp [Course.step, Scheduler.tick, h.loop, hdue, howner, next]
  have hat : (Event.tick moment false).IsAt moment := rfl
  have hstep := step_of_course hclock hat hc
  rw [note_idled h.working h.loop howner rfl] at hstep
  exact ⟨_, next, hstep, ⟨rfl, h.target, h.running⟩, rfl, rfl, rfl⟩

theorem Ready.round (h : t.Ready due) (hclock : t.now ≤ moment)
    (hdue : wakeUp due ≤ moment) (length : Nat) :
    exists r u next, t.step (moment, .tick moment true) = some r ∧
      r.step (moment + length, .finish) = some u ∧ ¬ r.Lags (moment + length) ∧
      u.Ready next ∧ u.activated = t.activated ∧
      u.ticks = t.ticks ++ [⟨due, moment, .active⟩] ∧
      u.rounds = t.rounds ++ [⟨moment, moment + length, next⟩] := by
  let next := t.course.scheduler.nextTick due moment
  have howner : t.course.owner true = .active := by
    simp [Course.owner, h.target]
  have hc : t.course.step (.tick moment true) =
      some (t.course.move
        { t.course.scheduler with loop := .working next } []) := by
    simp [Course.step, Scheduler.tick, h.loop, hdue, howner, next]
  have hat : (Event.tick moment true).IsAt moment := rfl
  have hstep := step_of_course hclock hat hc
  rw [note_started h.working h.loop howner] at hstep
  have hend : Event.finish.IsAt (moment + length) := trivial
  refine ⟨_, _, next, hstep, step_of_course (Nat.le_add_right _ _) hend rfl,
    fun hlags => hlags, ?_⟩
  rw [note_finished rfl (rfl : Loop.working next = .working next)]
  exact ⟨⟨rfl, h.target, rfl⟩, rfl, rfl, rfl⟩

theorem Ready.exists_run (h : t.Ready due) (asked : List (Option Nat)) :
    exists events u, t.run events = some u ∧ t.Prompt events ∧
      u.activated = t.activated ∧
      u.ticks.map Tick.answer = t.ticks.map Tick.answer ++ asked.map answerOf ∧
      u.rounds.map Span.length = t.rounds.map Span.length ++
        asked.filterMap id := by
  induction asked generalizing t due with
  | nil => exact ⟨[], t, rfl, trivial, rfl, by simp, by simp⟩
  | cons first rest ih =>
      have hclock : t.now ≤ max t.now (wakeUp due) := Nat.le_max_left _ _
      have hdue : wakeUp due ≤ max t.now (wakeUp due) := Nat.le_max_right _ _
      have hprompt : ¬ t.Lags (max t.now (wakeUp due)) := by
        unfold Lags
        simp only [h.loop]
        exact Nat.lt_irrefl _
      cases first with
      | none =>
          rcases h.idle hclock hdue with
            ⟨r, next, hr, hready, hactivated, hticks, hrounds⟩
          rcases ih hready with
            ⟨events, u, hrun, hnext, hu_activated, hu_ticks, hu_rounds⟩
          refine ⟨_ :: events, u, run_cons.mpr ⟨r, hr, hrun⟩,
            ⟨hprompt, ?_⟩, ?_, ?_, ?_⟩
          · intro r' hr'
            cases hr.symm.trans hr'
            exact hnext
          · rw [hu_activated, hactivated]
          · rw [hu_ticks, hticks]
            simp [answerOf]
          · rw [hu_rounds, hrounds]
            simp
      | some length =>
          rcases h.round hclock hdue length with
            ⟨r, v, next, hr, hv, hlags, hready, hactivated, hticks, hrounds⟩
          rcases ih hready with
            ⟨events, u, hrun, hnext, hu_activated, hu_ticks, hu_rounds⟩
          have hall := run_cons.mpr ⟨r, hr, run_cons.mpr ⟨v, hv, hrun⟩⟩
          refine ⟨_ :: _ :: events, u, hall, ⟨hprompt, ?_⟩, ?_, ?_, ?_⟩
          · intro r' hr'
            cases hr.symm.trans hr'
            refine ⟨hlags, ?_⟩
            intro v' hv'
            cases hv.symm.trans hv'
            exact hnext
          · rw [hu_activated, hactivated]
          · rw [hu_ticks, hticks]
            simp [answerOf]
          · rw [hu_rounds, hrounds]
            simp [Span.length]

/-- Whenever a scheduler is activated, and whatever rounds its target asks for,
there is a run without lags in which the target gets them. -/
theorem exists_prompt_run (hperiod : 0 < period.nanos) (first : Nat)
    (asked : List (Option Nat)) :
    exists events u, (start period).run events = some u ∧
      (start period).Prompt events ∧ u.activated = some first ∧
      u.ticks.map Tick.answer = asked.map answerOf ∧
      u.rounds.map Span.length = asked.filterMap id := by
  let spawned : Scheduler := { period, isActivated := true, loop := .spawned }
  let called := (Course.start period).move spawned [.answered true true]
  let t : Timetable :=
    { course := called, now := first, activated := some first }
  have ht : (start period).step (first, .activate true) = some t := by
    have hat : (Event.activate true).IsAt first := trivial
    exact step_of_course (Nat.zero_le first) hat rfl
  let due := first + period.nanos
  let begun := called.move { spawned with loop := .waiting due } []
  let r : Timetable := { t with course := begun, begun := some first }
  have hr : t.step (first, .begin first) = some r := by
    have hat : (Event.begin first).IsAt first := rfl
    have hc : called.step (.begin first) = some begun := by
      simp [Course.step, called, Course.move, begin, spawned, begun, due,
        Nat.pos_iff_ne_zero.mp hperiod]
    exact step_of_course (Nat.le_refl first) hat hc
  have hready : r.Ready due := ⟨rfl, rfl, rfl⟩
  rcases hready.exists_run asked with
    ⟨events, u, hrun, hprompt, hactivated, hticks, hrounds⟩
  have hpunctual : ¬ t.Lags first := Nat.lt_irrefl first
  have hall := run_cons.mpr ⟨t, ht, run_cons.mpr ⟨r, hr, hrun⟩⟩
  refine ⟨_ :: _ :: events, u, hall, ⟨id, ?_⟩, hactivated, hticks, hrounds⟩
  intro t' ht'
  cases ht.symm.trans ht'
  refine ⟨hpunctual, ?_⟩
  intro r' hr'
  cases hr.symm.trans hr'
  exact hprompt

/-- The rounds of a scheduler do not overlap, however long they last, whenever
their target wants them and however late the task comes to see a tick.  A round
begins on every tick on which the target wants it, and on no other; the first
one begins when a period has passed since the scheduler was activated, or later,
and no two begin closer to each other than a period less the tolerance.

No tick is seen before it is due.  As long as ticks are seen within the
tolerance, each of them is due at the moment at which the task has begun and
whole periods after it, without drift.  The task may begin when the scheduler is
activated, and not before.  If it begins then, sees every tick when the timer
goes off, and every round ends when the next tick is due, or before, then ticks
come whole periods after the activation, up to the whole milliseconds on which
timers go off.

Whenever the scheduler is activated, and whatever rounds the target asks for,
there is a run without lags in which the target gets them. -/
theorem rounds_apart (hperiod : 0 < period.nanos) :
    (forall events t, (start period).run events = some t ->
      t.rounds.Pairwise (fun earlier later => earlier.ended ≤ later.began) ∧
        (forall began, t.running = some began ->
          forall span, span ∈ t.rounds -> span.ended ≤ began) ∧
        (forall moment, moment ∈ t.starts ->
          exists first,
            t.activated = some first ∧ first + period.nanos ≤ moment) ∧
        t.starts.Pairwise (fun earlier later =>
          earlier + period.nanos ≤ later + lateness.nanos) ∧
        t.starts = t.wanted ∧
        (forall tick, tick ∈ t.ticks -> tick.due ≤ tick.time) ∧
        (forall first, t.begun = some first ->
          (exists called, t.activated = some called ∧ called ≤ first) ∧
            forall k tick, t.ticks[k]? = some tick ->
              (forall earlier, earlier ∈ t.ticks.take k -> earlier.InTime) ->
                tick.due = first + (k + 1) * period.nanos) ∧
        ((start period).Prompt events ->
          (forall span, span ∈ t.rounds -> span.ended ≤ span.next) ->
            forall first, t.activated = some first ->
              forall k tick, t.ticks[k]? = some tick ->
                tick.due = first + (k + 1) * period.nanos ∧
                  tick.time = wakeUp tick.due)) ∧
      forall (first : Nat) (asked : List (Option Nat)), exists events t,
        (start period).run events = some t ∧ (start period).Prompt events ∧
        t.activated = some first ∧
        t.ticks.map Tick.answer = asked.map answerOf ∧
        t.rounds.map Span.length = asked.filterMap id := by
  constructor
  · intro events t h
    have hregular := (regular_start period).run h
    have hordered := hregular.ordered
    have hapart := hregular.apart
    refine ⟨hordered.rounds, ?_, ?_, ?_, hordered.starts, ?_, ?_, ?_⟩
    · intro began hbegan
      exact (hordered.running began hbegan).2
    · intro moment hmoment
      rw [hordered.starts, wanted, List.mem_map] at hmoment
      rcases hmoment with ⟨tick, htick, rfl⟩
      have hmem := (List.mem_filter.mp htick).1
      rcases hapart.first tick hmem with ⟨first, hfirst, hdelay⟩
      exact ⟨first, hfirst, Nat.le_trans hdelay (hapart.past tick hmem).1⟩
    · rw [hordered.starts, wanted, List.pairwise_map]
      exact hapart.ticks.filter _
    · intro tick htick
      exact (hapart.past tick htick).1
    · intro first hfirst
      exact ⟨hregular.kept.begun first hfirst,
        hregular.steady.ticks first hfirst⟩
    · intro hprompt hshort first hfirst k tick htick
      have hpunctual :=
        punctual_of_run (regular_start period) (punctual_start period)
          hprompt h hshort
      exact ⟨hregular.due_of_punctual hpunctual hfirst htick,
        hpunctual.ticks tick (List.mem_of_getElem? htick)⟩
  · exact exists_prompt_run hperiod

/-- Of a period of twenty-one and a half milliseconds.  The task begins two
milliseconds after the scheduler was activated.  The first tick is seen a little
late and moves none, and the second one when it is due.  The round that the
second one starts outlasts the period, so that the third tick is late and moves
the fourth. -/
theorem rounds_apart_late :
    exists t, (start ⟨21500000⟩).run
        [(0, .activate true), (2000000, .begin 2000000),
          (27000000, .tick 27000000 true), (28000000, .finish),
          (45000000, .tick 45000000 true), (80000000, .finish),
          (80000000, .tick 80000000 false),
          (102000000, .tick 102000000 true)] = some t ∧
      t.begun = some 2000000 ∧
      t.ticks.map Tick.due = [23500000, 45000000, 66500000, 101500000] ∧
      t.starts = [27000000, 45000000, 102000000] ∧ t.starts = t.wanted ∧
      t.starts.Pairwise (fun earlier later =>
        earlier + 21500000 ≤ later + lateness.nanos) ∧
      t.ticks[2]? = some ⟨66500000, 80000000, .idle⟩ ∧
      66500000 = 2000000 + (2 + 1) * 21500000 := by
  obtain ⟨t, hrun, hbegun, hdues, hstarts, hticks, htick⟩ :
      exists t, (start ⟨21500000⟩).run
        [(0, .activate true), (2000000, .begin 2000000),
          (27000000, .tick 27000000 true), (28000000, .finish),
          (45000000, .tick 45000000 true), (80000000, .finish),
          (80000000, .tick 80000000 false),
          (102000000, .tick 102000000 true)] = some t ∧
      t.begun = some 2000000 ∧
      t.ticks.map Tick.due = [23500000, 45000000, 66500000, 101500000] ∧
      t.starts = [27000000, 45000000, 102000000] ∧
      t.ticks.take 2 =
        [⟨23500000, 27000000, .active⟩, ⟨45000000, 45000000, .active⟩] ∧
      t.ticks[2]? = some ⟨66500000, 80000000, .idle⟩ :=
    ⟨_, rfl, rfl, rfl, rfl, rfl, rfl⟩
  rcases (rounds_apart (by decide)).1 _ t hrun with
    ⟨_, _, _, hapart, hwanted, _, hsteady, _⟩
  have hearlier : forall earlier, earlier ∈ t.ticks.take 2 ->
      earlier.InTime := by
    rw [hticks]
    unfold Tick.InTime
    decide
  exact ⟨t, hrun, hbegun, hdues, hstarts, hwanted, hapart, htick,
    (hsteady 2000000 hbegun).2 2 _ htick hearlier⟩

end Timetable

end Scheduler
end SlotCluster
