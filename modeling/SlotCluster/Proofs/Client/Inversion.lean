import SlotCluster.Client.Step

/-!
# Events that a client takes

An event that a client does not refuse has found the task or the session that it
is about in the right state.  `Taken` names that state and the client after the
event; `PoolEffect` names what an event of a session has done to its pool.
-/

namespace SlotCluster

namespace Session

variable {s t : Session}

theorem exists_plan_of_route {command : Command} {request : Request}
    (h : s.route command = .ok (t, request)) :
    exists plan, Routing.plan s.pool.table.table s.fallback command = .ok plan ∧
      t = s.deliver (deliveriesOf command plan) ∧
        request = ⟨command, plan, s.deliveries.length⟩ := by
  unfold route at h
  split at h
  · cases h
  · split at h
    · cases h
    · rename_i plan hplan
      cases h
      exact ⟨plan, hplan, rfl, rfl⟩

theorem deliver_of_route {command : Command} {request : Request}
    (h : s.route command = .ok (t, request)) :
    exists deliveries, t = s.deliver deliveries := by
  rcases exists_plan_of_route h with ⟨_, _, heq, _⟩
  exact ⟨_, heq⟩

theorem deliver_of_sendToMasters {command : Command} {ids : List String}
    (h : s.sendToMasters command = .ok (t, ids)) :
    exists deliveries, t = s.deliver deliveries := by
  unfold sendToMasters at h
  split at h
  · cases h
  · cases h
    exact ⟨_, rfl⟩

end Session

namespace Client

/-!
## Events of a session

Most events of a session are events of its pool and nothing else.  The others
ask the pool for a connection, or leave it alone.
-/

def SessionEvent.ofPool? : SessionEvent -> Option Pool.Event
  | .resume call => some (.resume call)
  | .linked call => some (.linked call)
  | .notLinked call error => some (.notLinked call error)
  | .accepted call => some (.accepted call)
  | .refused call error => some (.refused call error)
  | .closed call => some (.closed call)
  | .broke link => some (.broke link)
  | .closeHandle handle => some (.closeHandle handle)
  | .apply table => some (.apply table)
  | .reordered entries => some (.reordered entries)
  | _ => none

theorem SessionEvent.eq_linked {event : SessionEvent} {call : Nat}
    (h : event.ofPool? = some (.linked call)) : event = .linked call := by
  cases event <;> cases h
  rfl

theorem SessionEvent.eq_accepted {event : SessionEvent} {call : Nat}
    (h : event.ofPool? = some (.accepted call)) : event = .accepted call := by
  cases event <;> cases h
  rfl

inductive PoolEffect (s : Session) (event : SessionEvent) : Pool -> Prop where
  | kept (own : event.ofPool? = none) : PoolEffect s event s.pool
  /-- A closed session does not ask its pool. -/
  | refused (own : event.ofPool? = none) (target : Target)
      (shut : s.isClosed = true) :
      PoolEffect s event (s.pool.addCall target (.finished (.error .shutdown)))
  | requested (own : event.ofPool? = none) (target : Target) :
      PoolEffect s event (s.pool.request target)
  | passed {e : Pool.Event} {pool : Pool} (same : event.ofPool? = some e)
      (stepped : s.pool.step e = some pool) : PoolEffect s event pool

theorem poolEffect_of_stepSession {s t : Session} {event : SessionEvent}
    (h : stepSession s event = some t) :
    t.isClosed = s.isClosed ∧ PoolEffect s event t.pool := by
  have hpassed (e : Pool.Event) (hsame : event.ofPool? = some e)
      (hstep : (s.pool.step e).map s.withPool = some t) :
      t.isClosed = s.isClosed ∧ PoolEffect s event t.pool := by
    rcases Option.map_eq_some_iff.mp hstep with ⟨p, hp, rfl⟩
    exact ⟨rfl, PoolEffect.passed hsame hp⟩
  cases event with
  | openTarget target =>
      cases h
      unfold Session.openTarget
      split
      · rename_i hshut
        exact ⟨rfl, PoolEffect.refused rfl target hshut⟩
      · exact ⟨rfl, PoolEffect.requested rfl target⟩
  | route command =>
      simp only [stepSession] at h
      split at h
      · rename_i hr
        rcases Session.deliver_of_route hr with ⟨deliveries, heq⟩
        rw [← Option.some.inj h, heq]
        exact ⟨rfl, PoolEffect.kept rfl⟩
      · rw [← Option.some.inj h]
        exact ⟨rfl, PoolEffect.kept rfl⟩
  | sendTo id command =>
      cases h
      exact ⟨rfl, PoolEffect.kept rfl⟩
  | sendOn handle command =>
      cases h
      exact ⟨rfl, PoolEffect.kept rfl⟩
  | sendToMasters command =>
      simp only [stepSession] at h
      split at h
      · rename_i hr
        rcases Session.deliver_of_sendToMasters hr with ⟨deliveries, heq⟩
        rw [← Option.some.inj h, heq]
        exact ⟨rfl, PoolEffect.kept rfl⟩
      · rw [← Option.some.inj h]
        exact ⟨rfl, PoolEffect.kept rfl⟩
  | begin delivery =>
      simp only [stepSession, Session.begin] at h
      split at h
      · rename_i target _ _ _
        split at h
        · rw [← Option.some.inj h]
          exact ⟨rfl, PoolEffect.kept rfl⟩
        · rw [← Option.some.inj h]
          exact ⟨rfl, PoolEffect.requested rfl target⟩
      · cases h
  | proceed delivery =>
      simp only [stepSession, Session.proceed] at h
      split at h
      · split at h
        · rw [← Option.some.inj h]
          exact ⟨rfl, PoolEffect.kept rfl⟩
        · rw [← Option.some.inj h]
          exact ⟨rfl, PoolEffect.kept rfl⟩
        · cases h
      · cases h
  | receive delivery result =>
      simp only [stepSession, Session.receive] at h
      split at h
      · rw [← Option.some.inj h]
        exact ⟨rfl, PoolEffect.kept rfl⟩
      · cases h
  | resume call => exact hpassed (.resume call) rfl h
  | linked call => exact hpassed (.linked call) rfl h
  | notLinked call error => exact hpassed (.notLinked call error) rfl h
  | accepted call => exact hpassed (.accepted call) rfl h
  | refused call error => exact hpassed (.refused call error) rfl h
  | closed call => exact hpassed (.closed call) rfl h
  | broke link => exact hpassed (.broke link) rfl h
  | closeHandle handle => exact hpassed (.closeHandle handle) rfl h
  | apply table => exact hpassed (.apply table) rfl h
  | reordered entries => exact hpassed (.reordered entries) rfl h

/-! ## Events of a client -/

variable {c q : Client}

inductive CleaningPhase (id : Nat) : Phase -> Prop where
  | waits (cleanup : Nat) (counts : Bool) :
      CleaningPhase id (.cleaning id cleanup counts)
  | finished (outcome : Outcome) : CleaningPhase id (.finished outcome)

def Phase.cleanup? : Phase -> Option (Nat × Nat)
  | .touring _ id cleanup _ => some (id, cleanup)
  | .cleaning id cleanup _ => some (id, cleanup)
  | _ => none

inductive Taken (c : Client) : Event -> Client -> Prop where
  | fetch (purpose : Purpose) : Taken c (.fetch purpose) (c.fetch purpose)
  | granted {task : Nat} {purpose : Purpose}
      (phase : c.phase? task = some (.queued purpose))
      (turn : c.loader = some task) :
      Taken c (.granted task) (c.enterLoad task purpose)
  | setTable (table : Table) :
      Taken c (.setTable table)
        { c with stamps := c.stamps + 1, table := some ⟨c.stamps, table⟩ }
  | refresh : Taken c .refresh (c.refresh false)
  | loaded {task : Nat} {purpose : Purpose} (views : Discovery.Views)
      (phase : c.phase? task = some (.loading purpose)) :
      Taken c (.viewed task views) (c.loaded task purpose views)
  | refreshed {task : Nat} {candidates : List Endpoint} {scheduled : Bool}
      (views : Discovery.Views)
      (phase : c.phase? task = some (.refreshing candidates scheduled)) :
      Taken c (.viewed task views) (c.refreshed task scheduled views)
  | begin {task : Nat} {sessions : List Nat}
      (phase : c.phase? task = some (.spawned sessions)) :
      Taken c (.begin task) (c.visit task .sweep sessions)
  /-- The next connection of the cleanup has to be closed. -/
  | waiting {task id cleanup : Nat} {phase : Phase} {s : Session} {pool : Pool}
      (found : c.phase? task = some phase)
      (waits : phase.cleanup? = some (id, cleanup))
      (session : c.session? id = some s)
      (stepped : s.pool.step (.cleaned cleanup) = some pool) :
      Taken c (.cleaned task) (c.modifySession id (fun s => s.withPool pool))
  /-- The cleanup is done, and the tour goes on. -/
  | toured {task id cleanup : Nat} {tour : Tour} {rest : List Nat} {s : Session}
      {pool : Pool}
      (phase : c.phase? task = some (.touring tour id cleanup rest))
      (session : c.session? id = some s)
      (stepped : s.pool.step (.cleaned cleanup) = some pool) :
      Taken c (.cleaned task)
        ((((c.modifySession id (fun s => s.withPool pool)).setPhase task
          (.finished .done)).leave tour id).visit
          task tour rest)
  /-- The cleanup is done, and the task with it. -/
  | cleaned {task id cleanup : Nat} {counts : Bool} {s : Session} {pool : Pool}
      {outcome : Outcome}
      (phase : c.phase? task = some (.cleaning id cleanup counts))
      (session : c.session? id = some s)
      (stepped : s.pool.step (.cleaned cleanup) = some pool) :
      Taken c (.cleaned task)
        (((c.modifySession id (fun s => s.withPool pool)).setPhase task
          (.finished .done)).setPhase task
          (.finished outcome))
  | shutdown : Taken c .shutdown c.shutdown
  | closeSession (id : Nat) :
      Taken c (.closeSession id)
        ((c.addTask (.spawned [])).visit c.tasks.length .close [id])
  | sweepSession {id : Nat} {table : Option Table} {phase : Phase}
      (kind : CleaningPhase id phase) :
      Taken c (.sweepSession id table)
        ((c.modifySession id
          (fun s =>
            s.withPool (s.pool.sweep (table.getD s.pool.table.table)))).addTask
              phase)
  | drainSession {id : Nat} {phase : Phase} (kind : CleaningPhase id phase) :
      Taken c (.drainSession id)
        ((c.modifySession id (fun s => s.withPool s.pool.drain)).addTask phase)
  | session {id : Nat} {event : SessionEvent} {s t : Session}
      (found : c.session? id = some s)
      (stepped : stepSession s event = some t) :
      Taken c (.session id event) (c.modifySession id (fun _ => t))
  | beginTicks {now : Nat} (scheduler : Scheduler) :
      Taken c (.beginTicks now) { c with scheduler }
  | tick {now : Nat} (scheduler : Scheduler) :
      Taken c (.tick now) { c with scheduler }
  | round {now : Nat} (scheduler : Scheduler) :
      Taken c (.tick now) (refresh { c with scheduler } true)
  | reordered {registry : List Nat} (perm : registry.Perm c.registry) :
      Taken c (.reordered registry) { c with registry }
  | letGo : Taken c .letGo { c with isHeld := false }

theorem cleaningPhase_of_cleanPool {id : Nat} {counts : Bool}
    {clean : Pool -> Pool} (h : c.cleanPool id counts clean = some q) :
    exists phase,
      CleaningPhase id phase ∧
      q = (c.modifySession id (fun s => s.withPool (clean s.pool))).addTask
        phase := by
  unfold cleanPool at h
  split at h
  · cases h
  · dsimp only at h
    split at h
    · exact ⟨_, CleaningPhase.waits _ counts, (Option.some.inj h).symm⟩
    · exact ⟨_, CleaningPhase.finished _, (Option.some.inj h).symm⟩

theorem stepCleanup_cases {task id cleanup : Nat} {done : Client -> Client}
    (h : c.stepCleanup task id cleanup done = some q) :
    exists s pool,
      c.session? id = some s ∧ s.pool.step (.cleaned cleanup) = some pool ∧
      (q = c.modifySession id (fun s => s.withPool pool) ∨
        q = done
          ((c.modifySession id (fun s => s.withPool pool)).setPhase task
            (.finished .done))) := by
  unfold stepCleanup at h
  split at h
  · cases h
  · rename_i pool hpool
    rcases Option.bind_eq_some_iff.mp hpool with ⟨s, hs, hstep⟩
    refine ⟨s, pool, hs, hstep, ?_⟩
    dsimp only at h
    split at h
    · exact Or.inl (Option.some.inj h).symm
    · exact Or.inr (Option.some.inj h).symm

theorem taken_of_step {event : Event} (h : c.step event = some q) :
    Taken c event q := by
  cases event with
  | fetch purpose =>
      cases h
      exact Taken.fetch purpose
  | granted task =>
      simp only [step] at h
      split at h
      · rename_i purpose hphase
        split at h
        · rename_i hturn
          cases h
          exact Taken.granted hphase hturn
        · cases h
      · cases h
  | setTable table =>
      cases h
      exact Taken.setTable table
  | refresh =>
      cases h
      exact Taken.refresh
  | viewed task views =>
      simp only [step] at h
      split at h
      · rename_i purpose hphase
        cases h
        exact Taken.loaded views hphase
      · rename_i candidates scheduled hphase
        cases h
        exact Taken.refreshed views hphase
      · cases h
  | begin task =>
      simp only [step] at h
      split at h
      · rename_i sessions hphase
        cases h
        exact Taken.begin hphase
      · cases h
  | cleaned task =>
      simp only [step] at h
      split at h
      · rename_i tour id cleanup rest hphase
        rcases stepCleanup_cases h with ⟨s, pool, hs, hstep, rfl | rfl⟩
        · exact Taken.waiting hphase rfl hs hstep
        · exact Taken.toured hphase hs hstep
      · rename_i id cleanup counts hphase
        rcases stepCleanup_cases h with ⟨s, pool, hs, hstep, rfl | rfl⟩
        · exact Taken.waiting hphase rfl hs hstep
        · exact Taken.cleaned hphase hs hstep
      · cases h
  | shutdown =>
      cases h
      exact Taken.shutdown
  | closeSession id =>
      cases h
      exact Taken.closeSession id
  | sweepSession id table =>
      simp only [step] at h
      rcases cleaningPhase_of_cleanPool h with ⟨phase, hkind, rfl⟩
      exact Taken.sweepSession hkind
  | drainSession id =>
      simp only [step] at h
      rcases cleaningPhase_of_cleanPool h with ⟨phase, hkind, rfl⟩
      exact Taken.drainSession hkind
  | session id event =>
      simp only [step] at h
      rcases Option.map_eq_some_iff.mp h with ⟨t, ht, rfl⟩
      rcases Option.bind_eq_some_iff.mp ht with ⟨s, hs, hstep⟩
      exact Taken.session hs hstep
  | beginTicks now =>
      simp only [step] at h
      rcases Option.map_eq_some_iff.mp h with ⟨scheduler, _, rfl⟩
      exact Taken.beginTicks scheduler
  | tick now =>
      simp only [step] at h
      split at h
      · cases h
      · rename_i scheduler hscheduler
        split at h
        · cases h
          exact Taken.round scheduler
        · cases h
          exact Taken.tick scheduler
  | reordered registry =>
      simp only [step, Option.ite_none_right_eq_some, Option.some.injEq] at h
      rcases h with ⟨hperm, rfl⟩
      exact Taken.reordered (List.isPerm_iff.mp hperm)
  | letGo =>
      cases h
      exact Taken.letGo

end Client
end SlotCluster
