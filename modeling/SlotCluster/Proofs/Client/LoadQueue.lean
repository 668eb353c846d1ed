import SlotCluster.Proofs.Client.FirstLoad
import SlotCluster.Proofs.Client.Shutdown

/-!
# Standing in line to load

Whoever needs a table while another task loads one stands in line.  A step
leaves the line alone, or it is one of a few that are about loads: a task comes
to the line, or the first one in it begins to load, or it leaves.  Those who
stand in line are the tasks that want to load, the first of them has the turn,
and nobody else loads: this is what every step keeps.
-/

namespace SlotCluster
namespace Client

variable {c q : Client} {task i j : Nat} {purpose : Purpose} {event : Event}
  {events : List Event} {phase : Phase}

/-!
## Phases of loads

Tasks get into two phases only on the way to a table: one waits for its turn to
load, and the other loads.
-/

inductive Phase.OfLoad : Phase -> Prop where
  | queued (purpose : Purpose) : OfLoad (.queued purpose)
  | loading (purpose : Purpose) : OfLoad (.loading purpose)
  | brought (table : Shared) : OfLoad (.finished (.table table))

theorem not_ofLoad_finished {outcome : Outcome}
    (h : forall table, outcome ≠ .table table) :
    ¬ (Phase.finished outcome).OfLoad := by
  intro hphase
  cases hphase with
  | brought table => exact h table rfl

structure Beside (c q : Client) : Prop where
  loader : q.loader = c.loader
  waiters : q.waiters = c.waiters
  back : forall {i : Nat} {phase : Phase}, phase.OfLoad ->
    q.phase? i = some phase -> c.phase? i = some phase

namespace Beside

theorem of_tasks (hloader : q.loader = c.loader)
    (hwaiters : q.waiters = c.waiters)
    (htasks : q.tasks = c.tasks) : Beside c q :=
  ⟨hloader, hwaiters, fun _ hi => (phase?_of_tasks htasks _).symm.trans hi⟩

theorem trans {r : Client} (hr : Beside c r)
    (hq : Beside r q) : Beside c q where
  loader := hq.loader.trans hr.loader
  waiters := hq.waiters.trans hr.waiters
  back hphase hi := hr.back hphase (hq.back hphase hi)

theorem setPhase (c : Client) (task : Nat) (hphase : ¬ phase.OfLoad) :
    Beside c (c.setPhase task phase) := by
  refine ⟨rfl, rfl, ?_⟩
  intro i new hnew hi
  rcases phase_of_setPhase hi with ⟨hold, _⟩ | ⟨rfl, _⟩
  · exact hold
  · exact absurd hnew hphase

theorem addTask (c : Client) (hphase : ¬ phase.OfLoad) :
    Beside c (c.addTask phase) := by
  refine ⟨rfl, rfl, ?_⟩
  intro i new hnew hi
  rw [phase?_addTask] at hi
  split at hi
  · cases hi
    exact absurd hnew hphase
  · exact hi

theorem modify (c : Client) (id : Nat) (f : Session -> Session) :
    Beside c (c.modifySession id f) := by
  rcases c.modifySession_eq id f with ⟨sessions, heq⟩
  rw [heq]
  exact of_tasks rfl rfl rfl

theorem leave (c : Client) (tour : Tour) (id : Nat) :
    Beside c (c.leave tour id) := by
  cases tour <;> exact of_tasks rfl rfl rfl

theorem visit (c : Client) (task : Nat) (tour : Tour) (ids : List Nat) :
    Beside c (c.visit task tour ids) := by
  induction ids generalizing c with
  | nil =>
      apply setPhase
      cases tour <;> exact not_ofLoad_finished nofun
  | cons id rest ih =>
      have hone : Beside c (c.visitOne tour id).1 := by
        rcases c.visitOne_eq tour id with ⟨sessions, heq⟩
        rw [heq]
        exact of_tasks rfl rfl rfl
      rcases visit_cons_cases c task tour id rest with
        heq | ⟨cleanup, _, heq⟩ | heq
      · rw [heq]
        exact hone.trans (ih _)
      · rw [heq]
        exact hone.trans (setPhase _ task nofun)
      · rw [heq]
        exact (hone.trans (leave _ tour id)).trans (ih _)

theorem refresh (c : Client) (scheduled : Bool) :
    Beside c (c.refresh scheduled) := by
  unfold Client.refresh
  split
  · exact addTask c nofun
  · exact addTask c (not_ofLoad_finished nofun)

theorem startSweep (c : Client) : Beside c c.startSweep := by
  unfold Client.startSweep
  split
  · exact addTask c nofun
  · exact of_tasks rfl rfl rfl

theorem refreshed (c : Client) (task : Nat) (scheduled : Bool)
    (views : Discovery.Views) :
    Beside c (c.refreshed task scheduled views) := by
  rcases refreshed_cases c task scheduled views with
    ⟨scheduler, ⟨_, heq⟩ | ⟨table, _, _, heq⟩⟩
  · rw [heq]
    have hended : Beside c { c with scheduler } := of_tasks rfl rfl rfl
    exact hended.trans (setPhase _ task (not_ofLoad_finished nofun))
  · rcases informSessions_eq (c.placed scheduler table) ⟨c.stamps, table⟩ with
      ⟨sessions, htold⟩
    rw [heq, htold]
    have hplaced : Beside c { c.placed scheduler table with sessions } :=
      of_tasks rfl rfl rfl
    exact (hplaced.trans (startSweep _)).trans
      (setPhase _ task (not_ofLoad_finished nofun))

theorem abandonScheduled (c : Client) : Beside c c.abandonScheduled := by
  refine ⟨rfl, rfl, ?_⟩
  intro i phase hphase hi
  change (c.tasks.map _)[i]? = _ at hi
  rw [List.getElem?_map] at hi
  rcases Option.map_eq_some_iff.mp hi with ⟨old, hold, heq⟩
  split at heq
  · rw [← heq] at hphase
    exact absurd hphase (not_ofLoad_finished nofun)
  · rw [← heq]
    exact hold

theorem shutdown (c : Client) : Beside c c.shutdown := by
  unfold Client.shutdown
  dsimp only
  split
  · have hcancelled :
        Beside c { c with
          isActive := false
          scheduler := c.scheduler.cancel
          registry := [] } :=
      of_tasks rfl rfl rfl
    have hspawned : ¬ (Phase.spawned []).OfLoad := nofun
    exact ((hcancelled.trans (abandonScheduled _)).trans
      (addTask _ hspawned)).trans (visit _ _ _ _)
  · exact addTask c (not_ofLoad_finished nofun)

theorem cleanupOutcome_ne (c : Client) (id cleanup : Nat) (counts : Bool)
    (table : Shared) : c.cleanupOutcome id cleanup counts ≠ .table table := by
  unfold cleanupOutcome
  split
  · split <;> exact nofun
  · exact nofun

theorem cleanPool {id : Nat} {counts : Bool} {clean : Pool -> Pool}
    (h : c.cleanPool id counts clean = some q) : Beside c q := by
  unfold Client.cleanPool at h
  split at h
  · cases h
  · dsimp only at h
    split at h
    · cases h
      exact (modify c id _).trans (addTask _ nofun)
    · cases h
      exact (modify c id _).trans
        (addTask _ (not_ofLoad_finished (cleanupOutcome_ne _ _ _ _)))

theorem cleaned (h : c.step (.cleaned task) = some q) : Beside c q := by
  have hdone : ¬ (Phase.finished .done).OfLoad := not_ofLoad_finished nofun
  simp only [step] at h
  split at h
  · rename_i tour id cleanup rest _
    rcases stepCleanup_cases h with ⟨s, pool, _, _, rfl | rfl⟩
    · exact modify c id _
    · exact (((modify c id _).trans (setPhase _ task hdone)).trans
        (leave _ tour id)).trans (visit _ task tour rest)
  · rename_i id cleanup counts _
    rcases stepCleanup_cases h with ⟨s, pool, _, _, rfl | rfl⟩
    · exact modify c id _
    · exact ((modify c id _).trans (setPhase _ task hdone)).trans
        (setPhase _ task (not_ofLoad_finished (cleanupOutcome_ne _ _ _ _)))
  · cases h

end Beside

theorem beside_of_step (h : c.step event = some q)
    (hfetch : forall purpose, event ≠ .fetch purpose)
    (hgranted : forall task, event ≠ .granted task)
    (hloaded : forall task views purpose, event = .viewed task views ->
        c.phase? task ≠ some (.loading purpose)) : Beside c q := by
  cases taken_of_step h with
  | fetch purpose => exact absurd rfl (hfetch purpose)
  | granted _ _ => exact absurd rfl (hgranted _)
  | setTable table => exact Beside.of_tasks rfl rfl rfl
  | refresh => exact Beside.refresh c false
  | loaded views phase => exact absurd phase (hloaded _ views _ rfl)
  | refreshed views _ => exact Beside.refreshed c _ _ views
  | begin _ => exact Beside.visit c _ .sweep _
  | waiting _ _ _ _ => exact Beside.cleaned h
  | toured _ _ _ => exact Beside.cleaned h
  | cleaned _ _ _ => exact Beside.cleaned h
  | shutdown => exact Beside.shutdown c
  | closeSession id =>
      have hspawned : ¬ (Phase.spawned []).OfLoad := nofun
      exact (Beside.addTask c hspawned).trans (Beside.visit _ _ .close [id])
  | sweepSession _ =>
      simp only [step] at h
      exact Beside.cleanPool h
  | drainSession _ =>
      simp only [step] at h
      exact Beside.cleanPool h
  | session _ _ => exact Beside.modify c _ _
  | beginTicks scheduler => exact Beside.of_tasks rfl rfl rfl
  | tick scheduler => exact Beside.of_tasks rfl rfl rfl
  | round scheduler =>
      have hscheduled : Beside c { c with scheduler } :=
        Beside.of_tasks rfl rfl rfl
      exact hscheduled.trans (Beside.refresh _ true)
  | reordered perm => exact Beside.of_tasks rfl rfl rfl
  | letGo => exact Beside.of_tasks rfl rfl rfl

/-! ## Wishes -/

def Phase.wish? : Phase -> Option Purpose
  | .queued purpose => some purpose
  | .loading purpose => some purpose
  | _ => none

def wish? (c : Client) (i : Nat) : Option Purpose :=
  (c.phase? i).bind Phase.wish?

theorem wish?_length (c : Client) : c.wish? c.tasks.length = none := by
  unfold wish? phase?
  rw [List.getElem?_eq_none (Nat.le_refl _)]
  rfl

theorem phase?_of_concat (htasks : q.tasks = c.tasks ++ [phase]) (i : Nat) :
    q.phase? i = if i = c.tasks.length then some phase else c.phase? i := by
  have hsame : q.tasks = (c.addTask phase).tasks := htasks
  rw [phase?_of_tasks hsame, phase?_addTask]

theorem phase?_of_set (htasks : q.tasks = c.tasks.set task phase) (i : Nat) :
    q.phase? i = if task = i then (c.phase? i).map (fun _ => phase)
      else c.phase? i := by
  have hsame : q.tasks = (c.setPhase task phase).tasks := htasks
  rw [phase?_of_tasks hsame, phase?_setPhase]

theorem wish?_addTask (htasks : q.tasks = c.tasks ++ [phase]) (i : Nat) :
    q.wish? i = if i = c.tasks.length then phase.wish? else c.wish? i := by
  unfold wish?
  rw [phase?_of_concat htasks]
  split <;> rfl

theorem wish?_setPhase {old : Phase} (hold : c.phase? task = some old)
    (htasks : q.tasks = c.tasks.set task phase) (i : Nat) :
    q.wish? i = if task = i then phase.wish? else c.wish? i := by
  unfold wish?
  rw [phase?_of_set htasks]
  split
  · rename_i heq
    rw [← heq, hold]
    rfl
  · rfl

theorem Phase.OfLoad.of_wish (h : phase.wish? = some purpose) :
    phase.OfLoad := by
  cases phase with
  | queued wish => exact Phase.OfLoad.queued wish
  | loading wish => exact Phase.OfLoad.loading wish
  | _ => cases h

/-- A wish ends only at an event of a load. -/
theorem wish?_of_step (h : c.step event = some q) (hq : Beside c q)
    (hgranted : forall task, event ≠ .granted task)
    (hloaded : forall task views purpose, event = .viewed task views ->
      c.phase? task ≠ some (.loading purpose))
    (i : Nat) : q.wish? i = c.wish? i := by
  apply Option.ext
  intro purpose
  unfold wish?
  rw [Option.bind_eq_some_iff, Option.bind_eq_some_iff]
  constructor
  · rintro ⟨phase, hi, hwish⟩
    exact ⟨phase, hq.back (Phase.OfLoad.of_wish hwish) hi, hwish⟩
  · rintro ⟨phase, hi, hwish⟩
    refine ⟨phase, phase?_of_step h hi ?_ ?_, hwish⟩
    · intro htask
      cases suits_of_step h htask hi with
      | granted _ => exact hgranted i rfl
      | loaded views purpose => exact hloaded i views purpose rfl hi
      | _ => cases hwish
    · rintro candidates rfl
      cases hwish

/-! ## Steps of loads -/

theorem deliverTable_eq (c : Client) (task : Nat) (purpose : Purpose)
    (table : Shared) :
    exists scheduler sessions registry outcome,
      c.deliverTable task purpose table =
        setPhase { c with scheduler, sessions, registry } task
          (.finished outcome) ∧
      forall u, outcome = .table u -> u = table := by
  cases purpose with
  | session =>
      rcases openSession_eq c task table with ⟨scheduler, heq⟩
      refine ⟨scheduler, _, _, _, heq, ?_⟩
      split <;> exact nofun
  | _ =>
      refine ⟨c.scheduler, c.sessions, c.registry, .table table, rfl, ?_⟩
      intro u hu
      cases hu
      rfl

theorem enterLoad_of_needs (task : Nat)
    (h : purpose = .reload ∨ c.table = none) :
    c.enterLoad task purpose = c.setPhase task (.loading purpose) := by
  unfold enterLoad
  split
  · rfl
  · rename_i table hreload htable
    rcases h with rfl | hnone
    · exact absurd rfl hreload
    · rw [htable] at hnone
      cases hnone
  · rfl

theorem enterLoad_of_table {table : Shared} (task : Nat)
    (hpurpose : purpose ≠ .reload) (htable : c.table = some table) :
    c.enterLoad task purpose = c.release.deliverTable task purpose table := by
  unfold enterLoad
  rw [htable]
  cases purpose with
  | reload => exact absurd rfl hpurpose
  | _ => rfl

theorem fetch_cases (c : Client) (purpose : Purpose) :
    c.fetch purpose = (c.addTask (.queued purpose)).setPhase c.tasks.length
      (.finished (.failed .shutdown)) ∨
      (exists table, c.table = some table ∧
        c.fetch purpose =
          (c.addTask (.queued purpose)).deliverTable c.tasks.length
            purpose table) ∨
      ((purpose = .reload ∨ c.table = none) ∧
        c.fetch purpose =
          (c.addTask (.queued purpose)).awaitLoad c.tasks.length purpose) := by
  unfold fetch
  dsimp only
  split
  · rename_i table htable
    exact Or.inr (Or.inl ⟨table, htable, rfl⟩)
  · rename_i table htable
    split
    · exact Or.inl rfl
    · exact Or.inr (Or.inl ⟨table, htable, rfl⟩)
  · rename_i wish _ _ hserved hopened
    split
    · exact Or.inl rfl
    · refine Or.inr (Or.inr ⟨?_, rfl⟩)
      cases htable : c.table with
      | none => exact Or.inr rfl
      | some table =>
          cases wish with
          | table => exact (hserved table rfl htable).elim
          | session => exact (hopened table rfl htable).elim
          | reload => exact Or.inl rfl

inductive LoadStep (c : Client) : Event -> Client -> Prop where
  | beside {event : Event} {q : Client} (beside : Beside c q)
      (wishes : forall i, q.wish? i = c.wish? i)
      (other : forall task views purpose, event = .viewed task views ->
        c.phase? task ≠ some (.loading purpose)) : LoadStep c event q
  /-- A request is answered at once. -/
  | answered {purpose : Purpose} {outcome : Outcome} {q : Client}
      (loader : q.loader = c.loader)
      (waiters : q.waiters = c.waiters) (table : q.table = c.table)
      (tasks : q.tasks = c.tasks ++ [.finished outcome])
      (brought : forall u, outcome = .table u -> c.table = some u) :
      LoadStep c (.fetch purpose) q
  | waits {purpose : Purpose} {q : Client} (busy : c.loader ≠ none)
      (loader : q.loader = c.loader)
      (waiters : q.waiters = c.waiters ++ [c.tasks.length])
      (table : q.table = c.table)
      (tasks : q.tasks = c.tasks ++ [.queued purpose]) :
      LoadStep c (.fetch purpose) q
  | begins {purpose : Purpose} {q : Client} (free : c.loader = none)
      (loader : q.loader = some c.tasks.length)
      (waiters : q.waiters = c.waiters) (table : q.table = c.table)
      (tasks : q.tasks = c.tasks ++ [.loading purpose])
      (needs : purpose = .reload ∨ c.table = none) :
      LoadStep c (.fetch purpose) q
  /-- A task that has waited for its turn begins. -/
  | enters {task : Nat} {purpose : Purpose} {q : Client}
      (phase : c.phase? task = some (.queued purpose))
      (loader : q.loader = c.loader) (waiters : q.waiters = c.waiters)
      (table : q.table = c.table)
      (tasks : q.tasks = c.tasks.set task (.loading purpose))
      (needs : purpose = .reload ∨ c.table = none) :
      LoadStep c (.granted task) q
  /-- A task ends that had the turn. -/
  | leaves {task : Nat} {event : Event} {old : Phase} {outcome : Outcome}
      {q : Client}
      (turn : c.loader = some task) (phase : c.phase? task = some old)
      (loader : q.loader = c.waiters.head?)
      (waiters : q.waiters = c.waiters.tail)
      (tasks : q.tasks = c.tasks.set task (.finished outcome))
      (brought : forall u, outcome = .table u -> q.table = some u) :
      LoadStep c event q

theorem loadStep_fetch (c : Client) (purpose : Purpose) :
    LoadStep c (.fetch purpose) (c.fetch purpose) := by
  rcases fetch_cases c purpose with heq | ⟨table, htable, heq⟩ | ⟨hneeds, heq⟩
  · rw [heq, addTask_setPhase]
    exact LoadStep.answered rfl rfl rfl rfl nofun
  · rcases deliverTable_eq (c.addTask (.queued purpose)) c.tasks.length
        purpose table with
      ⟨scheduler, sessions, registry, outcome, hdelivered, hbrought⟩
    have htasks : (c.fetch purpose).tasks = c.tasks ++ [.finished outcome] := by
      rw [heq, hdelivered]
      exact congrArg Client.tasks
        (addTask_setPhase c (.queued purpose) (.finished outcome))
    rw [heq, hdelivered] at htasks ⊢
    refine LoadStep.answered rfl rfl rfl htasks ?_
    intro u hu
    rw [hbrought u hu]
    exact htable
  · rw [heq]
    unfold awaitLoad
    split
    · rename_i hfree
      let r : Client :=
        { c.addTask (.queued purpose) with loader := some c.tasks.length }
      have hbegun : r.enterLoad c.tasks.length purpose =
          r.setPhase c.tasks.length (.loading purpose) :=
        enterLoad_of_needs c.tasks.length hneeds
      rw [hbegun]
      refine LoadStep.begins hfree rfl rfl rfl ?_ hneeds
      exact congrArg Client.tasks
        (addTask_setPhase c (.queued purpose) (.loading purpose))
    · rename_i other hbusy
      refine LoadStep.waits ?_ rfl rfl rfl rfl
      change c.loader = some other at hbusy
      rw [hbusy]
      exact nofun

theorem loadStep_granted (hphase : c.phase? task = some (.queued purpose))
    (hturn : c.loader = some task) :
    LoadStep c (.granted task) (c.enterLoad task purpose) := by
  by_cases hneeds : purpose = .reload ∨ c.table = none
  · rw [enterLoad_of_needs task hneeds]
    exact LoadStep.enters hphase rfl rfl rfl rfl hneeds
  · rw [not_or] at hneeds
    rcases Option.ne_none_iff_exists'.mp hneeds.2 with ⟨table, htable⟩
    rcases deliverTable_eq c.release task purpose table with
      ⟨_, _, _, outcome, hdelivered, hbrought⟩
    rw [enterLoad_of_table task hneeds.1 htable, hdelivered]
    refine LoadStep.leaves hturn hphase rfl rfl rfl ?_
    intro u hu
    rw [hbrought u hu]
    exact htable

theorem loadStep_loaded (hc : c.InTurn)
    (hphase : c.phase? task = some (.loading purpose))
    (views : Discovery.Views) :
    LoadStep c (.viewed task views) (c.loaded task purpose views) := by
  have hturn : c.loader = some task := hc task purpose hphase
  cases hviews : views.canonical? with
  | none =>
      rw [loaded_of_none task purpose hviews]
      exact LoadStep.leaves hturn hphase rfl rfl rfl nofun
  | some table =>
      by_cases hpurpose : purpose = .reload
      · subst hpurpose
        rcases loaded_of_reload (c := c) task hviews with ⟨scheduler, heq⟩
        rcases updateSessions_eq (c.placed scheduler table)
          ⟨c.stamps, table⟩ with ⟨sessions, hupdated⟩
        rw [heq, hupdated]
        refine LoadStep.leaves hturn hphase rfl rfl rfl ?_
        intro u hu
        cases hu
        rfl
      · rcases loaded_of_first (c := c) task hpurpose hviews with
          ⟨scheduler, heq⟩
        rcases deliverTable_eq (c.placed scheduler table).release task purpose
            ⟨c.stamps, table⟩ with
          ⟨_, _, _, outcome, hdelivered, hbrought⟩
        rw [heq, hdelivered]
        refine LoadStep.leaves hturn hphase rfl rfl rfl ?_
        intro u hu
        rw [hbrought u hu]
        rfl

theorem loadStep_of_step (hc : c.InTurn) (h : c.step event = some q) :
    LoadStep c event q := by
  have hbeside (hfetch : forall purpose, event ≠ .fetch purpose)
      (hgranted : forall task, event ≠ .granted task)
      (hloaded : forall task views purpose, event = .viewed task views ->
        c.phase? task ≠ some (.loading purpose)) : LoadStep c event q := by
    have hq : Beside c q := beside_of_step h hfetch hgranted hloaded
    exact LoadStep.beside hq (wish?_of_step h hq hgranted hloaded) hloaded
  cases taken_of_step h with
  | fetch purpose => exact loadStep_fetch c purpose
  | granted phase turn => exact loadStep_granted phase turn
  | loaded views phase => exact loadStep_loaded hc phase views
  | refreshed views phase =>
      refine hbeside nofun nofun ?_
      intro i other purpose heq
      cases heq
      rw [phase]
      exact nofun
  | _ => exact hbeside nofun nofun nofun

/-!
## The line

As long as nobody has the turn, nobody waits for it, and while a task loads,
everybody else in the line waits.
-/

/-- Those who want to load.  The first one has the turn. -/
def line (c : Client) : List Nat :=
  c.loader.toList ++ c.waiters

/-- Everybody who wants to load stands in line once, and nobody else does.  Only
the first one loads. -/
structure Lined (c : Client) : Prop where
  turn : c.InTurn
  nodup : c.line.Nodup
  wishes : forall i, i ∈ c.line <-> (c.wish? i).isSome
  front : c.loader = none -> c.waiters = []

theorem lined_of_start {settings : Settings}
    (h : start settings = .ok c) : c.Lined := by
  have hnone : c.loader = none ∧ c.waiters = [] := by
    unfold start at h
    split at h <;> cases h
    exact ⟨rfl, rfl⟩
  have hline : c.line = [] := by rw [line, hnone.1, hnone.2]; rfl
  refine ⟨inTurn_of_start h, ?_, ?_, fun _ => hnone.2⟩
  · rw [hline]
    exact List.nodup_nil
  · intro i
    rw [hline, wish?, (fresh_of_start h).phase?_eq_none]
    simp

theorem Lined.lt (hc : c.Lined) (hi : i ∈ c.line) : i < c.tasks.length := by
  have hwish := (hc.wishes i).mp hi
  rcases Option.isSome_iff_exists.mp hwish with ⟨purpose, hpurpose⟩
  rcases Option.bind_eq_some_iff.mp hpurpose with ⟨phase, hphase, _⟩
  exact phase?_lt hphase

theorem Lined.same (hc : c.Lined) (hturn : q.InTurn)
    (hloader : q.loader = c.loader) (hwaiters : q.waiters = c.waiters)
    (hwishes : forall i, (q.wish? i).isSome = (c.wish? i).isSome) :
    q.Lined := by
  have hline : q.line = c.line := by rw [line, line, hloader, hwaiters]
  refine ⟨hturn, ?_, ?_, ?_⟩
  · rw [hline]
    exact hc.nodup
  · intro i
    rw [hline, hwishes]
    exact hc.wishes i
  · rw [hloader, hwaiters]
    exact hc.front

theorem Lined.joined (hc : c.Lined) (hturn : q.InTurn)
    (hline : q.line = c.line ++ [c.tasks.length])
    (htasks : q.tasks = c.tasks ++ [phase]) (hwish : phase.wish? = some purpose)
    (hloader : q.loader ≠ none) : q.Lined := by
  have hnew : c.tasks.length ∉ c.line := fun hi => Nat.lt_irrefl _ (hc.lt hi)
  refine ⟨hturn, ?_, ?_, fun hnone => absurd hnone hloader⟩
  · rw [hline, List.nodup_append]
    refine ⟨hc.nodup, by simp, ?_⟩
    intro i hi j hj heq
    rw [heq, List.mem_singleton.mp hj] at hi
    exact hnew hi
  · intro i
    rw [hline, List.mem_append, List.mem_singleton, hc.wishes,
      wish?_addTask htasks]
    split
    · rename_i heq
      rw [hwish]
      simp [heq]
    · rename_i hne
      simp [hne]

theorem Lined.step (hc : c.Lined) (h : c.step event = some q) : q.Lined := by
  have hturn : q.InTurn := hc.turn.step h
  cases loadStep_of_step hc.turn h with
  | beside beside wishes other =>
      exact hc.same hturn beside.loader beside.waiters (fun i => by rw [wishes])
  | answered loader waiters table tasks brought =>
      refine hc.same hturn loader waiters ?_
      intro i
      rw [wish?_addTask tasks]
      split
      · rename_i heq
        rw [heq, wish?_length]
        rfl
      · rfl
  | waits busy loader waiters table tasks =>
      refine hc.joined hturn ?_ tasks rfl (loader ▸ busy)
      rw [line, line, loader, waiters, List.append_assoc]
  | begins free loader waiters table tasks needs =>
      refine hc.joined hturn ?_ tasks rfl (by rw [loader]; exact nofun)
      rw [line, line, loader, waiters, free, hc.front free]
      rfl
  | @enters task purpose _ phase loader waiters table tasks needs =>
      refine hc.same hturn loader waiters ?_
      intro i
      rw [wish?_setPhase phase tasks]
      split
      · rename_i heq
        subst heq
        rw [wish?, phase]
        rfl
      · rfl
  | @leaves task _ old outcome _ turn phase loader waiters tasks brought =>
      have hline : c.line = task :: q.line := by
        rw [line, line, turn, loader, waiters]
        cases c.waiters <;> rfl
      have hnodup := hc.nodup
      rw [hline, List.nodup_cons] at hnodup
      refine ⟨hturn, hnodup.2, ?_, ?_⟩
      · intro i
        rw [wish?_setPhase phase tasks]
        split
        · rename_i heq
          rw [← heq]
          simp [hnodup.1, Phase.wish?]
        · rename_i hne
          rw [← hc.wishes, hline, List.mem_cons]
          simp [Ne.symm hne]
      · rw [loader, waiters, List.head?_eq_none_iff]
        intro hnil
        rw [hnil]
        rfl

theorem Lined.run (hc : c.Lined) (h : c.run events = some q) : q.Lined :=
  run_keeps h hc (fun hb hr => hb.step hr)

theorem InTurn.unique {other : Purpose} (hc : c.InTurn)
    (hi : c.phase? i = some (.loading purpose))
    (hj : c.phase? j = some (.loading other)) : i = j := by
  have hturn := hc i purpose hi
  rw [hc j other hj] at hturn
  exact (Option.some.inj hturn).symm

theorem Lined.not_queued (hc : c.Lined) (hfree : c.loader = none) (i : Nat)
    (purpose : Purpose) : c.phase? i ≠ some (.queued purpose) := by
  intro hi
  have hmember : i ∈ c.line := (hc.wishes i).mpr (by rw [wish?, hi]; rfl)
  rw [line, hfree, hc.front hfree] at hmember
  cases hmember

theorem Lined.queued (hc : c.Lined) (hi : c.phase? i = some (.loading purpose))
    (hj : j ∈ c.waiters) :
    i ≠ j ∧ exists next, c.phase? j = some (.queued next) := by
  have hne : i ≠ j := by
    rintro rfl
    have hnodup := hc.nodup
    rw [line, hc.turn i purpose hi] at hnodup
    exact (List.nodup_cons.mp hnodup).1 hj
  have hwish : (c.wish? j).isSome :=
    (hc.wishes j).mp (List.mem_append_right _ hj)
  rcases Option.isSome_iff_exists.mp hwish with ⟨next, hnext⟩
  rcases Option.bind_eq_some_iff.mp hnext with ⟨phase, hphase, hwished⟩
  refine ⟨hne, next, ?_⟩
  cases phase with
  | queued wish =>
      cases hwished
      exact hphase
  | loading wish => exact absurd (hc.turn.unique hi hphase) hne
  | _ => cases hwished

end Client
end SlotCluster
