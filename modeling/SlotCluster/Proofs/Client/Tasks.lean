import SlotCluster.Proofs.Client.Effects
import SlotCluster.Proofs.Client.Inversion

/-!
# Tasks of a client

A task changes its phase only at an event that is about it.  The end of the
client is the one exception: it abandons the refresh that the recurring task has
begun.
-/

namespace SlotCluster
namespace Client

variable {c q r : Client} {task i : Nat} {phase : Phase}

/-! ## Phases -/

theorem phase?_lt (h : c.phase? i = some phase) : i < c.tasks.length :=
  (List.getElem?_eq_some_iff.mp h).1

@[simp]
theorem phase?_setPhase (c : Client) (task i : Nat) (phase : Phase) :
    (c.setPhase task phase).phase? i =
      if task = i then (c.phase? i).map (fun _ => phase) else c.phase? i := by
  show (c.tasks.set task phase)[i]? = _
  rw [List.getElem?_set]
  by_cases h : task = i
  · subst h
    by_cases hlt : task < c.tasks.length
    · simp [phase?, hlt]
    · simp [phase?, hlt]
  · rw [if_neg h, if_neg h]
    rfl

theorem phase_of_setPhase {i : Nat} {new phase : Phase}
    (hi : (c.setPhase task new).phase? i = some phase) :
    (c.phase? i = some phase ∧ task ≠ i) ∨ (phase = new ∧ task = i) := by
  rw [phase?_setPhase] at hi
  split at hi
  · rename_i hsame
    rcases Option.map_eq_some_iff.mp hi with ⟨_, _, heq⟩
    exact Or.inr ⟨heq.symm, hsame⟩
  · rename_i hne
    exact Or.inl ⟨hi, hne⟩

theorem phase?_setPhase_self {old : Phase} (phase : Phase)
    (h : c.phase? task = some old) :
    (c.setPhase task phase).phase? task = some phase := by
  simp [h]

@[simp]
theorem phase?_addTask (c : Client) (phase : Phase) (i : Nat) :
    (c.addTask phase).phase? i =
      if i = c.tasks.length then some phase else c.phase? i := by
  show (c.tasks ++ [phase])[i]? = _
  by_cases h : i = c.tasks.length
  · subst h
    rw [if_pos rfl, List.getElem?_concat_length]
  · rw [if_neg h]
    by_cases hlt : i < c.tasks.length
    · exact List.getElem?_append_left hlt
    · have hlast : (c.tasks ++ [phase]).length ≤ i := by
        rw [List.length_append, List.length_singleton]
        omega
      rw [List.getElem?_eq_none hlast]
      exact (List.getElem?_eq_none (Nat.le_of_not_lt hlt)).symm

theorem phase?_addTask_of_some {new : Phase} (h : c.phase? i = some phase) :
    (c.addTask new).phase? i = some phase := by
  rw [phase?_addTask, if_neg (Nat.ne_of_lt (phase?_lt h))]
  exact h

theorem phase?_of_tasks (h : q.tasks = c.tasks) (i : Nat) :
    q.phase? i = c.phase? i :=
  congrArg (fun tasks => tasks[i]?) h

@[simp]
theorem tasks_modifySession (c : Client) (id : Nat) (f : Session -> Session) :
    (c.modifySession id f).tasks = c.tasks := by
  rcases c.modifySession_eq id f with ⟨sessions, heq⟩
  rw [heq]

@[simp]
theorem tasks_visitOne (c : Client) (tour : Tour) (id : Nat) :
    (c.visitOne tour id).1.tasks = c.tasks := by
  rcases c.visitOne_eq tour id with ⟨sessions, heq⟩
  rw [heq]

@[simp]
theorem tasks_leave (c : Client) (tour : Tour) (id : Nat) :
    (c.leave tour id).tasks = c.tasks := by
  cases tour <;> rfl

@[simp]
theorem tasks_informSessions (c : Client) (table : Shared) :
    (c.informSessions table).tasks = c.tasks := by
  rcases c.informSessions_eq table with ⟨sessions, heq⟩
  rw [heq]

@[simp]
theorem tasks_updateSessions (c : Client) (table : Shared) :
    (c.updateSessions table).tasks = c.tasks := by
  rcases c.updateSessions_eq table with ⟨sessions, heq⟩
  rw [heq]

@[simp]
theorem tasks_release (c : Client) : c.release.tasks = c.tasks :=
  rfl

/-! ## Tasks that are left alone -/

/-- No task but the given one, and new ones, has another phase. -/
structure Spares (task : Nat) (c q : Client) : Prop where
  kept : forall {i : Nat} {phase : Phase}, task ≠ i ->
    c.phase? i = some phase -> q.phase? i = some phase

namespace Spares

theorem of_tasks (h : q.tasks = c.tasks) : Spares task c q where
  kept _ hi := (phase?_of_tasks h _).trans hi

theorem same (hq : Spares task c q) (h : r.tasks = q.tasks) :
    Spares task c r where
  kept hne hi := (phase?_of_tasks h _).trans (hq.kept hne hi)

theorem setPhase (hq : Spares task c q) (phase : Phase) :
    Spares task c (q.setPhase task phase) where
  kept := by
    intro i old hne hi
    simp [hne]
    exact hq.kept hne hi

theorem addTask (hq : Spares task c q) (phase : Phase) :
    Spares task c (q.addTask phase) where
  kept hne hi := phase?_addTask_of_some (hq.kept hne hi)

theorem leave (hq : Spares task c q) (tour : Tour) (id : Nat) :
    Spares task c (q.leave tour id) :=
  hq.same (tasks_leave q tour id)

theorem visit (hq : Spares task c q) (tour : Tour) (ids : List Nat) :
    Spares task c (q.visit task tour ids) := by
  induction ids generalizing q with
  | nil => exact hq.setPhase _
  | cons id rest ih =>
      have hone : Spares task c (q.visitOne tour id).1 :=
        hq.same (tasks_visitOne q tour id)
      rcases visit_cons_cases q task tour id rest with
        heq | ⟨cleanup, _, heq⟩ | heq
      · rw [heq]
        exact ih hone
      · rw [heq]
        exact hone.setPhase _
      · rw [heq]
        exact ih (hone.leave tour id)

end Spares

structure Phase.Inner (K : Phase -> Prop) : Prop where
  queued : forall purpose, ¬ K (.queued purpose)
  refreshing :
    forall candidates scheduled, ¬ K (.refreshing candidates scheduled)
  spawned : forall sessions, ¬ K (.spawned sessions)
  finished : forall outcome, ¬ K (.finished outcome)

inductive Phase.IsTouring : Phase -> Prop where
  | intro (tour : Tour) (session cleanup : Nat) (rest : List Nat) :
      IsTouring (.touring tour session cleanup rest)

theorem Phase.IsTouring.inner : Phase.Inner Phase.IsTouring :=
  ⟨fun _ => nofun, fun _ _ => nofun, fun _ => nofun, fun _ => nofun⟩

variable {K : Phase -> Prop}

/-- Besides, no task has got into a phase of the given kind. -/
structure Plain (K : Phase -> Prop) (task : Nat) (c q : Client) :
    Prop extends Spares task c q where
  back : forall {i : Nat} {phase : Phase}, K phase -> q.phase? i = some phase ->
    c.phase? i = some phase

namespace Plain

theorem of_tasks (h : q.tasks = c.tasks) : Plain K task c q where
  toSpares := Spares.of_tasks h
  back _ hi := (phase?_of_tasks h _).symm.trans hi

theorem same (hq : Plain K task c q) (h : r.tasks = q.tasks) :
    Plain K task c r where
  toSpares := hq.toSpares.same h
  back hkind hi := hq.back hkind ((phase?_of_tasks h _).symm.trans hi)

theorem setPhase (hq : Plain K task c q) {phase : Phase} (hphase : ¬ K phase) :
    Plain K task c (q.setPhase task phase) where
  toSpares := hq.toSpares.setPhase phase
  back := by
    intro i new hkind hi
    rcases phase_of_setPhase hi with ⟨hold, _⟩ | ⟨rfl, _⟩
    · exact hq.back hkind hold
    · exact absurd hkind hphase

theorem addTask (hq : Plain K task c q) {phase : Phase} (hphase : ¬ K phase) :
    Plain K task c (q.addTask phase) where
  toSpares := hq.toSpares.addTask phase
  back := by
    intro i new hkind hi
    rw [phase?_addTask] at hi
    split at hi
    · cases hi
      exact absurd hkind hphase
    · exact hq.back hkind hi

section Inner

variable (hK : Phase.Inner K)

include hK

theorem openSession (hq : Plain K task c q) (table : Shared) :
    Plain K task c (q.openSession task table) := by
  rcases openSession_eq q task table with ⟨scheduler, heq⟩
  rw [heq]
  refine setPhase (hq.same ?_) (hK.finished _)
  rfl

theorem deliverTable (hq : Plain K task c q) (purpose : Purpose)
    (table : Shared) : Plain K task c (q.deliverTable task purpose table) := by
  cases purpose with
  | session => exact openSession hK hq table
  | _ => exact hq.setPhase (hK.finished _)

theorem enterLoad (hload : forall purpose, ¬ K (.loading purpose))
    (hq : Plain K task c q) (purpose : Purpose) :
    Plain K task c (q.enterLoad task purpose) := by
  unfold Client.enterLoad
  split
  · exact hq.setPhase (hload _)
  · exact deliverTable hK (hq.same (tasks_release q)) _ _
  · exact hq.setPhase (hload _)

theorem awaitLoad (hload : forall purpose, ¬ K (.loading purpose))
    (hq : Plain K task c q) (purpose : Purpose) :
    Plain K task c (q.awaitLoad task purpose) := by
  unfold Client.awaitLoad
  split
  · refine enterLoad hK hload (hq.same ?_) purpose
    rfl
  · exact hq.same rfl

theorem fetch (hload : forall purpose, ¬ K (.loading purpose)) (c : Client)
    (purpose : Purpose) : Plain K c.tasks.length c (c.fetch purpose) := by
  have hadd : Plain K c.tasks.length c (c.addTask (.queued purpose)) :=
    (of_tasks rfl).addTask (hK.queued _)
  unfold Client.fetch
  dsimp only
  split
  · exact deliverTable hK hadd _ _
  · split
    · exact hadd.setPhase (hK.finished _)
    · exact deliverTable hK hadd _ _
  · split
    · exact hadd.setPhase (hK.finished _)
    · exact awaitLoad hK hload hadd _

theorem loaded (c : Client) (task : Nat) (purpose : Purpose)
    (views : Discovery.Views) :
    Plain K task c (c.loaded task purpose views) := by
  cases hviews : views.canonical? with
  | none =>
      rw [loaded_of_none task purpose hviews]
      exact (of_tasks (tasks_release c)).setPhase (hK.finished _)
  | some table =>
      by_cases hpurpose : purpose = .reload
      · subst hpurpose
        rcases loaded_of_reload (c := c) task hviews with ⟨scheduler, heq⟩
        rw [heq]
        refine setPhase (of_tasks ?_) (hK.finished _)
        exact tasks_updateSessions (c.placed scheduler table) _
      · rcases loaded_of_first (c := c) task hpurpose hviews with
          ⟨scheduler, heq⟩
        rw [heq]
        refine deliverTable hK (of_tasks ?_) purpose _
        rfl

theorem startSweep (hq : Plain K task c q) : Plain K task c q.startSweep := by
  unfold Client.startSweep
  split
  · exact hq.addTask (hK.spawned _)
  · exact hq

theorem refreshed (c : Client) (task : Nat) (scheduled : Bool)
    (views : Discovery.Views) :
    Plain K task c (c.refreshed task scheduled views) := by
  rcases refreshed_cases c task scheduled views with
    ⟨scheduler, ⟨_, heq⟩ | ⟨table, _, _, heq⟩⟩
  · rw [heq]
    refine setPhase (of_tasks ?_) (hK.finished _)
    rfl
  · rw [heq]
    refine setPhase (startSweep hK (of_tasks ?_)) (hK.finished _)
    exact tasks_informSessions (c.placed scheduler table) _

theorem refresh (hq : Plain K task c q) (scheduled : Bool) :
    Plain K task c (q.refresh scheduled) := by
  unfold Client.refresh
  split
  · exact hq.addTask (hK.refreshing _ _)
  · exact hq.addTask (hK.finished _)

theorem visit
    (htour : forall tour session cleanup rest,
      ¬ K (.touring tour session cleanup rest))
    (hq : Plain K task c q) (tour : Tour) (ids : List Nat) :
    Plain K task c (q.visit task tour ids) := by
  induction ids generalizing q with
  | nil => exact hq.setPhase (hK.finished _)
  | cons id rest ih =>
      have hone : Plain K task c (q.visitOne tour id).1 :=
        hq.same (tasks_visitOne q tour id)
      rcases visit_cons_cases q task tour id rest with
        heq | ⟨cleanup, _, heq⟩ | heq
      · rw [heq]
        exact ih hone
      · rw [heq]
        exact hone.setPhase (htour tour id cleanup rest)
      · rw [heq]
        exact ih (hone.same (tasks_leave _ tour id))

end Inner

end Plain

/-! ## Every step -/

def Event.task? : Event -> Option Nat
  | .granted task => some task
  | .viewed task _ => some task
  | .begin task => some task
  | .cleaned task => some task
  | _ => none

theorem phase?_abandonScheduled (hi : c.phase? i = some phase)
    (hphase : forall candidates, phase ≠ .refreshing candidates true) :
    c.abandonScheduled.phase? i = some phase := by
  show (c.tasks.map _)[i]? = _
  rw [List.getElem?_map]
  show (c.phase? i).map _ = _
  rw [hi, Option.map_some]
  congr 1
  split
  · rename_i candidates
    exact absurd rfl (hphase candidates)
  · rfl

theorem phase?_of_abandonScheduled
    (hi : c.abandonScheduled.phase? i = some phase)
    (hphase : forall outcome, phase ≠ .finished outcome) :
    c.phase? i = some phase := by
  change (c.tasks.map _)[i]? = _ at hi
  rw [List.getElem?_map] at hi
  rcases Option.map_eq_some_iff.mp hi with ⟨old, hold, heq⟩
  split at heq
  · exact absurd heq.symm (hphase _)
  · rw [← heq]
    exact hold

theorem phase?_shutdown (hi : c.phase? i = some phase)
    (hphase : forall candidates, phase ≠ .refreshing candidates true) :
    c.shutdown.phase? i = some phase := by
  have hne : c.tasks.length ≠ i := Nat.ne_of_gt (phase?_lt hi)
  unfold shutdown
  dsimp only
  split
  · have habandoned :=
      phase?_abandonScheduled
        (c :=
          { c with
            isActive := false
            scheduler := c.scheduler.cancel
            registry := [] }) hi hphase
    exact (((Spares.of_tasks rfl).addTask _).visit .shutdown c.registry).kept
      hne habandoned
  · exact phase?_addTask_of_some hi

/-- A task stays in its phase until an event is about it. -/
theorem phase?_of_step {event : Event} (h : c.step event = some q)
    (hi : c.phase? i = some phase) (hother : event.task? ≠ some i)
    (hphase : forall candidates, phase ≠ .refreshing candidates true) :
    q.phase? i = some phase := by
  have hinner := Phase.IsTouring.inner
  have hnew : c.tasks.length ≠ i := Nat.ne_of_gt (phase?_lt hi)
  have hne {task : Nat} (htask : event.task? = some task) : task ≠ i := by
    intro heq
    rw [htask, heq] at hother
    exact hother rfl
  cases taken_of_step h with
  | fetch purpose =>
      exact (Plain.fetch hinner (fun _ => nofun) c purpose).kept hnew hi
  | granted _ _ =>
      exact (Plain.enterLoad hinner (fun _ => nofun) (Plain.of_tasks rfl)
        _).kept (hne rfl) hi
  | setTable table => exact hi
  | refresh =>
      exact (Plain.refresh hinner (Plain.of_tasks rfl) false).kept hnew hi
  | loaded views _ => exact (Plain.loaded hinner c _ _ views).kept (hne rfl) hi
  | refreshed views _ =>
      exact (Plain.refreshed hinner c _ _ views).kept (hne rfl) hi
  | begin _ => exact ((Spares.of_tasks rfl).visit .sweep _).kept (hne rfl) hi
  | waiting _ _ _ _ =>
      exact (Spares.of_tasks (tasks_modifySession ..)).kept hnew hi
  | toured _ _ _ =>
      refine Spares.kept
        (Spares.visit
          (Spares.leave (Spares.setPhase (Spares.of_tasks ?_) _) _ _) _ _)
        (hne rfl) hi
      exact tasks_modifySession ..
  | cleaned _ _ _ =>
      refine Spares.kept
        (Spares.setPhase (Spares.setPhase (Spares.of_tasks ?_) _) _)
        (hne rfl) hi
      exact tasks_modifySession ..
  | shutdown => exact phase?_shutdown hi hphase
  | closeSession id =>
      exact (((Spares.of_tasks rfl).addTask _).visit .close [id]).kept hnew hi
  | sweepSession _ =>
      exact ((Spares.of_tasks (tasks_modifySession ..)).addTask _).kept hnew hi
  | drainSession _ =>
      exact ((Spares.of_tasks (tasks_modifySession ..)).addTask _).kept hnew hi
  | session _ _ => exact (Spares.of_tasks (tasks_modifySession ..)).kept hnew hi
  | beginTicks scheduler => exact hi
  | tick scheduler => exact hi
  | round scheduler =>
      have hscheduled :
          Plain Phase.IsTouring c.tasks.length c { c with scheduler } :=
        Plain.of_tasks rfl
      exact (Plain.refresh hinner hscheduled true).kept hnew hi
  | reordered perm => exact hi
  | letGo => exact hi

inductive Event.Suits (task : Nat) : Event -> Phase -> Prop where
  | granted (purpose : Purpose) : Suits task (.granted task) (.queued purpose)
  | loaded (views : Discovery.Views) (purpose : Purpose) :
      Suits task (.viewed task views) (.loading purpose)
  | refreshed (views : Discovery.Views) (candidates : List Endpoint)
      (scheduled : Bool) :
      Suits task (.viewed task views) (.refreshing candidates scheduled)
  | begin (sessions : List Nat) : Suits task (.begin task) (.spawned sessions)
  | toured (tour : Tour) (session cleanup : Nat) (rest : List Nat) :
      Suits task (.cleaned task) (.touring tour session cleanup rest)
  | cleaned (session cleanup : Nat) (counts : Bool) :
      Suits task (.cleaned task) (.cleaning session cleanup counts)

theorem suits_of_step {event : Event} (h : c.step event = some q)
    (htask : event.task? = some i) (hi : c.phase? i = some phase) :
    event.Suits i phase := by
  have hsame {old : Phase} (hold : c.phase? i = some old) : phase = old := by
    rw [hi] at hold
    exact Option.some.inj hold
  cases taken_of_step h with
  | granted found _ =>
      cases htask
      rw [hsame found]
      exact Event.Suits.granted _
  | loaded views found =>
      cases htask
      rw [hsame found]
      exact Event.Suits.loaded views _
  | refreshed views found =>
      cases htask
      rw [hsame found]
      exact Event.Suits.refreshed views _ _
  | begin found =>
      cases htask
      rw [hsame found]
      exact Event.Suits.begin _
  | @waiting _ _ _ old _ _ found waits _ _ =>
      cases htask
      rw [hsame found]
      cases old with
      | touring tour session cleanup rest => exact Event.Suits.toured ..
      | cleaning session cleanup counts => exact Event.Suits.cleaned ..
      | _ => cases waits
  | toured found _ _ =>
      cases htask
      rw [hsame found]
      exact Event.Suits.toured ..
  | cleaned found _ _ =>
      cases htask
      rw [hsame found]
      exact Event.Suits.cleaned ..
  | _ => cases htask

theorem finished_of_step {event : Event} {outcome : Outcome}
    (h : c.step event = some q) (hi : c.phase? i = some (.finished outcome)) :
    q.phase? i = some (.finished outcome) := by
  apply phase?_of_step h hi
  · intro htask
    cases suits_of_step h htask hi
  · exact nofun

end Client
end SlotCluster
