import SlotCluster.Proofs.Client.Sessions
import SlotCluster.Proofs.Client.Tasks

/-!
# What a step does to the sessions

Most steps leave the registry and the tours alone.  The others open a session,
turn one away that was opened too late, or let a tour begin or go on.
`deed_of_step` says so for every step, and together with the pools of the
sessions this is all that the properties of whole runs need to know of a step.
-/

namespace SlotCluster
namespace Client

variable {c q r : Client} {heard : Nat -> Shared -> Prop} {task id : Nat}
  {tour : Tour} {event : Event}

theorem grown_cleaned {told : Shared -> Prop} {cleanup : Nat} {s : Session}
    {pool : Pool} (hs : c.session? id = some s)
    (hstep : s.pool.step (.cleaned cleanup) = some pool) (r : Session)
    (hr : c.session? id = some r) : r.Grown told (r.withPool pool) := by
  rw [hs] at hr
  cases hr
  exact Session.Grown.of_event (.cleaned cleanup) hstep rfl nofun

theorem carried_cleaned {cleanup : Nat} {s : Session} {pool : Pool}
    (hs : c.session? id = some s)
    (hstep : s.pool.step (.cleaned cleanup) = some pool) :
    Carried heard c (c.modifySession id (fun s => s.withPool pool)) :=
  Carried.modify (grown_cleaned hs hstep)

/-!
## Visits

The rest of a tour goes on from the client that the first visit leaves.
-/

theorem carried_visitOne (c : Client) (tour : Tour) (id : Nat) :
    Carried heard c (c.visitOne tour id).1 := by
  have hsweep :
      Carried heard c
        (c.modifySession id
          (fun s => s.withPool (s.pool.sweep s.pool.table.table))) :=
    Carried.modify
      (fun s _ =>
        Session.Grown.of_event (.sweep s.pool.table.table) rfl rfl nofun)
  have hclose : Carried heard c (c.modifySession id Session.close) :=
    Carried.modify (fun s _ => Session.Grown.close s)
  unfold visitOne
  cases hs : c.session? id with
  | none => exact Carried.of_sessions rfl
  | some s =>
      cases tour with
      | sweep => exact hsweep
      | _ =>
          dsimp only
          split
          · exact Carried.of_sessions rfl
          · exact hclose

@[simp]
theorem sessions_leave (c : Client) (tour : Tour) (id : Nat) :
    (c.leave tour id).sessions = c.sessions := by
  cases tour <;> rfl

theorem carried_visit_cons {rest : List Nat}
    (hrest : forall r : Client, Carried heard r (r.visit task tour rest)) :
    Carried heard (c.visitOne tour id).1 (c.visit task tour (id :: rest)) := by
  rcases visit_cons_cases c task tour id rest with heq | ⟨cleanup, _, heq⟩ | heq
  · rw [heq]
    exact hrest _
  · rw [heq]
    exact Carried.of_sessions rfl
  · rw [heq]
    exact (Carried.of_sessions (sessions_leave _ tour id)).trans (hrest _)

theorem carried_visit (c : Client) (task : Nat) (tour : Tour) (ids : List Nat) :
    Carried heard c (c.visit task tour ids) := by
  induction ids generalizing c with
  | nil => exact Carried.of_sessions rfl
  | cons id rest ih =>
      exact (carried_visitOne c tour id).trans (carried_visit_cons ih)

/-! ## New sessions -/

structure Still (c q : Client) : Prop where
  sessions : q.sessions = c.sessions
  registry : q.registry = c.registry
  active : q.isActive = c.isActive

structure Opens (c q : Client) : Prop where
  sessions : exists table fallback timeout, q.table = some table ∧
    q.sessions = c.sessions ++ [arrival c.isActive table fallback timeout]
  registry : q.registry = c.enrolled
  active : q.isActive = c.isActive

theorem Opens.of_still (hr : Still c r) (hq : Opens r q) : Opens c q where
  sessions := by
    rw [← hr.sessions, ← hr.active]
    exact hq.sessions
  registry := by
    rw [hq.registry, enrolled, enrolled, hr.sessions, hr.registry, hr.active]
  active := hq.active.trans hr.active

theorem Still.trans (hr : Still c r) (hq : Still r q) : Still c q where
  sessions := hq.sessions.trans hr.sessions
  registry := hq.registry.trans hr.registry
  active := hq.active.trans hr.active

theorem still_or_opens_deliverTable (hr : Still c r) (task : Nat)
    (purpose : Purpose) {table : Shared} (htable : r.table = some table) :
    Still c (r.deliverTable task purpose table) ∨
      Opens c (r.deliverTable task purpose table) := by
  cases purpose with
  | session =>
      rcases openSession_eq r task table with ⟨scheduler, heq⟩
      refine Or.inr (Opens.of_still hr ?_)
      show Opens r (r.openSession task table)
      rw [heq]
      exact ⟨⟨table, r.firstSeed, r.timeout, htable, rfl⟩, rfl, rfl⟩
  | _ => exact Or.inl (hr.trans ⟨rfl, rfl, rfl⟩)

theorem still_or_opens_enterLoad (hr : Still c r) (task : Nat)
    (purpose : Purpose) :
    Still c (r.enterLoad task purpose) ∨
      Opens c (r.enterLoad task purpose) := by
  unfold enterLoad
  split
  · exact Or.inl (hr.trans ⟨rfl, rfl, rfl⟩)
  · rename_i table _ htable
    have hreleased : Still c r.release := hr.trans ⟨rfl, rfl, rfl⟩
    exact still_or_opens_deliverTable hreleased task _ htable
  · exact Or.inl (hr.trans ⟨rfl, rfl, rfl⟩)

theorem still_or_opens_awaitLoad (hr : Still c r) (task : Nat)
    (purpose : Purpose) :
    Still c (r.awaitLoad task purpose) ∨
      Opens c (r.awaitLoad task purpose) := by
  unfold awaitLoad
  split
  · have hturn : Still c { r with loader := some task } :=
      hr.trans ⟨rfl, rfl, rfl⟩
    exact still_or_opens_enterLoad hturn task purpose
  · exact Or.inl (hr.trans ⟨rfl, rfl, rfl⟩)

theorem still_or_opens_fetch (c : Client) (purpose : Purpose) :
    Still c (c.fetch purpose) ∨ Opens c (c.fetch purpose) := by
  have hadded : Still c (c.addTask (.queued purpose)) := ⟨rfl, rfl, rfl⟩
  unfold fetch
  dsimp only
  split
  · rename_i table htable
    exact still_or_opens_deliverTable hadded _ _ htable
  · rename_i table htable
    split
    · exact Or.inl ⟨rfl, rfl, rfl⟩
    · exact still_or_opens_deliverTable hadded _ _ htable
  · split
    · exact Or.inl ⟨rfl, rfl, rfl⟩
    · exact still_or_opens_awaitLoad hadded _ _

/-! ## Tables that are handed out -/

/-- The tables that an event lets the pool of a session hear of. -/
def Handover.Tells (h : Handover) (c : Client) (id : Nat) (u : Shared) : Prop :=
  match h with
  | .mend table => id ∈ c.registry ∧ u = ⟨c.stamps, table⟩
  | .spread table => id ∈ c.registry ∧ u = ⟨c.stamps, table⟩
  | .lend other table => other = id ∧ u = table
  | _ => False

theorem carried_updateSessions (table : Shared)
    (hheard : forall {id : Nat}, id ∈ c.registry -> heard id table) :
    Carried heard c (c.updateSessions table) := by
  apply Carried.foldl
  intro id hid s
  split
  · exact Session.Grown.of_event
      (.apply table) rfl rfl (fun hu => Option.some.inj hu ▸ hheard hid)
  · exact Session.Grown.refl s

theorem carried_informSessions (table : Shared)
    (hheard : forall {id : Nat}, id ∈ c.registry -> heard id table) :
    Carried heard c (c.informSessions table) := by
  apply Carried.foldl
  intro id hid s
  exact Session.Grown.of_event
    (.apply table) rfl rfl (fun hu => Option.some.inj hu ▸ hheard hid)

/-! ## Kinds of steps -/

inductive Phase.IsTour : Phase -> Prop where
  | spawned (sessions : List Nat) : IsTour (.spawned sessions)
  | touring (tour : Tour) (session cleanup : Nat) (rest : List Nat) :
      IsTour (.touring tour session cleanup rest)

/-- The tasks that visit sessions go on as before, and no task has begun to do
so. -/
structure SameTours (c q : Client) : Prop where
  kept : forall {i : Nat} {phase : Phase}, phase.IsTour ->
    c.phase? i = some phase -> q.phase? i = some phase
  back : forall {i : Nat} {phase : Phase}, phase.IsTouring ->
    q.phase? i = some phase -> c.phase? i = some phase

theorem SameTours.of_plain (h : Plain Phase.IsTouring task c q)
    (htask : forall {phase : Phase}, c.phase? task = some phase ->
      ¬ phase.IsTour) : SameTours c q where
  kept htour hi := by
    refine h.kept ?_ hi
    intro heq
    subst heq
    exact htask hi htour
  back := h.back

theorem SameTours.of_tasks (h : q.tasks = c.tasks) : SameTours c q where
  kept _ hi := (phase?_of_tasks h _).trans hi
  back _ hi := (phase?_of_tasks h _).symm.trans hi

inductive Deed (c : Client) : Event -> Client -> Prop where
  | calm {event : Event} {q : Client}
      (sessions : Carried ((c.handover event).Tells c) c q)
      (registry : q.registry.Perm c.registry) (active : q.isActive = c.isActive)
      (tours : SameTours c q) : Deed c event q
  | opens {event : Event} {q : Client} (opens : Opens c q)
      (tours : SameTours c q) : Deed c event q
  | begin {task : Nat} {sessions : List Nat}
      (phase : c.phase? task = some (.spawned sessions)) :
      Deed c (.begin task) (c.visit task .sweep sessions)
  | toured {task id cleanup : Nat} {tour : Tour} {rest : List Nat} {s : Session}
      {pool : Pool}
      (phase : c.phase? task = some (.touring tour id cleanup rest))
      (session : c.session? id = some s)
      (stepped : s.pool.step (.cleaned cleanup) = some pool) :
      Deed c (.cleaned task)
        ((((c.modifySession id (fun s => s.withPool pool)).setPhase task
          (.finished .done)).leave tour id).visit
          task tour rest)
  | shutdown : Deed c .shutdown c.shutdown
  | closeSession (id : Nat) :
      Deed c (.closeSession id)
        ((c.addTask (.spawned [])).visit c.tasks.length .close [id])

def Rooted (c : Client) : Prop :=
  forall id s, c.session? id = some s -> s.Rooted

theorem registry_modifySession (c : Client) (id : Nat)
    (f : Session -> Session) :
    (c.modifySession id f).registry = c.registry ∧
      (c.modifySession id f).isActive = c.isActive := by
  rcases c.modifySession_eq id f with ⟨sessions, heq⟩
  rw [heq]
  exact ⟨rfl, rfl⟩

theorem Deed.of_still (hq : Still c q) (htours : SameTours c q) :
    Deed c event q :=
  Deed.calm (Carried.of_sessions hq.sessions) (.of_eq hq.registry)
    hq.active htours

theorem Deed.of_still_or_opens (h : Still c q ∨ Opens c q)
    (htours : SameTours c q) : Deed c event q := by
  rcases h with hstill | hopens
  · exact Deed.of_still hstill htours
  · exact Deed.opens hopens htours

theorem Deed.of_modify {f : Session -> Session} (htours : SameTours c q)
    (hq : Still (c.modifySession id f) q)
    (hf : forall s, c.session? id = some s ->
      s.Grown ((c.handover event).Tells c id) (f s)) : Deed c event q := by
  rcases registry_modifySession c id f with ⟨hregistry, hactive⟩
  have hcarried :
      Carried ((c.handover event).Tells c) c (c.modifySession id f) :=
    Carried.modify hf
  exact Deed.calm (hcarried.trans (Carried.of_sessions hq.sessions))
    (.of_eq (hq.registry.trans hregistry)) (hq.active.trans hactive) htours

theorem deed_of_loaded {purpose : Purpose} (views : Discovery.Views)
    (hphase : c.phase? task = some (.loading purpose))
    (htours : SameTours c (c.loaded task purpose views)) :
    Deed c (.viewed task views) (c.loaded task purpose views) := by
  cases hviews : views.canonical? with
  | none =>
      rw [loaded_of_none task purpose hviews] at htours ⊢
      exact Deed.of_still ⟨rfl, rfl, rfl⟩ htours
  | some table =>
      by_cases hpurpose : purpose = .reload
      · subst hpurpose
        rcases loaded_of_reload (c := c) task hviews with ⟨scheduler, heq⟩
        rw [heq] at htours ⊢
        rcases updateSessions_eq (c.placed scheduler table)
          ⟨c.stamps, table⟩ with ⟨sessions, hupdated⟩
        have hcarried : Carried ((c.handover (.viewed task views)).Tells c)
            (c.placed scheduler table)
            ((c.placed scheduler table).updateSessions ⟨c.stamps, table⟩) := by
          refine carried_updateSessions _ (fun hid => ?_)
          rw [handover_of_loading hphase hviews]
          exact ⟨hid, rfl⟩
        rw [hupdated] at hcarried htours ⊢
        exact Deed.calm ⟨hcarried.length, hcarried.grown⟩ .rfl rfl htours
      · rcases loaded_of_first (c := c) task hpurpose hviews with
          ⟨scheduler, heq⟩
        rw [heq] at htours ⊢
        have hplaced : Still c (c.placed scheduler table).release :=
          ⟨rfl, rfl, rfl⟩
        exact Deed.of_still_or_opens
          (still_or_opens_deliverTable hplaced task purpose rfl) htours

theorem deed_of_refreshed {candidates : List Endpoint} {scheduled : Bool}
    (views : Discovery.Views)
    (hphase : c.phase? task = some (.refreshing candidates scheduled))
    (htours : SameTours c (c.refreshed task scheduled views)) :
    Deed c (.viewed task views) (c.refreshed task scheduled views) := by
  rcases refreshed_cases c task scheduled views with
    ⟨scheduler, ⟨_, heq⟩ | ⟨table, hviews, hnews, heq⟩⟩
  · rw [heq] at htours ⊢
    exact Deed.of_still ⟨rfl, rfl, rfl⟩ htours
  · rw [heq] at htours ⊢
    rcases informSessions_eq (c.placed scheduler table) ⟨c.stamps, table⟩ with
      ⟨sessions, htold⟩
    have hcarried : Carried ((c.handover (.viewed task views)).Tells c)
        (c.placed scheduler table)
        ((c.placed scheduler table).informSessions ⟨c.stamps, table⟩) := by
      refine carried_informSessions _ (fun hid => ?_)
      rw [handover_of_refreshing hphase hviews, if_pos hnews]
      exact ⟨hid, rfl⟩
    rw [htold] at hcarried htours ⊢
    have hstarted (r : Client) : Still r r.startSweep := by
      unfold startSweep
      split <;> exact ⟨rfl, rfl, rfl⟩
    have hstill := hstarted { c.placed scheduler table with sessions }
    have hswept := hcarried.trans (Carried.of_sessions hstill.sessions)
    exact Deed.calm ⟨hswept.length, hswept.grown⟩ (.of_eq hstill.registry)
      hstill.active htours

theorem still_refresh (hr : Still c r) (scheduled : Bool) :
    Still c (r.refresh scheduled) := by
  unfold refresh
  split <;> exact hr.trans ⟨rfl, rfl, rfl⟩

theorem CleaningPhase.not_touring {phase : Phase} (h : CleaningPhase id phase) :
    ¬ phase.IsTouring := by
  intro htouring
  cases h <;> cases htouring

theorem deed_of_step (hc : c.Rooted) (h : c.step event = some q) :
    Deed c event q := by
  have hinner := Phase.IsTouring.inner
  have hnew {q : Client} (hq : Plain Phase.IsTouring c.tasks.length c q) :
      SameTours c q :=
    SameTours.of_plain hq (fun hi => absurd (phase?_lt hi) (Nat.lt_irrefl _))
  have hown {q : Client} {task : Nat} {phase : Phase}
      (hphase : c.phase? task = some phase) (hnone : ¬ phase.IsTour)
      (hq : Plain Phase.IsTouring task c q) : SameTours c q := by
    refine SameTours.of_plain hq (fun hi => ?_)
    rw [hphase] at hi
    cases hi
    exact hnone
  cases taken_of_step h with
  | fetch purpose =>
      have hplain := Plain.fetch hinner (fun _ => nofun) c purpose
      exact Deed.of_still_or_opens (still_or_opens_fetch c purpose)
        (hnew hplain)
  | granted phase _ =>
      refine Deed.of_still_or_opens
        (still_or_opens_enterLoad ⟨rfl, rfl, rfl⟩ _ _) ?_
      exact hown phase
        nofun (Plain.enterLoad hinner (fun _ => nofun) (Plain.of_tasks rfl) _)
  | setTable table =>
      exact Deed.of_still ⟨rfl, rfl, rfl⟩ (SameTours.of_tasks rfl)
  | refresh =>
      have hplain : Plain Phase.IsTouring c.tasks.length c (c.refresh false) :=
        Plain.refresh hinner (Plain.of_tasks rfl) false
      exact Deed.of_still (still_refresh ⟨rfl, rfl, rfl⟩ false) (hnew hplain)
  | loaded views phase =>
      exact deed_of_loaded views phase
        (hown phase nofun (Plain.loaded hinner ..))
  | refreshed views phase =>
      exact deed_of_refreshed views phase
        (hown phase nofun (Plain.refreshed hinner ..))
  | begin phase => exact Deed.begin phase
  | @waiting task id cleanup phase s pool found waits session stepped =>
      refine Deed.of_modify (SameTours.of_tasks (tasks_modifySession ..))
        ⟨rfl, rfl, rfl⟩ ?_
      exact grown_cleaned session stepped
  | toured phase session stepped => exact Deed.toured phase session stepped
  | @cleaned task id cleanup counts s pool outcome phase session stepped =>
      refine Deed.of_modify (hown phase nofun ?_) ⟨rfl, rfl, rfl⟩
        (grown_cleaned session stepped)
      refine Plain.setPhase (Plain.setPhase (Plain.of_tasks ?_) ?_) ?_
      · exact tasks_modifySession ..
      · exact nofun
      · exact nofun
  | shutdown => exact Deed.shutdown
  | closeSession id => exact Deed.closeSession id
  | @sweepSession id table phase kind =>
      refine Deed.of_modify (hnew ?_) ⟨rfl, rfl, rfl⟩ (fun s _ => ?_)
      · exact Plain.addTask (Plain.of_tasks (tasks_modifySession ..))
          kind.not_touring
      · exact Session.Grown.of_event (.sweep (table.getD s.pool.table.table))
          rfl rfl nofun
  | drainSession kind =>
      refine Deed.of_modify (hnew ?_) ⟨rfl, rfl, rfl⟩ (fun s _ => ?_)
      · exact Plain.addTask (Plain.of_tasks (tasks_modifySession ..))
          kind.not_touring
      · exact Session.Grown.of_event .drain rfl rfl nofun
  | @session id event s t found stepped =>
      refine Deed.of_modify (SameTours.of_tasks (tasks_modifySession ..))
        ⟨rfl, rfl, rfl⟩ (fun r hr => ?_)
      rw [found] at hr
      cases hr
      refine (grown_of_stepSession (hc id s found) stepped).mono (fun hu => ?_)
      rw [handover_session, hu]
      exact ⟨rfl, rfl⟩
  | beginTicks scheduler =>
      exact Deed.of_still ⟨rfl, rfl, rfl⟩ (SameTours.of_tasks rfl)
  | tick scheduler =>
      exact Deed.of_still ⟨rfl, rfl, rfl⟩ (SameTours.of_tasks rfl)
  | round scheduler =>
      have hscheduled :
          Plain Phase.IsTouring c.tasks.length c { c with scheduler } :=
        Plain.of_tasks rfl
      have hstill : Still c { c with scheduler } := ⟨rfl, rfl, rfl⟩
      exact Deed.of_still (still_refresh hstill true)
        (hnew (Plain.refresh hinner hscheduled true))
  | reordered perm =>
      exact Deed.calm (Carried.of_sessions rfl) perm
        rfl (SameTours.of_tasks rfl)
  | letGo => exact Deed.of_still ⟨rfl, rfl, rfl⟩ (SameTours.of_tasks rfl)

/-! ## Sessions after a step -/

/-- Every session has grown, and those that are new have just been opened. -/
structure Extends (heard : Nat -> Shared -> Prop) (c q : Client) : Prop where
  grown : forall {id : Nat} {s : Session}, c.session? id = some s ->
    exists t, q.session? id = some t ∧ s.Grown (heard id) t
  fresh : forall {id : Nat} {t : Session}, c.session? id = none ->
    q.session? id = some t ->
    exists table fallback timeout,
      q.table = some table ∧ t = arrival c.isActive table fallback timeout

theorem Carried.extends (h : Carried heard c q) : Extends heard c q where
  grown := h.grown
  fresh := by
    intro id t hnone ht
    rcases h.back ht with ⟨s, hs, _⟩
    rw [hnone] at hs
    cases hs

theorem session?_of_append {t : Session} (h : q.sessions = c.sessions ++ [t])
    (id : Nat) :
    q.session? id =
      if id = c.sessions.length + 1 then some t else c.session? id := by
  rw [← session?_append]
  cases id with
  | zero => rfl
  | succ n =>
      show q.sessions[n]? = _
      rw [h]
      rfl

theorem Opens.extends (h : Opens c q) : Extends heard c q := by
  rcases h.sessions with ⟨table, fallback, timeout, htable, hsessions⟩
  have hlast : c.session? (c.sessions.length + 1) = none := by
    show c.sessions[c.sessions.length]? = none
    rw [List.getElem?_eq_none (Nat.le_refl _)]
  constructor
  · intro id s hs
    refine ⟨s, ?_, Session.Grown.refl s⟩
    rw [session?_of_append hsessions, if_neg]
    · exact hs
    · intro hid
      rw [hid, hlast] at hs
      cases hs
  · intro id t hnone ht
    rw [session?_of_append hsessions] at ht
    split at ht
    · exact ⟨table, fallback, timeout, htable, (Option.some.inj ht).symm⟩
    · rw [hnone] at ht
      cases ht

theorem Deed.extends (h : Deed c event q) :
    Extends ((c.handover event).Tells c) c q := by
  cases h with
  | calm sessions _ _ _ => exact sessions.extends
  | opens opens _ => exact opens.extends
  | begin _ => exact (carried_visit c _ .sweep _).extends
  | @toured task id cleanup tour rest s pool phase session stepped =>
      have hstepped :
          Carried ((c.handover (.cleaned task)).Tells c) c
            (c.modifySession id (fun s => s.withPool pool)) :=
        carried_cleaned session stepped
      have hleft :=
        hstepped.trans
          (Carried.of_sessions
            (sessions_leave
              ((c.modifySession id (fun s => s.withPool pool)).setPhase task
                (.finished .done)) tour id))
      exact (hleft.trans (carried_visit _ task tour rest)).extends
  | shutdown =>
      apply Carried.extends
      unfold Client.shutdown
      dsimp only
      split
      · have hclosing : Carried ((c.handover .shutdown).Tells c) c
            ((abandonScheduled { c with
              isActive := false
              scheduler := c.scheduler.cancel
              registry := [] }).addTask (.spawned [])) :=
          Carried.of_sessions rfl
        exact hclosing.trans (carried_visit _ _ .shutdown c.registry)
      · exact Carried.of_sessions rfl
  | closeSession id =>
      have hadded : Carried ((c.handover (.closeSession id)).Tells c) c
          (c.addTask (.spawned [])) :=
        Carried.of_sessions rfl
      exact (hadded.trans (carried_visit _ _ .close [id])).extends

theorem rooted_arrival (isActive : Bool) (table : Shared) (fallback : Endpoint)
    (timeout : Duration) :
    (arrival isActive table fallback timeout).Rooted := by
  have hstart := Session.Rooted.start table fallback timeout
  have hclose : (Session.start table fallback timeout).Grown (fun _ => True)
      (Session.start table fallback timeout).close := Session.Grown.close _
  unfold arrival
  split
  · exact hstart
  · exact hstart.grown hclose

namespace Rooted

theorem of_start {settings : Settings}
    (h : start settings = .ok c) : c.Rooted := by
  intro id s hs
  rw [(fresh_of_start h).session?_eq_none] at hs
  cases hs

theorem deed (hc : c.Rooted) (h : Deed c event q) : q.Rooted := by
  intro id t ht
  cases hs : c.session? id with
  | none =>
      rcases h.extends.fresh hs ht with ⟨table, fallback, timeout, _, rfl⟩
      exact rooted_arrival _ table fallback timeout
  | some s =>
      rcases h.extends.grown hs with ⟨t', ht', hgrown⟩
      rw [ht] at ht'
      cases ht'
      exact (hc id s hs).grown hgrown

theorem step (hc : c.Rooted) (h : c.step event = some q) : q.Rooted :=
  hc.deed (deed_of_step hc h)

theorem run {events : List Event} (hc : c.Rooted)
    (h : c.run events = some q) : q.Rooted :=
  run_keeps h hc (fun hb hr => hb.step hr)

theorem induction {P : Client -> Prop} {events : List Event}
    (hrooted : c.Rooted) (hc : P c) (h : c.run events = some q)
    (hstep : forall {b r : Client} {event : Event}, b.Rooted -> P b ->
        b.step event = some r -> P r) : P q := by
  have hboth : q.Rooted ∧ P q :=
    run_keeps h ⟨hrooted, hc⟩ (fun hb hr => ⟨hb.1.step hr, hstep hb.1 hb.2 hr⟩)
  exact hboth.2

end Rooted

end Client
end SlotCluster
