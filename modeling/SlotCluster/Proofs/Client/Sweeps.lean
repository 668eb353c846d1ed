import SlotCluster.Proofs.Client.Departures
import SlotCluster.Proofs.Client.Waits

/-!
# The sweep of a refresh

A refresh with news starts a task that sweeps the sessions one after the other.
It gets to each of them once, and takes away exactly the entries that the table
of the session does not know at that moment.  All its other steps close
connections of these entries.  The task never waits in vain, so it comes to its
end if nobody else does anything, and then all that it has taken away is closed.
-/

namespace SlotCluster

namespace Session

def swept (s : Session) : Session :=
  s.withPool (s.pool.sweep s.pool.table.table)

/-- What a step of a sweep does to a session.  Its pool loses no entry, or just
those that its table does not know, and whatever the other entries lead to is as
it was. -/
structure Trimmed (s t : Session) : Prop where
  frame : t = s.withPool t.pool
  entries : t.pool.entries = s.pool.entries ∨
    t.pool.entries =
      s.pool.entries.filter (fun e => !e.1.isStale s.pool.table.table)
  rest : Pool.Untouched s.pool t.pool

theorem Trimmed.refl (s : Session) : s.Trimmed s where
  frame := rfl
  entries := Or.inl rfl
  rest := ⟨rfl, fun _ _ _ => rfl⟩

theorem Rooted.trimmed_swept {s : Session} (hs : s.Rooted) :
    s.Trimmed s.swept := by
  rcases Pool.untouched_sweep hs.sound s.pool.table.table with ⟨hentries, hrest⟩
  exact ⟨rfl, Or.inr hentries, hrest⟩

theorem Rooted.trimmed_cleaned {s : Session} {pool : Pool} {n : Nat}
    (hs : s.Rooted) (hsweeping : s.pool.Sweeping n)
    (hstep : s.pool.step (.cleaned n) = some pool) :
    s.Trimmed (s.withPool pool) := by
  rcases Pool.untouched_cleaned hs.sound hsweeping hstep with ⟨hentries, hrest⟩
  exact ⟨rfl, Or.inl hentries, hrest⟩

theorem Rooted.tended {s : Session} (hs : s.Rooted) : Pool.Tended s.pool := by
  rcases hs.run with ⟨table, fallback, events, hrun, _⟩
  exact (Pool.Tended.start table fallback).run
    (Pool.Sound.start table fallback) hrun

end Session

namespace Client

variable {c q r : Client} {task id n cell : Nat} {ids rest : List Nat}
  {phase : Phase} {event : Event} {s : Session}

/-! ## One visit -/

theorem visitOne_sweep (hs : c.session? id = some s) :
    c.visitOne .sweep id =
      (c.modifySession id Session.swept, some s.pool.cleanups.length) := by
  unfold visitOne
  rw [hs]
  rfl

theorem session?_modify_self {f : Session -> Session}
    (hs : c.session? id = some s) :
    (c.modifySession id f).session? id = some (f s) := by
  simp [hs]

theorem session?_modify_of_ne {f : Session -> Session} {other : Nat}
    (hne : other ≠ id) :
    (c.modifySession other f).session? id = c.session? id := by
  simp [hne]

theorem session?_visitOne_of_ne {tour : Tour} {other : Nat} (hne : other ≠ id) :
    (c.visitOne tour other).1.session? id = c.session? id := by
  unfold visitOne
  split
  · rfl
  · dsimp only
    split
    · exact session?_modify_of_ne hne
    · split
      · rfl
      · exact session?_modify_of_ne hne

theorem isCleaning_of_session (hs : c.session? id = some s)
    (ht : q.session? id = some s) : q.isCleaning id n = c.isCleaning id n := by
  unfold isCleaning
  rw [hs, ht]

def Ahead (task id : Nat) (c : Client) : Prop :=
  exists phase, c.phase? task = some phase ∧ id ∈ phase.ahead

inductive Met (task : Nat) (ids : List Nat) (q : Client) (id : Nat)
    (s : Session) : Prop where
  | left (session : q.session? id = some s)
      (ahead : id ∈ ids -> q.Ahead task id)
  | swept (listed : id ∈ ids) (session : q.session? id = some s.swept)
      (waits : q.isCleaning id s.pool.cleanups.length = true ->
        exists rest,
          q.phase? task = some (.touring .sweep id s.pool.cleanups.length rest))

theorem Met.later {first : Nat} (hne : first ≠ id) (h : Met task rest q id s) :
    Met task (first :: rest) q id s := by
  cases h with
  | left session ahead =>
      exact Met.left session
        (fun hid => ahead ((List.mem_cons.mp hid).resolve_left hne.symm))
  | swept listed session waits =>
      exact Met.swept (List.mem_cons_of_mem _ listed) session waits

theorem met_of_visit {old : Phase} (hphase : c.phase? task = some old)
    (hnodup : ids.Nodup) (hs : c.session? id = some s) :
    Met task ids (c.visit task .sweep ids) id s := by
  induction ids generalizing c s with
  | nil => exact Met.left hs nofun
  | cons first rest ih =>
      rcases List.nodup_cons.mp hnodup with ⟨hfirst, hrest⟩
      have hone : (c.visitOne .sweep first).1.phase? task = some old :=
        (phase?_of_tasks (tasks_visitOne c .sweep first) task).trans hphase
      by_cases hne : first = id
      · subst hne
        have hswept :
            (c.visitOne .sweep first).1.session? first = some s.swept := by
          rw [visitOne_sweep hs]
          exact session?_modify_self hs
        rcases visit_cons_number c task .sweep first rest with
          ⟨hnone, _⟩ | ⟨m, hm, ⟨_, heq⟩ | ⟨hover, heq⟩⟩
        · rw [visitOne_sweep hs] at hnone
          cases hnone
        · rw [visitOne_sweep hs] at hm
          cases hm
          rw [heq]
          exact Met.swept List.mem_cons_self hswept
            (fun _ => ⟨rest, phase?_setPhase_self _ hone⟩)
        · rw [visitOne_sweep hs] at hm
          cases hm
          rw [heq]
          -- The sweep does not come back to the session, so nothing is left to
          -- wait for.
          cases ih hone hrest hswept with
          | left session _ =>
              refine Met.swept List.mem_cons_self session (fun hcleaning => ?_)
              have hsame :=
                (isCleaning_of_session hswept session).symm.trans hcleaning
              rw [hover] at hsame
              cases hsame
          | swept listed _ _ => exact absurd listed hfirst
      · have hother : (c.visitOne .sweep first).1.session? id = some s :=
          (session?_visitOne_of_ne hne).trans hs
        rcases visit_cons_number c task .sweep first rest with
          ⟨_, heq⟩ | ⟨m, _, ⟨_, heq⟩ | ⟨_, heq⟩⟩
        · rw [heq]
          exact (ih hone hrest hother).later hne
        · rw [heq]
          refine Met.left hother
            (fun hid => ⟨_, phase?_setPhase_self _ hone, ?_⟩)
          exact (List.mem_cons.mp hid).resolve_left (fun heq => hne heq.symm)
        · rw [heq]
          exact (ih (c := (c.visitOne .sweep first).1.leave .sweep first) hone
            hrest hother).later hne

/-!
## The task of a sweep

A task on tour has visited sessions up to one that it waits for, or all of
them.
-/

inductive OnTour (c : Client) (ids : List Nat) : Phase -> Prop where
  | touring {id n : Nat} {rest : List Nat} {s : Session}
      (listed : (id :: rest).Sublist ids) (session : c.session? id = some s)
      (sweeping : s.pool.Sweeping n) : OnTour c ids (.touring .sweep id n rest)
  | finished : OnTour c ids (.finished .done)

inductive Stage (c : Client) (ids : List Nat) : Phase -> Prop where
  | spawned : Stage c ids (.spawned ids)
  | onTour {phase : Phase} (tour : OnTour c ids phase) : Stage c ids phase

theorem Stage.of_touring (h : Stage c ids (.touring .sweep id n rest)) :
    (id :: rest).Sublist ids ∧
      exists s, c.session? id = some s ∧ s.pool.Sweeping n := by
  cases h with
  | onTour tour =>
      cases tour with
      | @touring _ _ _ s listed session sweeping =>
          exact ⟨listed, s, session, sweeping⟩

theorem Stage.ahead (h : Stage c ids phase) : phase.ahead.Sublist ids := by
  cases h with
  | spawned => exact List.Sublist.refl ids
  | onTour tour =>
      cases tour with
      | @touring id n rest s listed _ _ =>
          exact (List.sublist_cons_self id rest).trans listed
      | finished => exact List.nil_sublist ids

theorem Stage.carried {heard : Nat -> Shared -> Prop} (hrooted : c.Rooted)
    (hq : Extends heard c q) (h : Stage c ids phase) : Stage q ids phase := by
  cases h with
  | spawned => exact Stage.spawned
  | onTour tour =>
      cases tour with
      | @touring id n rest s listed session sweeping =>
          rcases hq.grown session with ⟨t, ht, hgrown⟩
          rcases hgrown.pool with ⟨events, hrun, _⟩
          exact Stage.onTour
            (OnTour.touring listed ht
              (sweeping.run (hrooted id s session).sound hrun))
      | finished => exact Stage.onTour OnTour.finished

theorem Rooted.carried {heard : Nat -> Shared -> Prop} (hc : c.Rooted)
    (hq : Carried heard c q) : q.Rooted := by
  intro id t ht
  rcases hq.back ht with ⟨s, hs, hgrown⟩
  exact (hc id s hs).grown hgrown

theorem onTour_of_visit {old : Phase} (hrooted : c.Rooted)
    (hphase : c.phase? task = some old) (hrest : rest.Sublist ids) :
    exists phase, (c.visit task .sweep rest).phase? task = some phase ∧
      OnTour (c.visit task .sweep rest) ids phase := by
  induction rest generalizing c with
  | nil => exact ⟨_, phase?_setPhase_self _ hphase, OnTour.finished⟩
  | cons first rest ih =>
      have hone : (c.visitOne .sweep first).1.phase? task = some old :=
        (phase?_of_tasks (tasks_visitOne c .sweep first) task).trans hphase
      have hcarried :
          Carried (fun _ _ => False) c (c.visitOne .sweep first).1 :=
        carried_visitOne c .sweep first
      have hrooted' : (c.visitOne .sweep first).1.Rooted :=
        hrooted.carried hcarried
      have hshort : rest.Sublist ids :=
        (List.sublist_cons_self first rest).trans hrest
      rcases visit_cons_number c task .sweep first rest with
        ⟨_, heq⟩ | ⟨m, hm, ⟨_, heq⟩ | ⟨_, heq⟩⟩
      · rw [heq]
        exact ih hrooted' hone hshort
      · rw [heq]
        rcases visitOne_number hm with ⟨s, hs, rfl⟩
        have hswept :
            (c.visitOne .sweep first).1.session? first = some s.swept := by
          rw [visitOne_sweep hs]
          exact session?_modify_self hs
        refine ⟨_, phase?_setPhase_self _ hone, OnTour.touring hrest hswept ?_⟩
        exact Pool.sweeping_of_sweep (hrooted first s hs).sound
          s.pool.table.table
      · rw [heq]
        exact ih (c := (c.visitOne .sweep first).1.leave .sweep first)
          hrooted' hone hshort

theorem onTour_of_resumed {pool : Pool} (hrooted : c.Rooted)
    (hs : c.session? id = some s) (hstep : s.pool.step (.cleaned n) = some pool)
    (hphase : c.phase? task = some phase) (hrest : rest.Sublist ids) :
    let q :=
      ((c.modifySession id (fun s => s.withPool pool)).setPhase task
        (.finished .done)).visit task .sweep rest
    exists phase, q.phase? task = some phase ∧ OnTour q ids phase := by
  have hcarried :
      Carried (fun _ _ => False) c
        (c.modifySession id (fun s => s.withPool pool)) :=
    carried_cleaned hs hstep
  have hended :
      Carried (fun _ _ => False) c
        ((c.modifySession id (fun s => s.withPool pool)).setPhase task
          (.finished .done)) :=
    hcarried.trans (Carried.of_sessions rfl)
  have hsame :=
    (phase?_of_tasks (tasks_modifySession c id (fun s => s.withPool pool))
      task).trans hphase
  exact onTour_of_visit (hrooted.carried hended)
    (phase?_setPhase_self _ hsame) hrest

/-- A step of a sweep.  It sets out, or it has closed a connection of the
session that it is at, and then it has to wait for the next one there or goes on
to other sessions. -/
inductive Stride (c : Client) (task : Nat) : Phase -> Client -> Prop where
  | begins (ids : List Nat) :
      Stride c task (.spawned ids) (c.visit task .sweep ids)
  | waits {id n : Nat} {rest : List Nat} {s : Session} {pool : Pool}
      (session : c.session? id = some s)
      (stepped : s.pool.step (.cleaned n) = some pool) :
      Stride c task (.touring .sweep id n rest)
        (c.modifySession id (fun s => s.withPool pool))
  | resumes {id n : Nat} {rest : List Nat} {s : Session} {pool : Pool}
      (session : c.session? id = some s)
      (stepped : s.pool.step (.cleaned n) = some pool)
      (ended : (c.modifySession id (fun s => s.withPool pool)).isCleaning id
        n = false) :
      Stride c task (.touring .sweep id n rest)
        (((c.modifySession id (fun s => s.withPool pool)).setPhase task
          (.finished .done)).visit task .sweep rest)

theorem stride_of_step (hphase : c.phase? task = some phase)
    (hstage : Stage c ids phase) (h : c.step event = some q)
    (hevent : event.task? = some task) : Stride c task phase q := by
  cases hstage with
  | spawned =>
      cases suits_of_step h hevent hphase with
      | begin _ =>
          cases taken_of_step h with
          | begin found =>
              rw [hphase] at found
              cases found
              exact Stride.begins ids
  | onTour tour =>
      cases tour with
      | touring _ _ _ =>
          cases suits_of_step h hevent hphase with
          | toured _ _ _ _ =>
              rcases cleaned_cases h with
                ⟨old, own, m, s, pool, hold, hat, hs, hstep, hcases⟩
              rw [hphase] at hold
              cases hold
              cases hat
              rcases hcases with ⟨_, rfl⟩ | ⟨hover, hresumes⟩
              · exact Stride.waits hs hstep
              · cases hresumes
                exact Stride.resumes hs hstep hover
      | finished => cases suits_of_step h hevent hphase

structure Underway (task : Nat) (ids : List Nat) (c : Client) : Prop where
  rooted : c.Rooted
  attributed : c.Attributed
  stage : exists phase, c.phase? task = some phase ∧ Stage c ids phase

theorem stage_of_stride (hrooted : c.Rooted)
    (hphase : c.phase? task = some phase) (hstage : Stage c ids phase)
    (h : Stride c task phase q) :
    exists phase, q.phase? task = some phase ∧ Stage q ids phase := by
  cases h with
  | begins ids' =>
      rcases onTour_of_visit hrooted hphase hstage.ahead with ⟨new, hnew, tour⟩
      exact ⟨new, hnew, Stage.onTour tour⟩
  | @waits own n rest s pool session stepped =>
      have hcarried :
          Carried (fun _ _ => False) c
            (c.modifySession own (fun s => s.withPool pool)) :=
        carried_cleaned session stepped
      exact ⟨_, (phase?_of_tasks (tasks_modifySession ..) task).trans hphase,
        hstage.carried hrooted hcarried.extends⟩
  | resumes session stepped _ =>
      rcases onTour_of_resumed hrooted session stepped hphase hstage.ahead with
        ⟨new, hnew, tour⟩
      exact ⟨new, hnew, Stage.onTour tour⟩

theorem phase?_of_stage (h : c.step event = some q)
    (hphase : c.phase? task = some phase) (hstage : Stage c ids phase)
    (hother : event.task? ≠ some task) : q.phase? task = some phase := by
  refine phase?_of_step h hphase hother (fun candidates heq => ?_)
  subst heq
  cases hstage with
  | onTour tour => cases tour

namespace Underway

theorem step (hc : Underway task ids c) (h : c.step event = some q) :
    Underway task ids q where
  rooted := hc.rooted.step h
  attributed := hc.attributed.step hc.rooted h
  stage := by
    rcases hc.stage with ⟨phase, hphase, hstage⟩
    by_cases hevent : event.task? = some task
    · exact stage_of_stride hc.rooted hphase hstage
        (stride_of_step hphase hstage h hevent)
    · exact ⟨phase, phase?_of_stage h hphase hstage hevent,
        hstage.carried hc.rooted (deed_of_step hc.rooted h).extends⟩

theorem run {events : List Event} (hc : Underway task ids c)
    (h : c.run events = some q) : Underway task ids q :=
  run_keeps h hc (fun hb hr => hb.step hr)

end Underway

/-! ## What a sweep does to a session -/

theorem met_of_stride (hrooted : c.Rooted) (hnodup : ids.Nodup)
    (hphase : c.phase? task = some phase) (hstage : Stage c ids phase)
    (h : Stride c task phase q) (hs : c.session? id = some s) :
    (exists t, q.session? id = some t ∧ s.Trimmed t ∧ id ∈ ids ∧
      id ∉ phase.ahead) ∨ Met task phase.ahead q id s := by
  -- The session that the sweep is at is not among those that are ahead.
  have hat {own n : Nat} {rest : List Nat}
      (htouring : Stage c ids (.touring .sweep own n rest))
      (hown : c.session? own = some s) {pool : Pool}
      (hstep : s.pool.step (.cleaned n) = some pool) :
      s.Trimmed (s.withPool pool) ∧ own ∈ ids ∧ own ∉ rest := by
    rcases htouring.of_touring with ⟨hlisted, t, ht, hsweeping⟩
    rw [hown] at ht
    cases ht
    exact ⟨(hrooted own s hown).trimmed_cleaned hsweeping hstep,
      hlisted.subset List.mem_cons_self,
      (List.nodup_cons.mp (hnodup.sublist hlisted)).1⟩
  cases h with
  | begins sessions =>
      exact Or.inr (met_of_visit hphase (hnodup.sublist hstage.ahead) hs)
  | @waits own n rest s' pool session stepped =>
      by_cases hid : own = id
      · subst hid
        rw [hs] at session
        cases session
        exact Or.inl ⟨_, session?_modify_self hs, hat hstage hs stepped⟩
      · refine Or.inr
          (Met.left ((session?_modify_of_ne hid).trans hs) (fun hahead => ?_))
        exact ⟨_, (phase?_of_tasks (tasks_modifySession ..) task).trans hphase,
          hahead⟩
  | @resumes own n rest s' pool session stepped ended =>
      have hsame :=
        (phase?_of_tasks (tasks_modifySession c own (fun s => s.withPool pool))
          task).trans hphase
      have hended := phase?_setPhase_self (.finished .done) hsame
      have hrest : rest.Nodup := hnodup.sublist hstage.ahead
      by_cases hid : own = id
      · subst hid
        rw [hs] at session
        cases session
        have hfacts := hat hstage hs stepped
        cases met_of_visit hended hrest (session?_modify_self hs) with
        | left session _ => exact Or.inl ⟨_, session, hfacts⟩
        | swept listed _ _ => exact absurd listed hfacts.2.2
      · exact Or.inr
          (met_of_visit hended hrest ((session?_modify_of_ne hid).trans hs))

theorem Underway.trims (hc : Underway task ids c) (hnodup : ids.Nodup)
    (h : c.step event = some q) (hevent : event.task? = some task)
    (hs : c.session? id = some s) :
    exists t, q.session? id = some t ∧ s.Trimmed t ∧ (id ∉ ids -> t = s) := by
  rcases hc.stage with ⟨phase, hphase, hstage⟩
  rcases met_of_stride hc.rooted hnodup hphase hstage
      (stride_of_step hphase hstage h hevent) hs with
    ⟨t, ht, htrimmed, hid, _⟩ | hmet
  · exact ⟨t, ht, htrimmed, fun hother => absurd hid hother⟩
  · cases hmet with
    | left session _ => exact ⟨s, session, Session.Trimmed.refl s, fun _ => rfl⟩
    | swept listed session _ =>
        exact ⟨s.swept, session, (hc.rooted id s hs).trimmed_swept,
          fun hother => absurd (hstage.ahead.subset listed) hother⟩

/-! ## What has been taken away -/

/-- The cell has lost its entry to the task, and if its connection is not closed
yet, the task is at it. -/
structure Departed (task id n cell : Nat) (c : Client) : Prop where
  leaving : exists s, c.session? id = some s ∧ s.pool.Leaving n cell
  known : exists k, c.cleanup? id n = some k
  minded : c.isCleaning id n = true ->
    exists rest, c.phase? task = some (.touring .sweep id n rest)

theorem departed_of_swept (hrooted : s.Rooted)
    (hs : q.session? id = some s.swept)
    (hminded : q.isCleaning id s.pool.cleanups.length = true ->
      exists rest,
        q.phase? task = some (.touring .sweep id s.pool.cleanups.length rest))
    {e : Target × Nat} (he : e ∈ s.pool.entries)
    (hstale : e.1.isStale s.pool.table.table = true) :
    Departed task id s.pool.cleanups.length e.2 q where
  leaving := ⟨s.swept, hs, Pool.leaving_of_sweep hrooted.sound he hstale⟩
  known := by
    rcases Pool.cleanup_of_sweep s.pool s.pool.table.table with ⟨k, hk, _⟩
    exact ⟨k, cleanup?_eq_some.mpr ⟨s.swept, hs, hk⟩⟩
  minded := hminded

theorem known_of_step (hc : c.Rooted) (h : c.step event = some q)
    {k : Pool.Cleanup} (hk : c.cleanup? id n = some k) :
    exists m, q.cleanup? id n = some m := by
  rcases cleanup?_eq_some.mp hk with ⟨s, hs, hn⟩
  rcases (deed_of_step hc h).extends.grown hs with ⟨t, ht, hgrown⟩
  rcases hgrown.pool with ⟨events, hrun, _⟩
  rcases Pool.cleanup_of_run (hc id s hs).sound hrun hn with ⟨m, hm⟩
  exact ⟨m, cleanup?_eq_some.mpr ⟨t, ht, hm⟩⟩

theorem isCleaning_of_kept {k : Pool.Cleanup} (hc : c.cleanup? id n = some k)
    (hq : q.cleanup? id n = some k) :
    q.isCleaning id n = c.isCleaning id n := by
  rw [Bool.eq_iff_iff, isCleaning_iff, isCleaning_iff, hc, hq]

theorem touring_of_stride (hrooted : c.Rooted)
    (hphase : c.phase? task = some (.touring .sweep id n rest))
    {k : Pool.Cleanup} (hk : c.cleanup? id n = some k)
    (h : Stride c task (.touring .sweep id n rest) q)
    (hcleaning : q.isCleaning id n = true) :
    q.phase? task = some (.touring .sweep id n rest) := by
  cases h with
  | waits _ _ =>
      exact (phase?_of_tasks (tasks_modifySession ..) task).trans hphase
  | @resumes _ _ _ s pool session stepped ended =>
      rcases cleanup?_of_cleaned hrooted session stepped hk with ⟨m, hm, _⟩
      have hended :
          ((c.modifySession id (fun s => s.withPool pool)).setPhase task
            (.finished .done)).cleanup? id n = some m :=
        hm
      rw [isCleaning_of_kept hm ((Keeps.visit _ task .sweep rest).kept hended),
        ended] at hcleaning
      cases hcleaning

namespace Departed

theorem step (hc : Underway task ids c) (hd : Departed task id n cell c)
    (h : c.step event = some q) : Departed task id n cell q where
  leaving := by
    rcases hd.leaving with ⟨s, hs, hleaving⟩
    rcases (deed_of_step hc.rooted h).extends.grown hs with ⟨t, ht, hgrown⟩
    rcases hgrown.pool with ⟨events, hrun, _⟩
    exact ⟨t, ht, hleaving.run (hc.rooted id s hs).sound hrun⟩
  known := by
    rcases hd.known with ⟨k, hk⟩
    exact known_of_step hc.rooted h hk
  minded := by
    intro hcleaning
    rcases hd.known with ⟨k, hk⟩
    -- Whoever waits for the cleanup, it has had to wait before the step.
    have hbefore : c.isCleaning id n = true := by
      rcases cleanup_of_step hc.rooted h hk with
        hkept | ⟨other, phase, _, hphase, hwaits⟩
      · exact (isCleaning_of_kept hk hkept).symm.trans hcleaning
      · exact hc.attributed.waits hphase hwaits
    rcases hd.minded hbefore with ⟨rest, hphase⟩
    rcases hc.stage with ⟨phase, hown, hstage⟩
    rw [hphase] at hown
    cases hown
    by_cases hevent : event.task? = some task
    · exact ⟨rest,
        touring_of_stride hc.rooted hphase hk
          (stride_of_step hphase hstage h hevent) hcleaning⟩
    · exact ⟨rest, phase?_of_stage h hphase hstage hevent⟩

theorem run {events : List Event} (hc : Underway task ids c)
    (hd : Departed task id n cell c) (h : c.run events = some q) :
    Departed task id n cell q := by
  have hboth : Underway task ids q ∧ Departed task id n cell q :=
    run_keeps h ⟨hc, hd⟩ (fun hb hr => ⟨hb.1.step hr, hb.2.step hb.1 hr⟩)
  exact hboth.2

/-- When the task has come to its end, nothing that it has taken away is
open. -/
theorem shut {outcome : Outcome} (hrooted : c.Rooted)
    (hd : Departed task id n cell c)
    (hphase : c.phase? task = some (.finished outcome)) :
    exists s, c.session? id = some s ∧ s.pool.Evicted cell ∧
      s.pool.Shut cell := by
  rcases hd.leaving with ⟨s, hs, hleaving⟩
  refine ⟨s, hs, hleaving.toEvicted,
    hleaving.shut (hrooted id s hs).tended (fun {k} hk => ?_)⟩
  rw [← Option.not_isSome_iff_eq_none]
  intro hclosing
  rcases hd.minded
    (isCleaning_iff.mpr ⟨k, cleanup?_eq_some.mpr ⟨s, hs, hk⟩, hclosing⟩) with
    ⟨rest, htouring⟩
  rw [hphase] at htouring
  cases htouring

end Departed

/-! ## Whole runs -/

def Acts (task : Nat) (c : Client) (events : List Event)
    (b r : Client) : Prop :=
  exists before event after, events = before ++ event :: after ∧
    c.run before = some b ∧ b.step event = some r ∧ event.task? = some task

/-- The task has got to the session at some step of a run, and has taken away
from it what was stale. -/
def Treated (task id : Nat) (c : Client) (events : List Event)
    (q : Client) : Prop :=
  exists b r s, Acts task c events b r ∧ b.session? id = some s ∧
    r.session? id = some s.swept ∧
    forall {e : Target × Nat}, e ∈ s.pool.entries ->
    e.1.isStale s.pool.table.table = true ->
    Departed task id s.pool.cleanups.length e.2 q

theorem Acts.later {events : List Event} {b t : Client}
    (hr : c.step event = some r) (h : Acts task r events b t) :
    Acts task c (event :: events) b t := by
  rcases h with ⟨before, last, after, rfl, hb, hlast⟩
  exact ⟨event :: before, last, after, rfl, run_cons.mpr ⟨r, hr, hb⟩, hlast⟩

theorem Treated.later {events : List Event} (hr : c.step event = some r)
    (h : Treated task id r events q) :
    Treated task id c (event :: events) q := by
  rcases h with ⟨b, t, s, hacts, hrest⟩
  exact ⟨b, t, s, hacts.later hr, hrest⟩

/-- A session that is ahead of the task stays so until the task gets to it. -/
theorem ahead_or_treated {events : List Event} (hc : Underway task ids c)
    (hnodup : ids.Nodup) (hs : c.session? id = some s)
    (hahead : c.Ahead task id) (h : c.run events = some q) :
    q.Ahead task id ∨ Treated task id c events q := by
  -- The first step after which the session is not ahead any more is the one
  -- that sweeps it.
  induction events generalizing c s with
  | nil =>
      cases h
      exact Or.inl hahead
  | cons event rest ih =>
      rcases run_cons.mp h with ⟨r, hr, hrest⟩
      rcases hahead with ⟨phase, hphase, hid⟩
      have hstage : Stage c ids phase := by
        rcases hc.stage with ⟨phase', hphase', hstage⟩
        rw [hphase] at hphase'
        cases hphase'
        exact hstage
      by_cases hevent : event.task? = some task
      · have hstride := stride_of_step hphase hstage hr hevent
        rcases met_of_stride hc.rooted hnodup hphase hstage hstride hs with
          ⟨_, _, _, _, hpassed⟩ | hmet
        · exact absurd hid hpassed
        · cases hmet with
          | left session ahead =>
              exact (ih (hc.step hr) session (ahead hid) hrest).imp_right
                (Treated.later hr)
          | swept _ session waits =>
              refine Or.inr
                ⟨c, r, s, ⟨[], event, rest, rfl, rfl, hr, hevent⟩, hs, session,
                  fun he hstale => ?_⟩
              exact (departed_of_swept (hc.rooted id s hs) session waits he
                hstale).run (hc.step hr) hrest
      · rcases (deed_of_step hc.rooted hr).extends.grown hs with ⟨t, ht, _⟩
        have hstill : r.Ahead task id :=
          ⟨phase, phase?_of_stage hr hphase hstage hevent, hid⟩
        exact (ih (hc.step hr) ht hstill hrest).imp_right (Treated.later hr)

theorem treated_of_finished {events : List Event} {outcome : Outcome}
    (hc : Underway task ids c) (hnodup : ids.Nodup)
    (hs : c.session? id = some s) (hahead : c.Ahead task id)
    (h : c.run events = some q)
    (hdone : q.phase? task = some (.finished outcome)) :
    Treated task id c events q := by
  refine (ahead_or_treated hc hnodup hs hahead h).resolve_left (fun hleft => ?_)
  rcases hleft with ⟨phase, hphase, hid⟩
  rw [hdone] at hphase
  cases hphase
  cases hid

/-!
## How a sweep comes to its end

The connection that the sweep waits for can close.  Then less is left of the
cleanup, or the sweep leaves the session.
-/

def Ends (task : Nat) (c : Client) : Prop :=
  exists events q, (forall event, event ∈ events -> event.task? = some task) ∧
    c.run events = some q ∧ q.phase? task = some (.finished .done)

theorem Ends.of_step (hevent : event.task? = some task)
    (h : c.step event = some q) (hq : q.Ends task) : c.Ends task := by
  rcases hq with ⟨events, r, hall, hrun, hdone⟩
  exact ⟨event :: events, r, List.forall_mem_cons.mpr ⟨hevent, hall⟩,
    run_cons.mpr ⟨q, h, hrun⟩, hdone⟩

theorem advance {k : Pool.Cleanup} (hc : Underway task ids c)
    (hphase : c.phase? task = some (.touring .sweep id n rest))
    (hk : c.cleanup? id n = some k) :
    exists q, c.step (.cleaned task) = some q ∧
      ((exists m, q.phase? task = some (.touring .sweep id n rest) ∧
        q.cleanup? id n = some m ∧
          m.chores.length < k.chores.length) ∨
        exists phase, q.phase? task = some phase ∧ OnTour q rest phase) := by
  have hclosing : k.closing.isSome = true := by
    rcases isCleaning_iff.mp (hc.attributed.waits hphase rfl) with
      ⟨k', hk', hclosing⟩
    rw [hk] at hk'
    cases hk'
    exact hclosing
  rcases cleanup?_eq_some.mp hk with ⟨s, hs, hn⟩
  rcases Pool.cleaned_of_closing hn hclosing with ⟨pool, m, hstep, hm, hless⟩
  have hkept :
      (c.modifySession id (fun s => s.withPool pool)).cleanup? id n = some m :=
    cleanup?_eq_some.mpr ⟨s.withPool pool, session?_modify_self hs, hm⟩
  have hsame :=
    (phase?_of_tasks (tasks_modifySession c id (fun s => s.withPool pool))
      task).trans hphase
  cases hover :
      (c.modifySession id (fun s => s.withPool pool)).isCleaning id n with
  | true =>
      refine ⟨c.modifySession id (fun s => s.withPool pool), ?_,
        Or.inl ⟨m, hsame, hkept, ?_⟩⟩
      · simp only [step, hphase, stepCleanup, hs, Option.bind_some, hstep,
          hover, if_true]
      · rcases isCleaning_iff.mp hover with ⟨m', hm', hwaits⟩
        rw [hkept] at hm'
        cases hm'
        refine hless.resolve_left (fun hnone => ?_)
        rw [hnone] at hwaits
        cases hwaits
  | false =>
      refine ⟨((c.modifySession id (fun s => s.withPool pool)).setPhase task
        (.finished .done)).visit task .sweep rest, ?_, Or.inr ?_⟩
      · simp only [step, hphase, stepCleanup, hs, Option.bind_some, hstep,
          hover, Bool.false_eq_true, if_false]
        rfl
      · exact onTour_of_resumed hc.rooted hs hstep hphase
          (List.Sublist.refl rest)

theorem ends_of_touring {k : Pool.Cleanup} (hc : Underway task ids c)
    (hphase : c.phase? task = some (.touring .sweep id n rest))
    (hk : c.cleanup? id n = some k)
    (hrest : forall {q : Client} {phase : Phase}, Underway task ids q ->
      q.phase? task = some phase -> OnTour q rest phase -> q.Ends task) :
    c.Ends task := by
  -- Induction on what is left of the cleanup.  What comes after it is the
  -- business of the hypothesis.
  generalize hleft : k.chores.length = left
  induction left using Nat.strongRecOn generalizing c k with
  | ind left ih =>
      rcases advance hc hphase hk with
        ⟨q, hq, ⟨m, hstill, hm, hless⟩ | ⟨phase, hnew, tour⟩⟩
      · exact Ends.of_step rfl hq
          (ih m.chores.length (hleft ▸ hless) (hc.step hq) hstill hm rfl)
      · exact Ends.of_step rfl hq (hrest (hc.step hq) hnew tour)

theorem ends_of_onTour (hc : Underway task ids c)
    (hphase : c.phase? task = some phase) (tour : OnTour c rest phase) :
    c.Ends task := by
  -- Induction on the sessions that are left.
  generalize hlength : rest.length = left
  induction left using Nat.strongRecOn generalizing c phase rest with
  | ind left ih =>
      cases tour with
      | @touring id n later s listed session sweeping =>
          rcases sweeping with ⟨k, hk, _⟩
          have hshort : later.length < left := hlength ▸ listed.length_le
          exact ends_of_touring hc hphase
            (cleanup?_eq_some.mpr ⟨s, session, hk⟩)
            (fun hq hnew tour => ih later.length hshort hq hnew tour rfl)
      | finished => exact ⟨[], c, nofun, rfl, hphase⟩

theorem Underway.ends (hc : Underway task ids c) : c.Ends task := by
  rcases hc.stage with ⟨phase, hphase, hstage⟩
  cases hstage with
  | spawned =>
      have hbegun : c.step (.begin task) = some (c.visit task .sweep ids) := by
        simp only [Client.step, hphase]
      rcases onTour_of_visit hc.rooted hphase (List.Sublist.refl ids) with
        ⟨phase, hnew, tour⟩
      exact Ends.of_step rfl hbegun (ends_of_onTour (hc.step hbegun) hnew tour)
  | onTour tour => exact ends_of_onTour hc hphase tour

/-! ## All that a sweep does -/

/-- What the sweep has done in a run that began before it.  Each of its steps
takes entries away that the table of a session does not know, or none, and
leaves the others as they are.  When it has come to its end, it has got to every
session, and all that it has taken away is closed.  And it comes to its end. -/
structure Clears (task : Nat) (ids : List Nat) (c : Client)
    (events : List Event) (q : Client) : Prop where
  trims : forall {b r : Client} {id : Nat} {s : Session},
    Acts task c events b r -> b.session? id = some s ->
    exists t, r.session? id = some t ∧ s.Trimmed t ∧ (id ∉ ids -> t = s)
  clears : q.phase? task = some (.finished .done) ->
    forall {id : Nat}, id ∈ ids ->
    exists b r s t u, Acts task c events b r ∧ b.session? id = some s ∧
      r.session? id = some t ∧
      s.Trimmed t ∧
        t.pool.entries =
          s.pool.entries.filter (fun e => !e.1.isStale s.pool.table.table) ∧
      q.session? id = some u ∧
      forall {e : Target × Nat}, e ∈ s.pool.entries ->
        e.1.isStale s.pool.table.table = true ->
        u.pool.Evicted e.2 ∧ u.pool.Shut e.2
  ends : q.Ends task

theorem session_of_run {events : List Event} (hc : c.Rooted)
    (hs : c.session? id = some s) (h : c.run events = some q) :
    exists t, q.session? id = some t := by
  refine hc.induction (P := fun m => exists t, m.session? id = some t)
    ⟨s, hs⟩ h ?_
  rintro b r event hb ⟨t, ht⟩ hr
  rcases (deed_of_step hb hr).extends.grown ht with ⟨u, hu, _⟩
  exact ⟨u, hu⟩

theorem clears_of_underway {events : List Event} (hc : Underway task ids c)
    (hnodup : ids.Nodup)
    (hahead : forall {id : Nat}, id ∈ ids ->
      c.Ahead task id ∧ exists s, c.session? id = some s)
    (h : c.run events = some q) : Clears task ids c events q where
  trims := by
    rintro b r id s ⟨before, event, after, rfl, hb, hr, hevent⟩ hs
    exact (hc.run hb).trims hnodup hr hevent hs
  clears := by
    intro hdone id hid
    rcases hahead hid with ⟨hahead, first, hfirst⟩
    rcases treated_of_finished hc hnodup hfirst hahead h hdone with
      ⟨b, r, s, hacts, hs, hswept, hdeparted⟩
    have hrooted : s.Rooted := by
      rcases hacts with ⟨before, _, _, _, hb, _⟩
      exact hc.rooted.run hb id s hs
    rcases session_of_run hc.rooted hfirst h with ⟨u, hu⟩
    refine ⟨b, r, s, s.swept, u, hacts, hs, hswept, hrooted.trimmed_swept, ?_,
      hu, fun he hstale => ?_⟩
    · exact (Pool.untouched_sweep hrooted.sound s.pool.table.table).1
    · rcases (hdeparted he hstale).shut (hc.run h).rooted hdone with
        ⟨u', hu', hgone⟩
      rw [hu] at hu'
      cases hu'
      exact hgone
  ends := (hc.run h).ends

end Client
end SlotCluster
