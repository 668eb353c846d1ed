import SlotCluster.Proofs.Client.SessionSteps
import SlotCluster.Proofs.Pool.Evictions

/-!
# Who waits for a cleanup

A task that visits a session or cleans one pool begins a cleanup and waits for
it.  Cleanups are numbered in the order in which they begin, so no two tasks
wait for the same one, and a cleanup goes on only at an event that is about its
own task.  Hence no task is left waiting for a cleanup that is over.
-/

namespace SlotCluster

theorem Session.Rooted.sound {s : Session} (hs : s.Rooted) :
    Pool.Sound s.pool := by
  rcases hs.run with ⟨table, fallback, events, hrun, _⟩
  exact (Pool.Sound.start table fallback).run hrun

namespace Client

variable {c q r : Client} {task i id n : Nat} {phase : Phase} {tour : Tour}
  {ids : List Nat} {event : Event} {k : Pool.Cleanup}

/-! ## Cleanups that stay as they are -/

def cleanup? (c : Client) (id n : Nat) : Option Pool.Cleanup :=
  (c.session? id).bind (fun s => s.pool.cleanups[n]?)

theorem cleanup?_eq_some :
    c.cleanup? id n = some k <->
      exists s, c.session? id = some s ∧ s.pool.cleanups[n]? = some k :=
  Option.bind_eq_some_iff

theorem isCleaning_iff :
    c.isCleaning id n = true <->
      exists k, c.cleanup? id n = some k ∧ k.closing.isSome = true := by
  unfold isCleaning cleanup?
  cases c.session? id with
  | none => simp
  | some s => exact Option.any_eq_true _ _

theorem kept_sweep (p : Pool) (table : Table) (hk : p.cleanups[n]? = some k) :
    (p.sweep table).cleanups[n]? = some k := by
  rcases Pool.cleanup_of_kind (Pool.Kind.sweep table) hk with ⟨m, hm, _, hsame⟩
  rw [← hsame nofun]
  exact hm

theorem kept_drain (p : Pool) (hk : p.cleanups[n]? = some k) :
    p.drain.cleanups[n]? = some k := by
  rcases Pool.cleanup_of_kind Pool.Kind.drain hk with ⟨m, hm, _, hsame⟩
  rw [← hsame nofun]
  exact hm

theorem kept_close (s : Session) (hk : s.pool.cleanups[n]? = some k) :
    s.close.pool.cleanups[n]? = some k := by
  unfold Session.close
  split
  · exact hk
  · exact kept_drain s.pool hk

structure Keeps (c q : Client) : Prop where
  kept : forall {id n : Nat} {k : Pool.Cleanup}, c.cleanup? id n = some k ->
    q.cleanup? id n = some k

namespace Keeps

theorem of_sessions (h : q.sessions = c.sessions) : Keeps c q where
  kept := by
    intro id n k hk
    cases id with
    | zero => cases hk
    | succ position =>
        change (q.sessions[position]?).bind _ = _
        rw [h]
        exact hk

theorem trans (hq : Keeps c q) (hr : Keeps q r) : Keeps c r where
  kept hk := hr.kept (hq.kept hk)

theorem modify {f : Session -> Session}
    (hf : forall s, c.session? id = some s ->
      forall (n : Nat) (k : Pool.Cleanup), s.pool.cleanups[n]? = some k ->
      (f s).pool.cleanups[n]? = some k) : Keeps c (c.modifySession id f) where
  kept := by
    intro other n k hk
    rcases cleanup?_eq_some.mp hk with ⟨s, hs, hn⟩
    rw [cleanup?_eq_some, session?_modifySession, hs]
    by_cases h : id = other
    · subst h
      exact ⟨f s, if_pos rfl, hf s hs n k hn⟩
    · exact ⟨s, if_neg h, hn⟩

theorem foldl {f : Session -> Session}
    (hf : forall s, (f s).pool.cleanups = s.pool.cleanups) (ids : List Nat) :
    Keeps c (ids.foldl (fun c id => c.modifySession id f) c) := by
  induction ids generalizing c with
  | nil => exact of_sessions rfl
  | cons first rest ih =>
      rw [List.foldl_cons]
      have hone : Keeps c (c.modifySession first f) := by
        apply modify
        intro s _ n k hk
        rw [hf s]
        exact hk
      exact hone.trans ih

theorem visitOne (c : Client) (tour : Tour) (id : Nat) :
    Keeps c (c.visitOne tour id).1 := by
  have hsweep :
      Keeps c
        (c.modifySession id
          (fun s => s.withPool (s.pool.sweep s.pool.table.table))) :=
    modify (fun s _ _ _ hk => kept_sweep s.pool _ hk)
  have hclose : Keeps c (c.modifySession id Session.close) :=
    modify (fun s _ _ _ hk => kept_close s hk)
  unfold Client.visitOne
  cases hs : c.session? id with
  | none => exact of_sessions rfl
  | some s =>
      cases tour with
      | sweep => exact hsweep
      | _ =>
          dsimp only
          split
          · exact of_sessions rfl
          · exact hclose

theorem visit (c : Client) (task : Nat) (tour : Tour) (ids : List Nat) :
    Keeps c (c.visit task tour ids) := by
  induction ids generalizing c with
  | nil => exact of_sessions rfl
  | cons id rest ih =>
      have hone := visitOne c tour id
      rcases visit_cons_cases c task tour id rest with
        heq | ⟨cleanup, _, heq⟩ | heq
      · rw [heq]
        exact hone.trans (ih _)
      · rw [heq]
        exact hone.trans (of_sessions rfl)
      · rw [heq]
        exact (hone.trans (of_sessions (sessions_leave _ tour id))).trans (ih _)

theorem opens (h : Opens c q) : Keeps c q where
  kept := by
    intro id n k hk
    rcases cleanup?_eq_some.mp hk with ⟨s, hs, hn⟩
    rcases h.sessions with ⟨table, fallback, timeout, _, hsessions⟩
    have hlt : id ≤ c.sessions.length :=
      (session?_isSome_iff.mp (by rw [hs]; rfl)).2
    rw [cleanup?_eq_some, session?_of_append hsessions,
      if_neg (Nat.ne_of_lt (Nat.lt_succ_of_le hlt))]
    exact ⟨s, hs, hn⟩

theorem still_or_opens (h : Still c q ∨ Opens c q) : Keeps c q := by
  rcases h with hstill | hopens
  · exact of_sessions hstill.sessions
  · exact opens hopens

end Keeps

/-!
## Tasks that begin to wait

When a connection of a cleanup has closed, either the next one has to, or the
cleanup is over and its task goes on.
-/

inductive Resumes (task : Nat) (r : Client) : Phase -> Client -> Prop where
  | tour (tour : Tour) (id n : Nat) (rest : List Nat) :
      Resumes task r (.touring tour id n rest)
        (((r.setPhase task (.finished .done)).leave tour id).visit
          task tour rest)
  | done (id n : Nat) (counts : Bool) (outcome : Outcome) :
      Resumes task r (.cleaning id n counts)
        ((r.setPhase task (.finished .done)).setPhase task (.finished outcome))

theorem cleaned_cases (h : c.step (.cleaned task) = some q) :
    exists phase id n s pool,
      c.phase? task = some phase ∧ phase.cleanup? = some (id, n) ∧
      c.session? id = some s ∧ s.pool.step (.cleaned n) = some pool ∧
      ((c.modifySession id (fun s => s.withPool pool)).isCleaning id n = true ∧
          q = c.modifySession id (fun s => s.withPool pool) ∨
        (c.modifySession id (fun s => s.withPool pool)).isCleaning
          id n = false ∧
          Resumes task (c.modifySession id (fun s => s.withPool pool))
            phase q) := by
  have hcleanup {id n : Nat} {done : Client -> Client}
    (hstep : c.stepCleanup task id n done = some q) :
      exists s pool,
        c.session? id = some s ∧ s.pool.step (.cleaned n) = some pool ∧
        ((c.modifySession id (fun s => s.withPool pool)).isCleaning
          id n = true ∧
            q = c.modifySession id (fun s => s.withPool pool) ∨
          (c.modifySession id (fun s => s.withPool pool)).isCleaning
          id n = false ∧
            q = done
                ((c.modifySession id (fun s => s.withPool pool)).setPhase task
                  (.finished .done))) := by
    unfold stepCleanup at hstep
    split at hstep
    · cases hstep
    · rename_i pool hpool
      rcases Option.bind_eq_some_iff.mp hpool with ⟨s, hs, hcleaned⟩
      refine ⟨s, pool, hs, hcleaned, ?_⟩
      dsimp only at hstep
      split at hstep
      · rename_i hwaits
        exact Or.inl ⟨hwaits, (Option.some.inj hstep).symm⟩
      · rename_i hover
        exact Or.inr ⟨Bool.eq_false_iff.mpr hover, (Option.some.inj hstep).symm⟩
  simp only [step] at h
  split at h
  · rename_i tour id n rest hphase
    rcases hcleanup h with ⟨s, pool, hs, hstep, hwaits | ⟨hover, rfl⟩⟩
    · exact ⟨_, id, n, s, pool, hphase, rfl, hs, hstep, Or.inl hwaits⟩
    · exact ⟨_, id, n, s, pool, hphase, rfl, hs, hstep,
        Or.inr ⟨hover, Resumes.tour tour id n rest⟩⟩
  · rename_i id n counts hphase
    rcases hcleanup h with ⟨s, pool, hs, hstep, hwaits | ⟨hover, rfl⟩⟩
    · exact ⟨_, id, n, s, pool, hphase, rfl, hs, hstep, Or.inl hwaits⟩
    · exact ⟨_, id, n, s, pool, hphase, rfl, hs, hstep,
        Or.inr ⟨hover, Resumes.done id n counts _⟩⟩
  · cases h

theorem cleanPool_cases {counts : Bool} {clean : Pool -> Pool}
    (h : c.cleanPool id counts clean = some q) :
    exists s, c.session? id = some s ∧
      let r := c.modifySession id (fun s => s.withPool (clean s.pool))
      (r.isCleaning id s.pool.cleanups.length = true ∧
        q = r.addTask (.cleaning id s.pool.cleanups.length counts)) ∨
        exists outcome, q = r.addTask (.finished outcome) := by
  unfold cleanPool at h
  split at h
  · cases h
  · rename_i s hs
    refine ⟨s, hs, ?_⟩
    dsimp only at h
    split at h
    · rename_i hwaits
      exact Or.inl ⟨hwaits, (Option.some.inj h).symm⟩
    · exact Or.inr ⟨_, (Option.some.inj h).symm⟩

theorem cleanup?_length {s : Session} (hs : c.session? id = some s) :
    c.cleanup? id s.pool.cleanups.length = none := by
  unfold cleanup?
  rw [hs]
  exact List.getElem?_eq_none (Nat.le_refl _)

theorem visitOne_number (h : (c.visitOne tour id).2 = some n) :
    exists s, c.session? id = some s ∧ n = s.pool.cleanups.length := by
  unfold visitOne at h
  split at h
  · cases h
  · rename_i s hs
    refine ⟨s, hs, ?_⟩
    cases tour with
    | sweep => exact (Option.some.inj h).symm
    | _ =>
        dsimp only at h
        split at h
        · cases h
        · exact (Option.some.inj h).symm

theorem visit_cons_number (c : Client) (task : Nat) (tour : Tour) (id : Nat)
    (rest : List Nat) :
    ((c.visitOne tour id).2 = none ∧
      c.visit task tour (id :: rest) =
        (c.visitOne tour id).1.visit task tour rest) ∨
      exists n, (c.visitOne tour id).2 = some n ∧
        (((c.visitOne tour id).1.isCleaning id n = true ∧
            c.visit task tour (id :: rest) =
              (c.visitOne tour id).1.setPhase task (.touring tour id n rest)) ∨
          ((c.visitOne tour id).1.isCleaning id n = false ∧
            c.visit task tour (id :: rest) =
              ((c.visitOne tour id).1.leave tour id).visit task tour
                rest)) := by
  rw [visit]
  split
  · rename_i r heq
    rw [heq]
    exact Or.inl ⟨rfl, rfl⟩
  · rename_i r n heq
    rw [heq]
    right
    refine ⟨n, rfl, ?_⟩
    split
    · rename_i hwaits
      exact Or.inl ⟨hwaits, rfl⟩
    · rename_i hover
      exact Or.inr ⟨Bool.eq_false_iff.mpr hover, rfl⟩

/-- A task begins to wait for a cleanup that has just begun, and that cleanup
closes a connection. -/
structure Begun (c q : Client) (id n : Nat) : Prop where
  fresh : c.cleanup? id n = none
  waits : q.isCleaning id n = true

theorem Begun.earlier
    (hr : forall {k}, c.cleanup? id n = some k ->
      exists m, r.cleanup? id n = some m)
    (h : Begun r q id n) : Begun c q id n where
  fresh := by
    cases hk : c.cleanup? id n with
    | none => rfl
    | some k =>
        rcases hr hk with ⟨m, hm⟩
        have hfresh := h.fresh
        rw [hm] at hfresh
        cases hfresh
  waits := h.waits

theorem waits_visit (hi : (c.visit task tour ids).phase? i = some phase)
    (hwaits : phase.cleanup? = some (id, n)) :
    (c.phase? i = some phase ∧ task ≠ i) ∨
      (Begun c (c.visit task tour ids) id n ∧ task = i) := by
  induction ids generalizing c with
  | nil =>
      rcases phase_of_setPhase hi with hold | ⟨rfl, _⟩
      · exact Or.inl hold
      · cases hwaits
  | cons first rest ih =>
      have hkeeps := Keeps.visitOne c tour first
      have hphase : (c.visitOne tour first).1.phase? i = c.phase? i :=
        phase?_of_tasks (tasks_visitOne c tour first) i
      rcases visit_cons_number c task tour first rest with
        ⟨_, heq⟩ | ⟨m, hm, ⟨hcleaning, heq⟩ | ⟨_, heq⟩⟩
      · rw [heq] at hi ⊢
        rcases ih hi with ⟨hold, hne⟩ | ⟨hbegun, hsame⟩
        · exact Or.inl ⟨hphase.symm.trans hold, hne⟩
        · exact Or.inr ⟨hbegun.earlier (fun hk => ⟨_, hkeeps.kept hk⟩), hsame⟩
      · rw [heq] at hi ⊢
        rcases phase_of_setPhase hi with ⟨hold, hne⟩ | ⟨rfl, hsame⟩
        · exact Or.inl ⟨hphase.symm.trans hold, hne⟩
        · cases hwaits
          rcases visitOne_number hm with ⟨s, hs, rfl⟩
          exact Or.inr ⟨⟨cleanup?_length hs, hcleaning⟩, hsame⟩
      · have hleft : Keeps c ((c.visitOne tour first).1.leave tour first) :=
          hkeeps.trans (Keeps.of_sessions (sessions_leave _ tour first))
        rw [heq] at hi ⊢
        rcases ih hi with ⟨hold, hne⟩ | ⟨hbegun, hsame⟩
        · rw [phase?_of_tasks (tasks_leave _ tour first)] at hold
          exact Or.inl ⟨hphase.symm.trans hold, hne⟩
        · exact Or.inr ⟨hbegun.earlier (fun hk => ⟨_, hleft.kept hk⟩), hsame⟩

/-! ## Every step -/

theorem kept_of_stepSession {s t : Session} {event : SessionEvent}
    (hs : s.Rooted) (h : stepSession s event = some t)
    (hk : s.pool.cleanups[n]? = some k) : t.pool.cleanups[n]? = some k := by
  rcases (pool_of_stepSession hs h).2 with hsame | ⟨e, hstep, _, hother⟩
  · rw [hsame]
    exact hk
  · rcases Pool.cleanup_of_kind (hs.sound.kind_of hstep) hk with
      ⟨m, hm, _, hkept⟩
    rw [← hkept]
    · exact hm
    · intro heq
      rw [heq] at hother
      cases hother

theorem keeps_of_step (hc : c.Rooted) (h : c.step event = some q)
    (hother : forall task, event ≠ .cleaned task) : Keeps c q := by
  cases taken_of_step h with
  | fetch purpose => exact Keeps.still_or_opens (still_or_opens_fetch c purpose)
  | granted _ _ =>
      exact Keeps.still_or_opens (still_or_opens_enterLoad ⟨rfl, rfl, rfl⟩ _ _)
  | setTable table => exact Keeps.of_sessions rfl
  | refresh =>
      have hstill : Still c (c.refresh false) :=
        still_refresh ⟨rfl, rfl, rfl⟩ false
      exact Keeps.of_sessions hstill.sessions
  | @loaded task purpose views _ =>
      cases hviews : views.canonical? with
      | none =>
          rw [loaded_of_none task purpose hviews]
          exact Keeps.of_sessions rfl
      | some table =>
          by_cases hpurpose : purpose = .reload
          · subst hpurpose
            rcases loaded_of_reload (c := c) task hviews with ⟨scheduler, heq⟩
            rw [heq]
            have htold :
                Keeps (c.placed scheduler table)
                  ((c.placed scheduler table).updateSessions
                    ⟨c.stamps, table⟩) := by
              apply Keeps.foldl
              intro s
              split <;> rfl
            have hplaced : Keeps c (c.placed scheduler table) :=
              Keeps.of_sessions rfl
            exact (hplaced.trans htold).trans (Keeps.of_sessions rfl)
          · rcases loaded_of_first (c := c) task hpurpose hviews with
              ⟨scheduler, heq⟩
            rw [heq]
            have hplaced : Still c (c.placed scheduler table).release :=
              ⟨rfl, rfl, rfl⟩
            exact Keeps.still_or_opens
              (still_or_opens_deliverTable hplaced task purpose rfl)
  | @refreshed task _ scheduled views _ =>
      rcases refreshed_cases c task scheduled views with
        ⟨scheduler, ⟨_, heq⟩ | ⟨table, _, _, heq⟩⟩
      · rw [heq]
        exact Keeps.of_sessions rfl
      · rw [heq]
        have htold :
            Keeps (c.placed scheduler table)
              ((c.placed scheduler table).informSessions
                ⟨c.stamps, table⟩) := by
          apply Keeps.foldl
          intro s
          rfl
        have hplaced : Keeps c (c.placed scheduler table) :=
          Keeps.of_sessions rfl
        refine (hplaced.trans htold).trans (Keeps.of_sessions ?_)
        unfold startSweep
        split <;> rfl
  | begin _ => exact Keeps.visit c _ .sweep _
  | waiting _ _ _ _ => exact absurd rfl (hother _)
  | toured _ _ _ => exact absurd rfl (hother _)
  | cleaned _ _ _ => exact absurd rfl (hother _)
  | shutdown =>
      unfold shutdown
      dsimp only
      split
      · have hclosing :
            Keeps c
              ((abandonScheduled { c with
                isActive := false
                scheduler := c.scheduler.cancel
                registry := [] }).addTask (.spawned [])) :=
          Keeps.of_sessions rfl
        exact hclosing.trans (Keeps.visit _ _ .shutdown c.registry)
      · exact Keeps.of_sessions rfl
  | closeSession id =>
      have hadded : Keeps c (c.addTask (.spawned [])) := Keeps.of_sessions rfl
      exact hadded.trans (Keeps.visit _ _ .close [id])
  | @sweepSession id table phase _ =>
      have hswept :
          Keeps c
            (c.modifySession id
              (fun s =>
                s.withPool (s.pool.sweep (table.getD s.pool.table.table)))) :=
        Keeps.modify (fun s _ _ _ hk => kept_sweep s.pool _ hk)
      exact hswept.trans (Keeps.of_sessions rfl)
  | @drainSession id phase _ =>
      have hdrained :
          Keeps c (c.modifySession id (fun s => s.withPool s.pool.drain)) :=
        Keeps.modify (fun s _ _ _ hk => kept_drain s.pool hk)
      exact hdrained.trans (Keeps.of_sessions rfl)
  | @session id event s t found stepped =>
      apply Keeps.modify
      intro r hr n k hk
      rw [found] at hr
      cases hr
      exact kept_of_stepSession (hc id s found) stepped hk
  | beginTicks scheduler => exact Keeps.of_sessions rfl
  | tick scheduler => exact Keeps.of_sessions rfl
  | round scheduler =>
      have hscheduled : Still c { c with scheduler } := ⟨rfl, rfl, rfl⟩
      exact Keeps.of_sessions (still_refresh hscheduled true).sessions
  | reordered perm => exact Keeps.of_sessions rfl
  | letGo => exact Keeps.of_sessions rfl

theorem cleanup?_of_cleaned (hc : c.Rooted) {own m : Nat} {s : Session}
    {pool : Pool} (hs : c.session? own = some s)
    (hstep : s.pool.step (.cleaned m) = some pool)
    (hk : c.cleanup? id n = some k) :
    exists k', (c.modifySession own (fun s => s.withPool pool)).cleanup? id n =
      some k' ∧ (¬ (own = id ∧ m = n) -> k' = k) := by
  rcases cleanup?_eq_some.mp hk with ⟨t, ht, hn⟩
  by_cases hid : own = id
  · subst hid
    rw [hs] at ht
    cases ht
    rcases Pool.cleanup_of_kind ((hc own s hs).sound.kind_of hstep) hn with
      ⟨k', hk', _, hkept⟩
    refine ⟨k', ?_,
      fun hother => hkept (fun heq => hother ⟨rfl, Pool.Event.cleaned.inj heq⟩)⟩
    rw [cleanup?_eq_some, session?_modifySession, if_pos rfl, hs]
    exact ⟨s.withPool pool, rfl, hk'⟩
  · refine ⟨k, ?_, fun _ => rfl⟩
    rw [cleanup?_eq_some, session?_modifySession, if_neg hid]
    exact ⟨t, ht, hn⟩

/-- A cleanup goes on only at an event that is about a task that waits for
it. -/
theorem cleanup_of_step (hc : c.Rooted) (h : c.step event = some q)
    (hk : c.cleanup? id n = some k) :
    q.cleanup? id n = some k ∨
      exists task phase, event = .cleaned task ∧ c.phase? task = some phase ∧
        phase.cleanup? = some (id, n) := by
  by_cases hcleaned : exists task, event = .cleaned task
  · rcases hcleaned with ⟨task, rfl⟩
    rcases cleaned_cases h with
      ⟨phase, own, m, s, pool, hphase, hwaits, hs, hstep, hcases⟩
    by_cases hsame : own = id ∧ m = n
    · rcases hsame with ⟨rfl, rfl⟩
      exact Or.inr ⟨task, phase, rfl, hphase, hwaits⟩
    · left
      rcases cleanup?_of_cleaned hc hs hstep hk with ⟨k', hk', hkept⟩
      rw [hkept hsame] at hk'
      rcases hcases with ⟨_, rfl⟩ | ⟨_, hresumes⟩
      · exact hk'
      · cases hresumes with
        | tour tour visited _ rest =>
            have hleft :=
              Keeps.of_sessions
                (sessions_leave
                  ((c.modifySession own (fun s => s.withPool pool)).setPhase
                    task (.finished .done)) tour visited)
            exact (Keeps.visit _ task tour rest).kept (hleft.kept hk')
        | done _ _ _ outcome => exact hk'
  · exact Or.inl
      ((keeps_of_step hc h (fun task heq => hcleaned ⟨task, heq⟩)).kept hk)

def Phase.Waits (phase : Phase) : Prop :=
  exists own, phase.cleanup? = some own

theorem Phase.Waits.inner : Phase.Inner Phase.Waits where
  queued _ := nofun
  refreshing _ _ := nofun
  spawned _ := nofun
  finished _ := nofun

def actor (c : Client) (event : Event) : Nat :=
  event.task?.getD c.tasks.length

inductive Waited (c : Client) (event : Event) (q : Client) (i id n : Nat)
    (phase : Phase) : Prop where
  /-- It has waited before, and the event is about somebody else. -/
  | before (held : c.phase? i = some phase) (other : event ≠ .cleaned i)
  | begun (begun : Begun c q id n) (own : c.actor event = i)
  /-- Its cleanup has gone on and has to wait again. -/
  | again (held : c.phase? i = some phase) (waits : q.isCleaning id n = true)

theorem Waited.of_addTask {outcome : Outcome} (hr : r.tasks = c.tasks)
    (hother : event ≠ .cleaned i)
    (hi : (r.addTask (.finished outcome)).phase? i = some phase)
    (hwaits : phase.cleanup? = some (id, n)) :
    Waited c event q i id n phase := by
  rw [phase?_addTask] at hi
  split at hi
  · cases hi
    cases hwaits
  · exact Waited.before ((phase?_of_tasks hr i).symm.trans hi) hother

theorem Waited.of_cleanPool {own : Nat} {counts : Bool} {clean : Pool -> Pool}
    (hq : c.cleanPool own counts clean = some q)
    (hactor : c.actor event = c.tasks.length) (hother : event ≠ .cleaned i)
    (hi : q.phase? i = some phase) (hwaits : phase.cleanup? = some (id, n)) :
    Waited c event q i id n phase := by
  rcases cleanPool_cases hq with ⟨s, hs, ⟨hcleaning, rfl⟩ | ⟨outcome, rfl⟩⟩
  · rw [phase?_addTask] at hi
    split at hi
    · rename_i hnew
      cases hi
      cases hwaits
      rw [tasks_modifySession] at hnew
      exact Waited.begun ⟨cleanup?_length hs, hcleaning⟩
        (hactor.trans hnew.symm)
    · exact Waited.before
        ((phase?_of_tasks (tasks_modifySession ..) i).symm.trans hi) hother
  · exact Waited.of_addTask (tasks_modifySession ..) hother hi hwaits

theorem Waited.of_visit
    (hr : forall {k}, c.cleanup? id n = some k ->
      exists m, r.cleanup? id n = some m)
    (hback : r.phase? i = some phase -> task ≠ i ->
      c.phase? i = some phase ∧ event ≠ .cleaned i)
    (hactor : c.actor event = task)
    (hi : (r.visit task tour ids).phase? i = some phase)
    (hwaits : phase.cleanup? = some (id, n)) :
    Waited c event (r.visit task tour ids) i id n phase := by
  rcases waits_visit hi hwaits with ⟨hold, hne⟩ | ⟨hbegun, hsame⟩
  · rcases hback hold hne with ⟨hheld, hother⟩
    exact Waited.before hheld hother
  · exact Waited.begun (hbegun.earlier hr) (hactor.trans hsame)

theorem waited_of_cleaned (hc : c.Rooted) (h : c.step (.cleaned task) = some q)
    (hi : q.phase? i = some phase) (hwaits : phase.cleanup? = some (id, n)) :
    Waited c (.cleaned task) q i id n phase := by
  rcases cleaned_cases h with
    ⟨own, other, m, s, pool, hown, hat, hs, hstep, hcases⟩
  have htasks : forall j,
      (c.modifySession other (fun s => s.withPool pool)).phase? j =
        c.phase? j :=
    phase?_of_tasks (tasks_modifySession ..)
  have hother (hne : task ≠ i) : Event.cleaned task ≠ .cleaned i :=
    fun heq => hne (Event.cleaned.inj heq)
  rcases hcases with ⟨hcleaning, rfl⟩ | ⟨_, hresumes⟩
  · rw [htasks] at hi
    by_cases hne : task = i
    · subst hne
      rw [hown] at hi
      cases hi
      rw [hat] at hwaits
      cases hwaits
      exact Waited.again hown hcleaning
    · exact Waited.before hi (hother hne)
  · cases hresumes with
    | tour tour visited _ rest =>
        have hleft :=
          Keeps.of_sessions
            (sessions_leave
              ((c.modifySession other (fun s => s.withPool pool)).setPhase task
                (.finished .done)) tour visited)
        refine Waited.of_visit (fun hk => ?_) (fun hold hne => ⟨?_, hother hne⟩)
          rfl hi hwaits
        · rcases cleanup?_of_cleaned hc hs hstep hk with ⟨k', hk', _⟩
          exact ⟨k', hleft.kept hk'⟩
        · rw [phase?_of_tasks (tasks_leave _ tour visited), phase?_setPhase,
            if_neg hne, htasks] at hold
          exact hold
    | done _ _ _ outcome =>
        rcases phase_of_setPhase hi with ⟨hold, hne⟩ | ⟨rfl, _⟩
        · rw [phase?_setPhase, if_neg hne, htasks] at hold
          exact Waited.before hold (hother hne)
        · cases hwaits

theorem waited_of_others (h : c.step event = some q)
    (hcleaned : forall task, event ≠ .cleaned task)
    (hi : q.phase? i = some phase) (hwaits : phase.cleanup? = some (id, n)) :
    Waited c event q i id n phase := by
  have hother : event ≠ .cleaned i := hcleaned i
  have hinner := Phase.Waits.inner
  have hload : forall purpose, ¬ Phase.Waits (.loading purpose) :=
    fun _ => nofun
  have hkept {k : Pool.Cleanup} (hk : c.cleanup? id n = some k) :
      exists m, c.cleanup? id n = some m :=
    ⟨k, hk⟩
  have hplain {task : Nat} (hq : Plain Phase.Waits task c q) :
      Waited c event q i id n phase :=
    Waited.before (hq.back ⟨_, hwaits⟩ hi) hother
  have hadded {r : Client} {outer : Phase} (hr : r.tasks = c.tasks)
      (hne : c.tasks.length ≠ i)
      (hold : (r.addTask outer).phase? i = some phase) :
      c.phase? i = some phase := by
    rw [phase?_addTask, hr, if_neg hne.symm] at hold
    exact (phase?_of_tasks hr i).symm.trans hold
  cases event with
  | cleaned task => exact absurd rfl (hcleaned task)
  | sweepSession other table =>
      simp only [step] at h
      exact Waited.of_cleanPool h rfl hother hi hwaits
  | drainSession other =>
      simp only [step] at h
      exact Waited.of_cleanPool h rfl hother hi hwaits
  | fetch purpose =>
      cases h
      exact hplain (Plain.fetch hinner hload c purpose)
  | granted task =>
      cases taken_of_step h
      exact @hplain task (Plain.enterLoad hinner hload (Plain.of_tasks rfl) _)
  | viewed task views =>
      cases taken_of_step h with
      | loaded _ _ => exact hplain (Plain.loaded hinner c task _ views)
      | refreshed _ _ => exact hplain (Plain.refreshed hinner c task _ views)
  | refresh =>
      cases h
      exact @hplain c.tasks.length
        (Plain.refresh hinner (Plain.of_tasks rfl) false)
  | begin task =>
      cases taken_of_step h with
      | begin _ =>
          exact Waited.of_visit hkept (fun hold _ => ⟨hold, hother⟩)
            rfl hi hwaits
  | shutdown =>
      cases h
      unfold shutdown at hi ⊢
      dsimp only at hi ⊢
      split
      · rename_i hactive
        rw [if_pos hactive] at hi
        refine Waited.of_visit hkept (fun hold hne => ⟨?_, hother⟩)
          rfl hi hwaits
        rw [phase?_addTask, if_neg] at hold
        · refine phase?_of_abandonScheduled (c := { c with
          isActive := false
          scheduler := c.scheduler.cancel
          registry := [] }) hold (fun outcome heq => ?_)
          rw [heq] at hwaits
          cases hwaits
        · intro heq
          exact hne (heq.trans (List.length_map ..)).symm
      · rename_i hinactive
        rw [if_neg hinactive] at hi
        exact Waited.of_addTask rfl hother hi hwaits
  | closeSession other =>
      cases h
      exact Waited.of_visit hkept
        (fun hold hne => ⟨hadded rfl hne hold, hother⟩) rfl hi hwaits
  | session other event =>
      cases taken_of_step h with
      | session _ _ =>
          exact Waited.before
            ((phase?_of_tasks (tasks_modifySession ..) i).symm.trans hi) hother
  | tick now =>
      cases taken_of_step h with
      | tick scheduler => exact Waited.before hi hother
      | round scheduler =>
          have hscheduled :
              Plain Phase.Waits c.tasks.length c { c with scheduler } :=
            Plain.of_tasks rfl
          exact hplain (Plain.refresh hinner hscheduled true)
  | setTable table =>
      cases h
      exact Waited.before hi hother
  | beginTicks now =>
      cases taken_of_step h
      exact Waited.before hi hother
  | reordered registry =>
      cases taken_of_step h
      exact Waited.before hi hother
  | letGo =>
      cases h
      exact Waited.before hi hother

theorem waited_of_step (hc : c.Rooted) (h : c.step event = some q)
    (hi : q.phase? i = some phase) (hwaits : phase.cleanup? = some (id, n)) :
    Waited c event q i id n phase := by
  by_cases hcleaned : exists task, event = .cleaned task
  · rcases hcleaned with ⟨task, rfl⟩
    exact waited_of_cleaned hc h hi hwaits
  · exact waited_of_others h (fun task heq => hcleaned ⟨task, heq⟩) hi hwaits

/-! ## Whole runs -/

/-- Every task that waits for a cleanup has to wait, and no two tasks wait for
the same cleanup. -/
structure Attributed (c : Client) : Prop where
  waits : forall {i id n : Nat} {phase : Phase}, c.phase? i = some phase ->
    phase.cleanup? = some (id, n) -> c.isCleaning id n = true
  alone : forall {i j id n : Nat} {phase other : Phase},
    c.phase? i = some phase -> c.phase? j = some other ->
    phase.cleanup? = some (id, n) -> other.cleanup? = some (id, n) -> i = j

namespace Attributed

theorem of_start {settings : Settings} (h : start settings = .ok c) :
    c.Attributed := by
  have hnone {i : Nat} {phase : Phase} (hi : c.phase? i = some phase) :
      False := by
    rw [(fresh_of_start h).phase?_eq_none] at hi
    cases hi
  exact ⟨fun hi _ => (hnone hi).elim, fun hi _ _ _ => (hnone hi).elim⟩

theorem not_fresh (hc : c.Attributed) (hi : c.phase? i = some phase)
    (hwaits : phase.cleanup? = some (id, n)) : c.cleanup? id n ≠ none := by
  rcases isCleaning_iff.mp (hc.waits hi hwaits) with ⟨k, hk, _⟩
  rw [hk]
  exact nofun

theorem step (hrooted : c.Rooted) (hc : c.Attributed)
    (h : c.step event = some q) : q.Attributed where
  waits := by
    intro i id n phase hi hwaits
    cases waited_of_step hrooted h hi hwaits with
    | begun begun _ => exact begun.waits
    | again _ waits => exact waits
    | before held other =>
        -- Only the task itself could have let its cleanup go on.
        rcases isCleaning_iff.mp (hc.waits held hwaits) with ⟨k, hk, hclosing⟩
        rcases cleanup_of_step hrooted h hk with
          hkept | ⟨task, phase', hevent, hphase', hwaits'⟩
        · exact isCleaning_iff.mpr ⟨k, hkept, hclosing⟩
        · exact absurd
            (hevent.trans
              (congrArg Event.cleaned (hc.alone hphase' held hwaits' hwaits)))
            other
  alone := by
    intro i j id n phase other hi hj hwaits hother
    have hheld {j : Nat} {other : Phase} (hnew : Begun c q id n)
        (hj : c.phase? j = some other)
        (hother : other.cleanup? = some (id, n)) : i = j :=
      absurd hnew.fresh (hc.not_fresh hj hother)
    cases waited_of_step hrooted h hi hwaits with
    | begun begun own =>
        cases waited_of_step hrooted h hj hother with
        | begun _ own' => exact own.symm.trans own'
        | before held _ => exact hheld begun held hother
        | again held _ => exact hheld begun held hother
    | before held _ =>
        cases waited_of_step hrooted h hj hother with
        | begun begun _ => exact absurd begun.fresh (hc.not_fresh held hwaits)
        | before held' _ => exact hc.alone held held' hwaits hother
        | again held' _ => exact hc.alone held held' hwaits hother
    | again held _ =>
        cases waited_of_step hrooted h hj hother with
        | begun begun _ => exact absurd begun.fresh (hc.not_fresh held hwaits)
        | before held' _ => exact hc.alone held held' hwaits hother
        | again held' _ => exact hc.alone held held' hwaits hother

theorem run {events : List Event} (hrooted : c.Rooted) (hc : c.Attributed)
    (h : c.run events = some q) : q.Attributed :=
  hrooted.induction (P := Attributed) hc h (fun hb hi hr => hi.step hb hr)

end Attributed

end Client
end SlotCluster
