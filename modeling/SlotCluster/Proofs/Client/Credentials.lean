import SlotCluster.Proofs.Client.Sessions
import SlotCluster.Proofs.Client.Tasks
import SlotCluster.Proofs.Discovery.Credentials

/-!
# The credential of a client

A client knows endpoints from its seeds and from the tables that it has loaded.
When the seeds have one password and every view that comes back carries it, so
do the candidates of every later refresh, the fallback of every session and all
tables that the client hands on.
-/

namespace SlotCluster
namespace Client

variable {c q : Client} {event : Event} {password : String}
  {sent accepted : Nat -> Nat -> Prop}

def Phase.Trusted (password : String) : Phase -> Prop
  | .refreshing candidates _ =>
      forall e, e ∈ candidates -> e.credential = some password
  | .finished (.table table) => table.table.Carries password
  | _ => True

/-- All endpoints that the client knows have the password.  On the links of each
session it has gone out or has been accepted as the two predicates say. -/
structure Entrusted (password : String) (sent accepted : Nat -> Nat -> Prop)
    (c : Client) : Prop where
  nonempty : c.seeds ≠ []
  seeds : forall e, e ∈ c.seeds -> e.credential = some password
  table : forall {u : Shared}, c.table = some u -> u.table.Carries password
  phases : forall {i : Nat} {phase : Phase}, c.phase? i = some phase ->
    phase.Trusted password
  pools : forall {id : Nat} {s : Session}, c.session? id = some s ->
    s.pool.Entrusted password (sent id) (accepted id)

namespace Entrusted

theorem fresh (hc : c.Fresh) (htable : c.table = none)
    (hnonempty : c.seeds ≠ [])
    (hseeds : forall e, e ∈ c.seeds -> e.credential = some password) :
    Entrusted password sent accepted c where
  nonempty := hnonempty
  seeds := hseeds
  table := by
    intro u hu
    rw [htable] at hu
    cases hu
  phases := by
    intro i phase hi
    rw [hc.phase?_eq_none] at hi
    cases hi
  pools := by
    intro id s hs
    rw [hc.session?_eq_none] at hs
    cases hs

theorem mono {sent' accepted' : Nat -> Nat -> Prop}
    (hc : Entrusted password sent accepted c)
    (hsent : forall {id l : Nat}, sent id l -> sent' id l)
    (haccepted : forall {id l : Nat}, accepted id l -> accepted' id l) :
    Entrusted password sent' accepted' c where
  nonempty := hc.nonempty
  seeds := hc.seeds
  table := hc.table
  phases := hc.phases
  pools hs := (hc.pools hs).mono hsent haccepted

theorem keep (hc : Entrusted password sent accepted c)
    (hseeds : q.seeds = c.seeds) (htable : q.table = c.table)
    (htasks : q.tasks = c.tasks) (hsessions : q.sessions = c.sessions) :
    Entrusted password sent accepted q where
  nonempty := hseeds ▸ hc.nonempty
  seeds := hseeds ▸ hc.seeds
  table hu := hc.table (htable ▸ hu)
  phases := by
    intro i phase hi
    rw [phase?_of_tasks htasks] at hi
    exact hc.phases hi
  pools := by
    intro id s hs
    cases id with
    | zero => cases hs
    | succ n =>
        have hold : c.session? (n + 1) = some s := by
          change q.sessions[n]? = some s at hs
          rw [hsessions] at hs
          exact hs
        exact hc.pools hold

theorem firstSeed (hc : Entrusted password sent accepted c) :
    c.firstSeed.credential = some password := by
  unfold Client.firstSeed
  cases hseeds : c.seeds with
  | nil => exact absurd hseeds hc.nonempty
  | cons first rest =>
      apply hc.seeds
      rw [hseeds]
      exact List.mem_cons_self

theorem setPhase (hc : Entrusted password sent accepted c) (task : Nat)
    {phase : Phase} (hphase : phase.Trusted password) :
    Entrusted password sent accepted (c.setPhase task phase) where
  nonempty := hc.nonempty
  seeds := hc.seeds
  table := hc.table
  phases := by
    intro i new hi
    rcases phase_of_setPhase hi with ⟨hold, _⟩ | ⟨rfl, _⟩
    · exact hc.phases hold
    · exact hphase
  pools := hc.pools

theorem addTask (hc : Entrusted password sent accepted c) {phase : Phase}
    (hphase : phase.Trusted password) :
    Entrusted password sent accepted (c.addTask phase) where
  nonempty := hc.nonempty
  seeds := hc.seeds
  table := hc.table
  phases := by
    intro i new hi
    rw [phase?_addTask] at hi
    split at hi
    · cases hi
      exact hphase
    · exact hc.phases hi
  pools := hc.pools

/-! ## Sessions -/

theorem modifySession (hc : Entrusted password sent accepted c) {id : Nat}
    {f : Session -> Session}
    (hf : forall s, c.session? id = some s ->
      (f s).pool.Entrusted password (sent id) (accepted id)) :
    Entrusted password sent accepted (c.modifySession id f) := by
  rcases c.modifySession_eq id f with ⟨sessions, heq⟩
  have hpools : forall {other : Nat} {s : Session},
      (c.modifySession id f).session? other = some s ->
      s.pool.Entrusted password (sent other) (accepted other) := by
    intro other s hs
    rw [session?_modifySession] at hs
    split at hs
    · rename_i hat
      subst hat
      rcases Option.map_eq_some_iff.mp hs with ⟨old, hold, rfl⟩
      exact hf old hold
    · exact hc.pools hs
  rw [heq] at hpools ⊢
  exact ⟨hc.nonempty, hc.seeds, hc.table, hc.phases, hpools⟩

theorem foldl (hc : Entrusted password sent accepted c) {f : Session -> Session}
    (hf : forall (id : Nat) (s : Session),
      s.pool.Entrusted password (sent id) (accepted id) ->
      (f s).pool.Entrusted password (sent id) (accepted id))
    (ids : List Nat) :
    Entrusted password sent accepted
      (ids.foldl (fun c id => c.modifySession id f) c) := by
  induction ids generalizing c with
  | nil => exact hc
  | cons id rest ih =>
      rw [List.foldl_cons]
      exact ih (hc.modifySession (fun s hs => hf id s (hc.pools hs)))

theorem updateSessions (hc : Entrusted password sent accepted c)
    {table : Shared} (htable : table.table.Carries password) :
    Entrusted password sent accepted (c.updateSessions table) := by
  apply hc.foldl
  intro id s hs
  split
  · exact hs.apply htable
  · exact hs

theorem informSessions (hc : Entrusted password sent accepted c)
    {table : Shared} (htable : table.table.Carries password) :
    Entrusted password sent accepted (c.informSessions table) :=
  hc.foldl (fun _ _ hs => hs.apply htable) c.registry

theorem pool_close {s : Session} {id : Nat}
    (hs : s.pool.Entrusted password (sent id) (accepted id)) :
    s.close.pool.Entrusted password (sent id) (accepted id) := by
  unfold Session.close
  split
  · exact hs
  · exact hs.drain

theorem visitOne (hc : Entrusted password sent accepted c) (tour : Tour)
    (id : Nat) : Entrusted password sent accepted (c.visitOne tour id).1 := by
  unfold Client.visitOne
  split
  · exact hc
  · dsimp only
    split
    · exact hc.modifySession (fun s hs => (hc.pools hs).sweep _)
    · split
      · exact hc
      · exact hc.modifySession (fun s hs => pool_close (hc.pools hs))

theorem leave (hc : Entrusted password sent accepted c) (tour : Tour)
    (id : Nat) : Entrusted password sent accepted (c.leave tour id) := by
  cases tour with
  | sweep => exact hc
  | _ => exact hc.keep rfl rfl rfl rfl

theorem visit (hc : Entrusted password sent accepted c) (task : Nat)
    (tour : Tour) (ids : List Nat) :
    Entrusted password sent accepted (c.visit task tour ids) := by
  induction ids generalizing c with
  | nil =>
      apply hc.setPhase task
      cases tour <;> trivial
  | cons id rest ih =>
      have hone := hc.visitOne tour id
      rcases visit_cons_cases c task tour id rest with
        heq | ⟨cleanup, _, heq⟩ | heq
      · rw [heq]
        exact ih hone
      · rw [heq]
        exact hone.setPhase task trivial
      · rw [heq]
        exact ih (hone.leave tour id)

theorem openSession (hc : Entrusted password sent accepted c) (task : Nat)
    {table : Shared} (htable : table.table.Carries password) :
    Entrusted password sent accepted (c.openSession task table) := by
  rcases c.openSession_eq task table with ⟨scheduler, heq⟩
  have hnew (id : Nat) :
      (Session.start table c.firstSeed c.timeout).pool.Entrusted password
        (sent id) (accepted id) :=
    Pool.Entrusted.start htable hc.firstSeed
  have harrival (id : Nat) :
      (arrival c.isActive table c.firstSeed c.timeout).pool.Entrusted password
        (sent id) (accepted id) := by
    unfold arrival
    split
    · exact hnew id
    · exact pool_close (hnew id)
  have hopened : Entrusted password sent accepted
      { c with
        scheduler
        sessions :=
          c.sessions ++ [arrival c.isActive table c.firstSeed c.timeout]
        registry := c.enrolled } := by
    refine ⟨hc.nonempty, hc.seeds, hc.table, hc.phases, ?_⟩
    intro id s hs
    change session? { c with sessions := c.sessions ++ [_] } id = some s at hs
    rw [session?_append] at hs
    split at hs
    · cases hs
      exact harrival id
    · exact hc.pools hs
  rw [heq]
  apply hopened.setPhase task
  split <;> trivial

/-! ## Loads -/

theorem deliverTable (hc : Entrusted password sent accepted c) (task : Nat)
    (purpose : Purpose) {table : Shared}
    (htable : table.table.Carries password) :
    Entrusted password sent accepted (c.deliverTable task purpose table) := by
  cases purpose with
  | session => exact hc.openSession task htable
  | _ => exact hc.setPhase task htable

theorem release (hc : Entrusted password sent accepted c) :
    Entrusted password sent accepted c.release :=
  hc.keep rfl rfl rfl rfl

theorem enterLoad (hc : Entrusted password sent accepted c) (task : Nat)
    (purpose : Purpose) :
    Entrusted password sent accepted (c.enterLoad task purpose) := by
  unfold Client.enterLoad
  split
  · exact hc.setPhase task trivial
  · rename_i htable
    exact hc.release.deliverTable task _ (hc.table htable)
  · exact hc.setPhase task trivial

theorem awaitLoad (hc : Entrusted password sent accepted c) (task : Nat)
    (purpose : Purpose) :
    Entrusted password sent accepted (c.awaitLoad task purpose) := by
  unfold Client.awaitLoad
  split
  · have hturn :
        Entrusted password sent accepted { c with loader := some task } :=
      hc.keep rfl rfl rfl rfl
    exact hturn.enterLoad task purpose
  · exact hc.keep rfl rfl rfl rfl

theorem fetch (hc : Entrusted password sent accepted c) (purpose : Purpose) :
    Entrusted password sent accepted (c.fetch purpose) := by
  have hadded :
      Entrusted password sent accepted (c.addTask (.queued purpose)) :=
    hc.addTask trivial
  unfold Client.fetch
  dsimp only
  split
  · rename_i htable
    exact hadded.deliverTable _ _ (hc.table htable)
  · rename_i htable
    split
    · exact hadded.setPhase _ trivial
    · exact hadded.deliverTable _ _ (hc.table htable)
  · split
    · exact hadded.setPhase _ trivial
    · exact hadded.awaitLoad _ _

theorem placed (hc : Entrusted password sent accepted c) (scheduler : Scheduler)
    {table : Table} (htable : table.Carries password) :
    Entrusted password sent accepted (c.placed scheduler table) where
  nonempty := hc.nonempty
  seeds := hc.seeds
  table := by
    intro u hu
    cases hu
    exact htable
  phases := hc.phases
  pools := hc.pools

theorem loaded (hc : Entrusted password sent accepted c) (task : Nat)
    (purpose : Purpose) {views : Discovery.Views}
    (hviews : forall table, views.canonical? = some table ->
      table.Carries password) :
    Entrusted password sent accepted (c.loaded task purpose views) := by
  cases hfirst : views.canonical? with
  | none =>
      rw [loaded_of_none task purpose hfirst]
      exact hc.release.setPhase task trivial
  | some table =>
      have htable : table.Carries password := hviews table hfirst
      by_cases hpurpose : purpose = .reload
      · subst hpurpose
        rcases loaded_of_reload (c := c) task hfirst with ⟨scheduler, heq⟩
        rw [heq]
        exact ((hc.placed scheduler htable).updateSessions
          htable).release.setPhase task htable
      · rcases loaded_of_first (c := c) task hpurpose hfirst with
          ⟨scheduler, heq⟩
        rw [heq]
        exact (hc.placed scheduler htable).release.deliverTable task
          purpose htable

/-! ## Refreshes -/

theorem refreshCandidates (hc : Entrusted password sent accepted c)
    {e : Endpoint} (he : e ∈ c.refreshCandidates) :
    e.credential = some password := by
  unfold Client.refreshCandidates at he
  split at he
  · rename_i htable
    split at he
    · exact hc.seeds e he
    · exact (hc.table htable).orderedEndpoints he
  · exact hc.seeds e he

theorem refresh (hc : Entrusted password sent accepted c) (scheduled : Bool) :
    Entrusted password sent accepted (c.refresh scheduled) := by
  unfold Client.refresh
  split
  · exact hc.addTask (fun _ he => hc.refreshCandidates he)
  · exact hc.addTask trivial

theorem startSweep (hc : Entrusted password sent accepted c) :
    Entrusted password sent accepted c.startSweep := by
  unfold Client.startSweep
  split
  · exact hc.addTask trivial
  · exact hc

theorem refreshed (hc : Entrusted password sent accepted c) (task : Nat)
    (scheduled : Bool) {views : Discovery.Views}
    (hviews : forall table, views.canonical? = some table ->
      table.Carries password) :
    Entrusted password sent accepted (c.refreshed task scheduled views) := by
  rcases refreshed_cases c task scheduled views with
    ⟨scheduler, ⟨_, heq⟩ | ⟨table, hfirst, _, heq⟩⟩
  · have hscheduled : Entrusted password sent accepted { c with scheduler } :=
      hc.keep rfl rfl rfl rfl
    rw [heq]
    exact hscheduled.setPhase task trivial
  · have htable : table.Carries password := hviews table hfirst
    rw [heq]
    exact ((hc.placed scheduler htable).informSessions
      htable).startSweep.setPhase task trivial

/-! ## The end of a client -/

theorem abandonScheduled (hc : Entrusted password sent accepted c) :
    Entrusted password sent accepted c.abandonScheduled where
  nonempty := hc.nonempty
  seeds := hc.seeds
  table := hc.table
  phases := by
    intro i phase hi
    change (c.tasks.map _)[i]? = _ at hi
    rw [List.getElem?_map] at hi
    rcases Option.map_eq_some_iff.mp hi with ⟨old, hold, heq⟩
    split at heq
    · rw [← heq]
      trivial
    · rw [← heq]
      exact hc.phases hold
  pools := hc.pools

theorem shutdown (hc : Entrusted password sent accepted c) :
    Entrusted password sent accepted c.shutdown := by
  unfold Client.shutdown
  dsimp only
  split
  · have hended :
        Entrusted password sent accepted
          { c with
            isActive := false
            scheduler := c.scheduler.cancel
            registry := [] } :=
      hc.keep rfl rfl rfl rfl
    have hspawned : Phase.Trusted password (.spawned []) := trivial
    exact (hended.abandonScheduled.addTask hspawned).visit
      _ .shutdown c.registry
  · exact hc.addTask trivial

/-! ## Cleanups -/

theorem cleanupOutcome (c : Client) (id cleanup : Nat) (counts : Bool) :
    Phase.Trusted password
      (.finished (c.cleanupOutcome id cleanup counts)) := by
  unfold Client.cleanupOutcome
  split
  · split <;> trivial
  · trivial

theorem cleanPool (hc : Entrusted password sent accepted c) (id : Nat)
    (counts : Bool) (clean : Pool -> Pool)
    (hclean : forall p : Pool, p.Entrusted password (sent id) (accepted id) ->
      (clean p).Entrusted password (sent id) (accepted id))
    (h : c.cleanPool id counts clean = some q) :
    Entrusted password sent accepted q := by
  have hcleaned :
      Entrusted password sent accepted
        (c.modifySession id (fun s => s.withPool (clean s.pool))) :=
    hc.modifySession (fun s hs => hclean s.pool (hc.pools hs))
  unfold Client.cleanPool at h
  split at h
  · cases h
  · dsimp only at h
    split at h
    · cases h
      exact hcleaned.addTask trivial
    · cases h
      exact hcleaned.addTask (cleanupOutcome _ _ _ _)

theorem cleaned (hc : Entrusted password sent accepted c) {task : Nat}
    (h : c.step (.cleaned task) = some q) :
    Entrusted password sent accepted q := by
  have hstepped {id cleanup : Nat} {s : Session} {pool : Pool}
    (hs : c.session? id = some s)
      (hpool : s.pool.step (.cleaned cleanup) = some pool) :
      Entrusted password sent accepted
        (c.modifySession id (fun s => s.withPool pool)) :=
    hc.modifySession (fun _ _ => (hc.pools hs).step hpool nofun nofun nofun)
  have hdone : Phase.Trusted password (.finished .done) := trivial
  simp only [Client.step] at h
  split at h
  · rcases stepCleanup_cases h with ⟨s, pool, hs, hpool, rfl | rfl⟩
    · exact hstepped hs hpool
    · exact (((hstepped hs hpool).setPhase task hdone).leave _ _).visit _ _ _
  · rcases stepCleanup_cases h with ⟨s, pool, hs, hpool, rfl | rfl⟩
    · exact hstepped hs hpool
    · exact ((hstepped hs hpool).setPhase task hdone).setPhase task
        (cleanupOutcome _ _ _ _)
  · cases h

end Entrusted

/-! ## Steps -/

def Event.views? : Event -> Option Discovery.Views
  | .viewed _ views => some views
  | _ => none

/-- The table that an event brings and that the client has not loaded itself. -/
def Event.handed? : Event -> Option Table
  | .setTable table => some table
  | .session _ event => event.table?.map Shared.table
  | _ => none

theorem entrusted_of_stepSession {s t : Session} {event : SessionEvent}
    {sent accepted : Nat -> Prop} (hs : s.pool.Entrusted password sent accepted)
    (h : stepSession s event = some t)
    (htable : forall {u : Shared}, event.table? = some u ->
      u.table.Carries password)
    (hsent : forall {i l : Nat} {ticket : Pool.Ticket}, event = .linked i ->
      t.pool.phase? i = some (.authenticating ticket l) -> sent l)
    (haccepted : forall {i l : Nat} {ticket : Pool.Ticket},
      event = .accepted i ->
      s.pool.phase? i = some (.authenticating ticket l) -> accepted l) :
    t.pool.Entrusted password sent accepted := by
  have heffect := (poolEffect_of_stepSession h).2
  generalize t.pool = pool at heffect hsent
  cases heffect with
  | kept _ => exact hs
  | refused _ target _ =>
      exact hs.addCall target (Pool.Phase.Trusted.of_none rfl)
  | requested _ target => exact hs.request target
  | passed same stepped =>
      apply hs.step stepped
      · intro u hu
        apply htable
        rw [event.table?_eq, same]
        exact hu
      · intro i l ticket he
        subst he
        exact hsent (SessionEvent.eq_linked same)
      · intro i l ticket he
        subst he
        exact haccepted (SessionEvent.eq_accepted same)

theorem session_of_step {id : Nat} {event : SessionEvent}
    (h : c.step (.session id event) = some q) :
    exists s t, c.session? id = some s ∧ stepSession s event = some t ∧
      q.session? id = some t := by
  cases taken_of_step h with
  | @session _ _ s t found stepped =>
      refine ⟨s, t, found, stepped, ?_⟩
      simp [found]

/-- A step keeps the invariant, if the tables that it brings carry the password,
and what it adds to the traffic of a session's links is noted. -/
theorem Entrusted.step (hc : Entrusted password sent accepted c)
    (h : c.step event = some q)
    (hviews : forall {views : Discovery.Views} {table : Table},
      event.views? = some views -> views.canonical? = some table ->
      table.Carries password)
    (hhanded : forall {table : Table}, event.handed? = some table ->
      table.Carries password)
    (hsent : forall {id i l : Nat} {t : Session} {ticket : Pool.Ticket},
      event = .session id (.linked i) -> q.session? id = some t ->
      t.pool.phase? i = some (.authenticating ticket l) -> sent id l)
    (haccepted : forall {id i l : Nat} {s : Session} {ticket : Pool.Ticket},
      event = .session id (.accepted i) -> c.session? id = some s ->
      s.pool.phase? i = some (.authenticating ticket l) -> accepted id l) :
    Entrusted password sent accepted q := by
  cases taken_of_step h with
  | fetch purpose => exact hc.fetch purpose
  | granted _ _ => exact hc.enterLoad _ _
  | setTable table => exact hc.placed c.scheduler (hhanded rfl)
  | refresh => exact hc.refresh false
  | loaded views _ => exact hc.loaded _ _ (fun _ => hviews rfl)
  | refreshed views _ => exact hc.refreshed _ _ (fun _ => hviews rfl)
  | begin _ => exact hc.visit _ _ _
  | waiting _ _ _ _ => exact hc.cleaned h
  | toured _ _ _ => exact hc.cleaned h
  | cleaned _ _ _ => exact hc.cleaned h
  | shutdown => exact hc.shutdown
  | closeSession id =>
      have hspawned : Phase.Trusted password (.spawned []) := trivial
      exact (hc.addTask hspawned).visit _ .close [id]
  | @sweepSession id table _ _ =>
      exact hc.cleanPool id true (fun p => p.sweep (table.getD p.table.table))
        (fun _ hp => hp.sweep _) h
  | @drainSession id _ _ =>
      exact hc.cleanPool id false Pool.drain (fun _ hp => hp.drain) h
  | @session id event s t found stepped =>
      rcases session_of_step h with ⟨s', t', found', stepped', hnew⟩
      rw [found] at found'
      cases found'
      rw [stepped] at stepped'
      cases stepped'
      apply hc.modifySession
      intro _ _
      apply entrusted_of_stepSession (hc.pools found) stepped
      · intro u hu
        apply hhanded
        rw [Event.handed?, hu]
        rfl
      · intro i l ticket hevent hphase
        exact hsent (congrArg _ hevent) hnew hphase
      · intro i l ticket hevent hphase
        exact haccepted (congrArg _ hevent) found hphase
  | beginTicks scheduler => exact hc.keep rfl rfl rfl rfl
  | tick scheduler => exact hc.keep rfl rfl rfl rfl
  | round scheduler =>
      have hscheduled : Entrusted password sent accepted { c with scheduler } :=
        hc.keep rfl rfl rfl rfl
      exact hscheduled.refresh true
  | reordered perm => exact hc.keep rfl rfl rfl rfl
  | letGo => exact hc.keep rfl rfl rfl rfl

end Client
end SlotCluster
