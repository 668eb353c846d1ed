import SlotCluster.Proofs.Client.Agreement
import SlotCluster.Proofs.Client.OpenSessions

/-!
# The end of a client

Once the end of a client has returned and nobody is in the middle of anything,
the registry is empty and every session has closed all its connections.  Nothing
opens a connection any more: whoever asks for a session, a new table or a node
is refused, and so is whoever was waiting for a session when the client was shut
down.
-/

namespace SlotCluster

/-! ## Closed sessions -/

namespace Session

/-- Whoever asks the session for a node, or to send something there, is refused
and opens nothing. -/
structure Refuses (s : Session) : Prop where
  openTarget : forall target,
    (s.openTarget target).pool.phase? s.pool.calls.length = some
      (.finished (.error .shutdown)) ∧
    (s.openTarget target).pool.links = s.pool.links
  route : forall command, s.route command = .error .shutdown
  sendToMasters : forall command, s.sendToMasters command = .error .shutdown
  sendTo : forall id command, exists t,
    (s.sendTo id command).begin s.deliveries.length = some t ∧
    t.phase? s.deliveries.length = some (.finished (.error .shutdown)) ∧
    t.pool = s.pool

theorem refuses_of_closed {s : Session}
    (hclosed : s.isClosed = true) : s.Refuses where
  openTarget target := by
    rw [openTarget, if_pos hclosed]
    refine ⟨?_, rfl⟩
    show (s.pool.addCall target _).phase? _ = _
    simp
  route command := if_pos hclosed
  sendToMasters command := if_pos hclosed
  sendTo id command := by
    let d : Delivery := { target := .node id, command, guarded := true }
    have hlast :
        (s.sendTo id command).deliveries[s.deliveries.length]? = some d :=
      List.getElem?_concat_length ..
    refine ⟨(s.sendTo id command).setPhase s.deliveries.length
      (.finished (.error .shutdown)), ?_, ?_, rfl⟩
    · rw [begin, hlast]
      simp only [d]
      exact if_pos (by rw [Bool.true_and]; exact hclosed)
    · show (((s.sendTo id command).deliveries.modify _ _)[_]?).map _ = _
      rw [List.getElem?_modify, hlast]
      simp

end Session

namespace Client

variable {c q : Client} {task id : Nat} {event : Event} {events : List Event}

/-! ## Whoever waits for a session -/

inductive Phase.Connects : Phase -> Prop where
  | queued : Connects (.queued .session)
  | loading : Connects (.loading .session)

def Doomed (task : Nat) (c : Client) : Prop :=
  c.isActive = false ∧ exists phase, c.phase? task = some phase ∧
    (phase.Connects ∨ exists e, phase = .finished (.failed e))

theorem phase?_openSession_of_inactive {old : Phase}
    (hactive : c.isActive = false) (hold : c.phase? task = some old)
    (table : Shared) :
    (c.openSession task table).phase? task =
      some (.finished (.failed .shutdown)) := by
  rcases openSession_of_inactive hactive task table with ⟨scheduler, heq⟩
  rw [heq]
  exact phase?_setPhase_self
    (c := { c with scheduler, sessions := _, registry := _ }) _ hold

theorem doomed_enterLoad {old : Phase} (hactive : c.isActive = false)
    (hold : c.phase? task = some old) :
    exists phase, (c.enterLoad task .session).phase? task = some phase ∧
      (phase.Connects ∨ exists e, phase = .finished (.failed e)) := by
  unfold enterLoad
  split
  · contradiction
  · rename_i table _ _
    have hreleased :=
      phase?_openSession_of_inactive (c := c.release) hactive hold table
    exact ⟨_, hreleased, Or.inr ⟨_, rfl⟩⟩
  · exact ⟨_, phase?_setPhase_self _ hold, Or.inl Phase.Connects.loading⟩

theorem doomed_loaded {old : Phase} (hactive : c.isActive = false)
    (hold : c.phase? task = some old) (views : Discovery.Views) :
    exists e, (c.loaded task .session views).phase? task =
      some (.finished (.failed e)) := by
  cases hviews : views.canonical? with
  | none =>
      rw [loaded_of_none task .session hviews]
      exact ⟨_, phase?_setPhase_self (c := c.release) _ hold⟩
  | some table =>
      have hfirst : Purpose.session ≠ .reload := nofun
      rcases loaded_of_first (c := c) task hfirst hviews with ⟨scheduler, heq⟩
      rw [heq]
      exact ⟨_, phase?_openSession_of_inactive
        (c := (c.placed scheduler table).release) hactive hold _⟩

theorem Doomed.step (hrooted : c.Rooted) (hc : Doomed task c)
    (h : c.step event = some q) : Doomed task q := by
  rcases hc with ⟨hactive, phase, hphase, hconnects | ⟨e, rfl⟩⟩
  · refine ⟨(deed_of_step hrooted h).inactive hactive, ?_⟩
    by_cases hevent : event.task? = some task
    · cases taken_of_step h with
      | granted found _ =>
          cases hevent
          rw [hphase] at found
          cases found
          cases hconnects
          exact doomed_enterLoad hactive hphase
      | loaded views found =>
          -- The load may end well, but the session is closed again as soon as
          -- it is opened.
          cases hevent
          rw [hphase] at found
          cases found
          cases hconnects
          rcases doomed_loaded hactive hphase views with ⟨e, he⟩
          exact ⟨_, he, Or.inr ⟨e, rfl⟩⟩
      | refreshed views found =>
          cases hevent
          rw [hphase] at found
          cases found
          cases hconnects
      | _ => cases suits_of_step h hevent hphase <;> cases hconnects
    · refine ⟨phase, phase?_of_step h hphase hevent ?_, Or.inl hconnects⟩
      cases hconnects <;> exact nofun
  · exact ⟨(deed_of_step hrooted h).inactive hactive, _,
      finished_of_step h hphase, Or.inr ⟨e, rfl⟩⟩

theorem Doomed.run (hrooted : c.Rooted) (hc : Doomed task c)
    (h : c.run events = some q) : Doomed task q :=
  hrooted.induction (P := Doomed task) hc h
    (fun hb hi hr => Doomed.step hb hi hr)

/-!
## After the end

In an idle client every task has its outcome and every pool is quiet, so nobody
is left who could open a session or would have to close one.
-/

structure Idle (c : Client) : Prop where
  tasks : forall {phase : Phase}, phase ∈ c.tasks ->
    exists outcome, phase = .finished outcome
  pools : forall {s : Session}, s ∈ c.sessions -> s.pool.Quiet

theorem Idle.finished (hc : c.Idle) {i : Nat} {phase : Phase}
    (hi : c.phase? i = some phase) :
    exists outcome, phase = .finished outcome :=
  hc.tasks (List.mem_of_getElem? hi)

theorem idle_of_finished {outcomes : List Outcome}
    (htasks : c.tasks = outcomes.map Phase.finished)
    (hpools : forall s, s ∈ c.sessions -> s.pool.Quiet) : c.Idle where
  tasks := by
    intro phase hphase
    rw [htasks] at hphase
    rcases List.mem_map.mp hphase with ⟨outcome, _, rfl⟩
    exact ⟨outcome, rfl⟩
  pools := hpools _

inductive Phase.Spent : Phase -> Prop where
  | finished (outcome : Outcome) : Spent (.finished outcome)
  | cleaning (session cleanup : Nat) (counts : Bool) :
      Spent (.cleaning session cleanup counts)

structure Released (c : Client) : Prop where
  inactive : c.isActive = false
  registry : c.registry = []
  sessions : forall {id : Nat} {s : Session}, c.session? id = some s ->
    s.isClosed = true ∧ s.pool.Ended
  tasks : forall {i : Nat} {phase : Phase},
    c.phase? i = some phase -> phase.Spent

/-- There are no more sessions than before, and no session has got another
link. -/
structure Barren (c q : Client) : Prop where
  length : q.sessions.length = c.sessions.length
  links : forall {id : Nat} {s : Session}, c.session? id = some s ->
    exists t, q.session? id = some t ∧ t.pool.links.length = s.pool.links.length

namespace Barren

theorem refl (c : Client) : Barren c c where
  length := rfl
  links hs := ⟨_, hs, rfl⟩

theorem trans {r : Client} (hq : Barren c q)
    (hr : Barren q r) : Barren c r where
  length := hr.length.trans hq.length
  links := by
    intro id s hs
    rcases hq.links hs with ⟨t, ht, hst⟩
    rcases hr.links ht with ⟨u, hu, htu⟩
    exact ⟨u, hu, htu.trans hst⟩

end Barren

theorem spent_addTask {new : Phase} (hnew : new.Spent) {i : Nat} {phase : Phase}
    (hi : (c.addTask new).phase? i = some phase) :
    c.phase? i = some phase ∨ phase.Spent := by
  rw [phase?_addTask] at hi
  split at hi
  · cases hi
    exact Or.inr hnew
  · exact Or.inl hi

theorem spent_setPhase {new : Phase} (hnew : new.Spent) {i : Nat}
    {phase : Phase} (hi : (c.setPhase task new).phase? i = some phase) :
    c.phase? i = some phase ∨ phase.Spent := by
  rcases phase_of_setPhase hi with ⟨hold, _⟩ | ⟨rfl, _⟩
  · exact Or.inl hold
  · exact Or.inr hnew

theorem spent_modifySession {f : Session -> Session} {i : Nat} {phase : Phase}
    (hi : (c.modifySession id f).phase? i = some phase) :
    c.phase? i = some phase ∨ phase.Spent := by
  rw [phase?, tasks_modifySession] at hi
  exact Or.inl hi

theorem CleaningPhase.spent {phase : Phase} (h : CleaningPhase id phase) :
    phase.Spent := by
  cases h with
  | waits cleanup counts => exact Phase.Spent.cleaning ..
  | finished outcome => exact Phase.Spent.finished outcome

theorem addTask_setPhase (c : Client) (first second : Phase) :
    (c.addTask first).setPhase c.tasks.length second = c.addTask second := by
  unfold addTask setPhase
  rw [List.set_append_right _ _ (Nat.le_refl _), Nat.sub_self]
  rfl

theorem fetch_of_inactive (hactive : c.isActive = false) (purpose : Purpose) :
    exists outcome, c.fetch purpose = c.addTask (.finished outcome) ∧
      (purpose ≠ .table -> outcome = .failed .shutdown) := by
  have hended (outcome : Outcome) :
      (c.addTask (.queued purpose)).setPhase c.tasks.length
        (.finished outcome) = c.addTask (.finished outcome) :=
    addTask_setPhase ..
  have hrefused : (!(c.addTask (.queued purpose)).isActive) = true := by
    rw [Bool.not_eq_true']
    exact hactive
  unfold fetch
  dsimp only
  split
  · exact ⟨_, hended _, fun hpurpose => absurd rfl hpurpose⟩
  · rw [if_pos hrefused]
    exact ⟨_, hended _, fun _ => rfl⟩
  · rw [if_pos hrefused]
    exact ⟨_, hended _, fun _ => rfl⟩

theorem refresh_of_inactive (hactive : c.isActive = false) (scheduled : Bool) :
    c.refresh scheduled = c.addTask (.finished (.failed .shutdown)) :=
  if_neg (Bool.eq_false_iff.mp hactive)

theorem shutdown_of_inactive (hactive : c.isActive = false) :
    c.shutdown = c.addTask (.finished .done) :=
  if_neg (Bool.eq_false_iff.mp hactive)

theorem closeSession_of_shut (hshut : c.Shut id) :
    (c.addTask (.spawned [])).visit c.tasks.length .close [id] =
      c.addTask (.finished .done) := by
  have hvisit : (c.addTask (.spawned [])).visitOne .close id =
      (c.addTask (.spawned []), none) := by
    have hsession : (c.addTask (.spawned [])).session? id = c.session? id := by
      cases id <;> rfl
    unfold visitOne
    rw [hsession]
    cases hs : c.session? id with
    | none => rfl
    | some s => exact if_pos (hshut s hs)
  rw [visit, hvisit]
  exact addTask_setPhase ..

namespace Released

theorem carried (hc : Released c) (hq : Carried (fun _ _ => True) c q)
    (hregistry : q.registry = c.registry) (hactive : q.isActive = c.isActive)
    (htasks : forall {i : Nat} {phase : Phase}, q.phase? i = some phase ->
      c.phase? i = some phase ∨ phase.Spent) : Released q ∧ Barren c q := by
  have hsession {s t : Session} (hs : s.isClosed = true ∧ s.pool.Ended)
      (hgrown : s.Grown (fun _ => True) t) :
      (t.isClosed = true ∧ t.pool.Ended) ∧
        t.pool.links.length = s.pool.links.length := by
    rcases hgrown.pool with ⟨events, hrun, _⟩
    rcases hs.2.run hrun with ⟨hended, hlinks⟩
    exact ⟨⟨hgrown.closed hs.1, hended⟩, hlinks⟩
  constructor
  · refine ⟨hactive.trans hc.inactive, hregistry.trans hc.registry,
      fun ht => ?_, fun hi => ?_⟩
    · rcases hq.back ht with ⟨s, hs, hgrown⟩
      exact (hsession (hc.sessions hs) hgrown).1
    · rcases htasks hi with hold | hspent
      · exact hc.tasks hold
      · exact hspent
  · refine ⟨hq.length, fun hs => ?_⟩
    rcases hq.grown hs with ⟨t, ht, hgrown⟩
    exact ⟨t, ht, (hsession (hc.sessions hs) hgrown).2⟩

theorem modify {f : Session -> Session} (hc : Released c)
    (hq : Still (c.modifySession id f) q)
    (htasks : forall {i : Nat} {phase : Phase}, q.phase? i = some phase ->
      c.phase? i = some phase ∨ phase.Spent)
    (hf : forall s, c.session? id = some s -> s.Grown (fun _ => True) (f s)) :
    Released q ∧ Barren c q := by
  rcases registry_modifySession c id f with ⟨hregistry, hactive⟩
  have hcarried : Carried (fun _ _ => True) c (c.modifySession id f) :=
    Carried.modify hf
  exact hc.carried (hcarried.trans (Carried.of_sessions hq.sessions))
    (hq.registry.trans hregistry) (hq.active.trans hactive) htasks

theorem addTask (hc : Released c) (outcome : Outcome) :
    Released (c.addTask (.finished outcome)) ∧
      Barren c (c.addTask (.finished outcome)) :=
  hc.carried (Carried.of_sessions rfl)
    rfl rfl (spent_addTask (.finished outcome))

theorem step (hrooted : c.Rooted) (hc : Released c)
    (h : c.step event = some q) : Released q ∧ Barren c q := by
  have hspent {i : Nat} {phase : Phase} (hi : c.phase? i = some phase)
      (hnone : ¬ phase.Spent) : Released q ∧ Barren c q :=
    absurd (hc.tasks hi) hnone
  cases taken_of_step h with
  | fetch purpose =>
      rcases fetch_of_inactive hc.inactive purpose with ⟨outcome, heq, _⟩
      rw [heq]
      exact hc.addTask outcome
  | granted phase _ => exact hspent phase nofun
  | setTable table => exact hc.carried (Carried.of_sessions rfl) rfl rfl Or.inl
  | refresh =>
      rw [refresh_of_inactive hc.inactive]
      exact hc.addTask _
  | loaded views phase => exact hspent phase nofun
  | refreshed views phase => exact hspent phase nofun
  | begin phase => exact hspent phase nofun
  | waiting _ _ session stepped =>
      exact hc.modify ⟨rfl, rfl, rfl⟩ (fun hi => spent_modifySession hi)
        (grown_cleaned session stepped)
  | toured phase _ _ => exact hspent phase nofun
  | @cleaned _ _ _ _ _ _ outcome _ session stepped =>
      refine hc.modify ⟨rfl, rfl, rfl⟩ (fun hi => ?_)
        (grown_cleaned session stepped)
      rcases spent_setPhase (.finished outcome) hi with hold | hspent
      · rcases spent_setPhase (.finished .done) hold with hold | hspent
        · exact spent_modifySession hold
        · exact Or.inr hspent
      · exact Or.inr hspent
  | shutdown =>
      rw [shutdown_of_inactive hc.inactive]
      exact hc.addTask _
  | closeSession id =>
      rw [closeSession_of_shut (fun s hs => (hc.sessions hs).1)]
      exact hc.addTask _
  | @sweepSession id table phase kind =>
      refine hc.modify ⟨rfl, rfl, rfl⟩ (fun hi => ?_) (fun s _ => ?_)
      · rcases spent_addTask kind.spent hi with hold | hspent
        · exact spent_modifySession hold
        · exact Or.inr hspent
      · exact Session.Grown.of_event (.sweep (table.getD s.pool.table.table))
          rfl rfl nofun
  | drainSession kind =>
      refine hc.modify ⟨rfl, rfl, rfl⟩ (fun hi => ?_) (fun s _ => ?_)
      · rcases spent_addTask kind.spent hi with hold | hspent
        · exact spent_modifySession hold
        · exact Or.inr hspent
      · exact Session.Grown.of_event .drain rfl rfl nofun
  | session found stepped =>
      refine hc.modify ⟨rfl, rfl, rfl⟩ (fun hi => spent_modifySession hi)
        (fun s hs => ?_)
      rw [found] at hs
      cases hs
      exact (grown_of_stepSession (hrooted _ _ found) stepped).mono
        (fun _ => trivial)
  | beginTicks scheduler =>
      exact hc.carried (Carried.of_sessions rfl) rfl rfl Or.inl
  | tick scheduler => exact hc.carried (Carried.of_sessions rfl) rfl rfl Or.inl
  | round scheduler =>
      rw [refresh_of_inactive (c := { c with scheduler }) hc.inactive]
      exact hc.carried (Carried.of_sessions rfl)
        rfl rfl (spent_addTask (.finished _))
  | reordered perm =>
      rw [hc.registry] at perm
      have hregistry := perm.eq_nil.trans hc.registry.symm
      exact hc.carried (Carried.of_sessions rfl) hregistry rfl Or.inl
  | letGo => exact hc.carried (Carried.of_sessions rfl) rfl rfl Or.inl

theorem run (hrooted : c.Rooted) (hc : Released c) (h : c.run events = some q) :
    Released q ∧ Barren c q := by
  refine hrooted.induction (P := fun m => Released m ∧ Barren c m)
    ⟨hc, Barren.refl c⟩ h ?_
  intro b r event hb hboth hr
  rcases hboth with ⟨hreleased, hbarren⟩
  rcases hreleased.step hb hr with ⟨hr', hnext⟩
  exact ⟨hr', hbarren.trans hnext⟩

end Released

/-- Nobody is left who could open a session or would have to close one. -/
theorem released_of_idle (hrooted : c.Rooted) (hc : Tracked [] c)
    (hinactive : c.isActive = false) (hidle : c.Idle) : Released c where
  inactive := hinactive
  registry := hc.bare hinactive
  sessions := by
    intro id s hs
    have hshut : c.Shut id := by
      by_contra hopen
      rcases hc.ahead hinactive hopen with
        hhand | ⟨task, tour, session, cleanup, rest, hphase, _⟩
      · cases hhand
      · rcases hidle.finished hphase with ⟨outcome, houtcome⟩
        cases houtcome
    exact ⟨hshut s hs,
      (hrooted id s hs).ended (hshut s hs) (hidle.pools (mem_of_session? hs))⟩
  tasks := by
    intro i phase hi
    rcases hidle.finished hi with ⟨outcome, rfl⟩
    exact Phase.Spent.finished outcome

/-! ## Shutting down -/

/-- Every session is closed, and so is every connection that its pool has ever
opened. -/
def Disconnected (c : Client) : Prop :=
  forall s, s ∈ c.sessions ->
    s.isClosed = true ∧ s.pool.entries = [] ∧
      forall l, s.pool.isLinkOpen l = false

theorem Released.disconnected (hc : Released c) : c.Disconnected := by
  intro s hs
  rcases List.getElem?_of_mem hs with ⟨n, hn⟩
  have hsession : c.session? (n + 1) = some s := hn
  rcases hc.sessions hsession with ⟨hclosed, hended⟩
  exact ⟨hclosed, hended.bare, hended.shut⟩

/-- Whoever wants a session, a new table or a refresh is refused at once, and
nothing is opened. -/
structure Refuses (c : Client) : Prop where
  fetch : forall purpose, purpose ≠ .table ->
    exists q, c.step (.fetch purpose) = some q ∧
      q.outcome? c.tasks.length = some (.failed .shutdown) ∧
      q.sessions = c.sessions
  refresh : exists q,
    c.step .refresh = some q ∧
    q.outcome? c.tasks.length = some (.failed .shutdown) ∧
    q.sessions = c.sessions

theorem outcome?_addTask (c : Client) (outcome : Outcome) :
    (c.addTask (.finished outcome)).outcome? c.tasks.length = some outcome := by
  rw [outcome?, phase?_addTask, if_pos rfl]

theorem refuses_of_inactive (hactive : c.isActive = false) : c.Refuses where
  fetch purpose hpurpose := by
    rcases fetch_of_inactive hactive purpose with ⟨outcome, heq, houtcome⟩
    refine ⟨_, rfl, ?_⟩
    rw [heq, houtcome hpurpose]
    exact ⟨outcome?_addTask c _, rfl⟩
  refresh := by
    refine ⟨_, rfl, ?_⟩
    rw [refresh_of_inactive hactive]
    exact ⟨outcome?_addTask c _, rfl⟩

/-- What the end of a client comes to.  When it has returned and nobody is in
the middle of anything, the registry is empty, every session is closed and so is
every connection that was ever opened.  Whoever was waiting for a session has
failed.  From the moment the end has begun nobody gets a session, a new table or
a refresh any more, and whatever happens later, no session opens a connection:
all that is asked of it is refused. -/
theorem released_of_run {settings : Settings} {origin : Client}
    {before after : List Event} (hstart : start settings = .ok origin)
    (hrun : origin.run (before ++ .shutdown :: after) = some c)
    (hidle : c.Idle) :
    c.registry = [] ∧ c.Disconnected ∧
    (forall b task phase, origin.run before = some b ->
      b.phase? task = some phase -> phase.Connects ->
      exists e, c.outcome? task = some (.failed e)) ∧
    (forall more m, origin.run (before ++ .shutdown :: more) = some m ->
      m.Refuses) ∧
    forall more d, c.run more = some d ->
      d.Disconnected ∧ Barren c d ∧ forall s, s ∈ d.sessions -> s.Refuses := by
  have hrooted : origin.Rooted := Rooted.of_start hstart
  rcases run_split.mp hrun with ⟨b, r, hb, hr, hafter⟩
  have hb' : b.Rooted := hrooted.run hb
  have hr' : r.Rooted := hb'.step hr
  have hdown : r.isActive = false := by
    cases hr
    exact active_shutdown b
  have hc : c.Rooted := hr'.run hafter
  have htracked : Tracked [] c := (Tracked.of_start hstart).run hrooted hrun
  have hreleased : Released c :=
    released_of_idle hc htracked (inactive_of_run hr' hdown hafter) hidle
  refine ⟨hreleased.registry, hreleased.disconnected, ?_, ?_, ?_⟩
  · intro b' task phase hbefore hphase hconnects
    cases hb.symm.trans hbefore
    have hwaits : r.phase? task = some phase := by
      refine phase?_of_step hr hphase nofun (fun candidates => ?_)
      cases hconnects <;> exact nofun
    rcases Doomed.run hr' ⟨hdown, phase, hwaits, Or.inl hconnects⟩ hafter with
      ⟨_, last, hlast, hdoomed⟩
    rcases hidle.finished hlast with ⟨outcome, rfl⟩
    rcases hdoomed with hstill | ⟨e, he⟩
    · cases hstill
    · cases he
      exact ⟨e, by rw [outcome?, hlast]⟩
  · intro more m hm
    exact refuses_of_inactive (inactive_of_run hr' hdown (run_after hm hb hr))
  · intro more d hmore
    rcases hreleased.run hc hmore with ⟨hd, hbarren⟩
    refine ⟨hd.disconnected, hbarren, fun s hs => ?_⟩
    exact Session.refuses_of_closed (hd.disconnected s hs).1

/-- Two callers want a session.  The first gets one and opens a connection; the
second still waits when the client is shut down, and fails. -/
theorem released_of_run_waiting :
    start lone = .ok loneClient ∧ exists c,
      loneClient.run
        ([.fetch .session, .fetch .session,
          .viewed 0 [(loneNode, loneTable "n1")],
          .session 1 (.openTarget (.address "d" 2)), .session 1 (.linked 0)] ++
          .shutdown :: [.granted 1, .cleaned 2]) = some c ∧
      c.Idle ∧ c.registry = [] ∧ c.Disconnected ∧
        (exists s, s ∈ c.sessions ∧ s.pool.links.length = 1) ∧
      exists e, c.outcome? 1 = some (.failed e) := by
  have hstart : start lone = .ok loneClient := rfl
  obtain ⟨c, s, t, hrun, htasks, hsessions, hcalls, hlinks, hcleanups, hnone,
    hdone⟩ : exists c s t,
      loneClient.run
          ([.fetch .session, .fetch .session,
            .viewed 0 [(loneNode, loneTable "n1")],
            .session 1 (.openTarget (.address "d" 2)),
            .session 1 (.linked 0)] ++
            .shutdown :: [.granted 1, .cleaned 2]) = some c ∧
        c.tasks = [.session 1, .failed .shutdown, .done].map .finished ∧
        c.sessions = [s, t] ∧
        s.pool.calls = [⟨.address "d" 2, .finished (.ok 0)⟩] ∧
        s.pool.links.length = 1 ∧ s.pool.cleanups = [⟨[], none, 0⟩] ∧
        t.pool.calls = [] ∧ t.pool.cleanups = [⟨[], none, 0⟩] :=
    ⟨_, _, _, rfl, rfl, rfl, rfl, rfl, rfl, rfl, rfl⟩
  have hidle : c.Idle := by
    refine idle_of_finished htasks (fun u hu => ?_)
    rw [hsessions] at hu
    rcases List.mem_pair.mp hu with rfl | rfl
    · apply Pool.quiet_of_mem <;> simp [hcalls, hcleanups]
    · apply Pool.quiet_of_mem <;> simp [hnone, hdone]
  rcases released_of_run hstart hrun hidle with ⟨hregistry, hshut, hwaiting, _⟩
  refine ⟨hstart, c, hrun, hidle, hregistry, hshut, ⟨s, ?_, hlinks⟩, ?_⟩
  · rw [hsessions]
    exact List.mem_cons_self
  · exact hwaiting _ 1 _ rfl rfl Phase.Connects.queued

end Client
end SlotCluster
