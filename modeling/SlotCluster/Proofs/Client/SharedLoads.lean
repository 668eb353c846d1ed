import SlotCluster.Proofs.Client.LoadQueue
import SlotCluster.Proofs.Client.Reloads

/-!
# Shared loads

A load that brings a table serves everybody in the line: each finds the table
when its turn comes.  A load that brings none only passes the turn on, and the
next in line loads.

In a quiet run nothing but such a load puts a table in place.  What each phase
then says of the table is what every step keeps: nobody loads once there is a
table, and whoever has got a table has got this one.
-/

namespace SlotCluster
namespace Client

variable {c q : Client} {task i j : Nat} {purpose : Purpose} {event : Event}
  {events : List Event} {phase : Phase}

/-!
## Quiet runs

No reload, no refresh and no table from outside takes part in a quiet run, so
only a load puts a table in place.
-/

def Phase.isRefreshing : Phase -> Bool
  | .refreshing _ _ => true
  | _ => false

/-- No reload, no refresh and no table from outside takes part. -/
def isCalm (c : Client) (event : Event) : Bool :=
  match event with
  | .fetch .reload => false
  | .setTable _ => false
  | _ => !c.tasks.any Phase.isRefreshing

def isQuiet (c : Client) : List Event -> Bool
  | [] => true
  | event :: rest =>
      c.isCalm event && (c.step event).all (fun q => isQuiet q rest)

def succeeds (c : Client) (event : Event) : Bool :=
  match event with
  | .viewed task views =>
      match c.phase? task with
      | some (.loading _) => views.canonical?.isSome
      | _ => false
  | _ => false

def successes (c : Client) : List Event -> Nat
  | [] => 0
  | event :: rest =>
      (if c.succeeds event then 1 else 0) +
        ((c.step event).map (fun q => successes q rest)).getD 0

theorem successes_cons (h : c.step event = some q) :
    c.successes (event :: events) = (if c.succeeds event then 1 else 0) +
      q.successes events := by
  rw [successes, h]
  rfl

theorem isQuiet_cons (h : c.step event = some q) :
    c.isQuiet (event :: events) = true <->
      c.isCalm event = true ∧ q.isQuiet events = true := by
  rw [isQuiet, h, Bool.and_eq_true]
  rfl

theorem succeeds_eq_true : c.succeeds event = true <->
    exists task views purpose table,
      event = .viewed task views ∧ c.phase? task = some (.loading purpose) ∧
      views.canonical? = some table := by
  constructor
  · intro h
    unfold succeeds at h
    split at h
    · rename_i task views
      split at h
      · rename_i purpose hphase
        rcases Option.isSome_iff_exists.mp h with ⟨table, htable⟩
        exact ⟨task, views, purpose, table, rfl, hphase, htable⟩
      · cases h
    · cases h
  · rintro ⟨task, views, purpose, table, rfl, hphase, htable⟩
    simp only [succeeds, hphase, htable]
    rfl

theorem not_refreshing_of_calm {views : Discovery.Views}
    (hcalm : c.isCalm (.viewed task views) = true)
    (hphase : c.phase? i = some phase) : phase.isRefreshing = false := by
  have hnone : c.tasks.any Phase.isRefreshing = false := by
    simpa only [isCalm, Bool.not_eq_true'] using hcalm
  rw [← Bool.not_eq_true, List.any_eq_true] at hnone
  rw [← Bool.not_eq_true]
  exact fun hrefreshing =>
    hnone ⟨phase, List.mem_of_getElem? hphase, hrefreshing⟩

theorem table_of_calm (hcalm : c.isCalm event = true)
    (h : c.step event = some q) (hfails : c.succeeds event = false) :
    q.table = c.table := by
  rw [(handed_of_step h).table]
  cases hhandover : c.handover event with
  | keep => rfl
  | lend id table => rfl
  | place table =>
      rcases place_cases hhandover with
        rfl | ⟨task, views, purpose, rfl, hphase, _, hviews⟩
      · cases hcalm
      · rw [succeeds_eq_true.mpr
          ⟨task, views, purpose, table, rfl, hphase, hviews⟩] at hfails
        cases hfails
  | mend table =>
      rcases mend_cases hhandover with ⟨task, views, rfl, hphase, hviews⟩
      rw [succeeds_eq_true.mpr ⟨task, views, _, table, rfl, hphase, hviews⟩]
        at hfails
      cases hfails
  | spread table =>
      cases hands_of_handover hhandover with
      | refreshed phase _ _ => cases not_refreshing_of_calm hcalm phase

def Phase.Settled (table : Option Shared) : Phase -> Prop
  | .queued purpose => purpose ≠ .reload
  | .loading purpose => purpose ≠ .reload ∧ table = none
  | .finished (.table u) => table = some u
  | _ => True

/-- Nobody loads once there is a table, and the table is the one that every task
has got. -/
def Settled (c : Client) : Prop :=
  forall i phase, c.phase? i = some phase -> phase.Settled c.table

theorem settled_of_start {settings : Settings}
    (h : start settings = .ok c) : c.Settled := by
  intro i phase hphase
  rw [(fresh_of_start h).phase?_eq_none] at hphase
  cases hphase

theorem Phase.settled_of_not_ofLoad (table : Option Shared)
    (h : ¬ phase.OfLoad) : phase.Settled table := by
  cases phase with
  | queued purpose => exact absurd (Phase.OfLoad.queued purpose) h
  | loading purpose => exact absurd (Phase.OfLoad.loading purpose) h
  | finished outcome =>
      cases outcome with
      | table u => exact absurd (Phase.OfLoad.brought u) h
      | _ => trivial
  | _ => trivial

theorem Settled.addTask (hc : c.Settled) (htable : q.table = c.table)
    (htasks : q.tasks = c.tasks ++ [phase])
    (hphase : phase.Settled c.table) : q.Settled := by
  intro i new hnew
  rw [phase?_of_concat htasks] at hnew
  rw [htable]
  split at hnew
  · cases hnew
    exact hphase
  · exact hc i new hnew

theorem Settled.setPhase (htasks : q.tasks = c.tasks.set task phase)
    (hphase : phase.Settled q.table)
    (hothers : forall i old, task ≠ i -> c.phase? i = some old ->
        old.Settled q.table) : q.Settled := by
  intro i new hnew
  rw [phase?_of_set htasks] at hnew
  split at hnew
  · rcases Option.map_eq_some_iff.mp hnew with ⟨_, _, rfl⟩
    exact hphase
  · rename_i hne
    exact hothers i new hne hnew

theorem Phase.Settled.finished {table : Option Shared} {outcome : Outcome}
    (h : forall u, outcome = .table u -> table = some u) :
    (Phase.finished outcome).Settled table := by
  cases outcome with
  | table u => exact h u rfl
  | _ => trivial

theorem Settled.succeed (hc : c.Settled) (hline : c.Lined)
    (h : c.step event = some q) (hsucceeds : c.succeeds event = true) :
    q.Settled ∧ c.table = none ∧ q.table ≠ none := by
  rcases succeeds_eq_true.mp hsucceeds with
    ⟨task, views, purpose, table, rfl, hphase, hviews⟩
  rcases hc task _ hphase with ⟨hfirst, hnone⟩
  have htable : q.table = some ⟨c.stamps, table⟩ := by
    rw [(handed_of_step h).table, handover_of_loading hphase hviews,
      if_neg hfirst]
    rfl
  refine ⟨?_, hnone, by rw [htable]; exact nofun⟩
  cases loadStep_of_step hline.turn h with
  | beside beside wishes other =>
      exact absurd hphase (other task views purpose rfl)
  | @leaves last _ old outcome _ turn found loader waiters tasks brought =>
      refine Settled.setPhase tasks (Phase.Settled.finished brought) ?_
      intro i other hne hother
      have hsettled := hc i other hother
      rw [hnone] at hsettled
      cases other with
      | loading purpose =>
          have hturn := hline.turn i purpose hother
          rw [turn] at hturn
          exact absurd (Option.some.inj hturn) hne
      | finished outcome =>
          cases outcome with
          | table u => cases hsettled
          | _ => trivial
      | queued purpose => exact hsettled
      | _ => trivial

theorem Settled.step (hc : c.Settled) (hline : c.Lined)
    (hcalm : c.isCalm event = true)
    (h : c.step event = some q) : q.Settled := by
  cases hsucceeds : c.succeeds event with
  | true => exact (hc.succeed hline h hsucceeds).1
  | false =>
      have htable : q.table = c.table := table_of_calm hcalm h hsucceeds
      cases loadStep_of_step hline.turn h with
      | beside beside wishes other =>
          intro i phase hphase
          by_cases hload : phase.OfLoad
          · rw [htable]
            exact hc i phase (beside.back hload hphase)
          · exact Phase.settled_of_not_ofLoad _ hload
      | answered loader waiters table tasks brought =>
          exact hc.addTask htable tasks (Phase.Settled.finished brought)
      | @waits purpose _ busy loader waiters table tasks =>
          refine hc.addTask htable tasks ?_
          rintro rfl
          cases hcalm
      | @begins purpose _ free loader waiters table tasks needs =>
          have hfirst : purpose ≠ .reload := by
            rintro rfl
            cases hcalm
          exact hc.addTask htable tasks ⟨hfirst, needs.resolve_left hfirst⟩
      | @enters task purpose _ phase loader waiters table tasks needs =>
          have hfirst : purpose ≠ .reload := hc task _ phase
          refine Settled.setPhase tasks
            ⟨hfirst, htable.trans (needs.resolve_left hfirst)⟩ ?_
          intro i other _ hother
          rw [htable]
          exact hc i other hother
      | @leaves task _ old outcome _ turn phase loader waiters tasks brought =>
          refine Settled.setPhase tasks (Phase.Settled.finished brought) ?_
          intro i other _ hother
          rw [htable]
          exact hc i other hother

theorem settled_of_run (hc : c.Settled) (hline : c.Lined)
    (hquiet : c.isQuiet events = true)
    (h : c.run events = some q) : q.Settled := by
  induction events generalizing c with
  | nil =>
      cases h
      exact hc
  | cons event rest ih =>
      rcases run_cons.mp h with ⟨r, hr, hrest⟩
      rcases (isQuiet_cons hr).mp hquiet with ⟨hcalm, hlater⟩
      exact ih (hc.step hline hcalm hr) (hline.step hr) hlater hrest

/-- Once there is a table no load succeeds, and the table stays. -/
theorem kept_of_run (hc : c.Settled) (hline : c.Lined) (htable : c.table ≠ none)
    (hquiet : c.isQuiet events = true) (h : c.run events = some q) :
    c.successes events = 0 ∧ q.table = c.table := by
  induction events generalizing c with
  | nil =>
      cases h
      exact ⟨rfl, rfl⟩
  | cons event rest ih =>
      rcases run_cons.mp h with ⟨r, hr, hrest⟩
      rcases (isQuiet_cons hr).mp hquiet with ⟨hcalm, hlater⟩
      have hfails : c.succeeds event = false := by
        rw [← Bool.not_eq_true]
        exact fun hsucceeds => htable (hc.succeed hline hr hsucceeds).2.1
      have hsame : r.table = c.table := table_of_calm hcalm hr hfails
      rcases ih (hc.step hline hcalm hr) (hline.step hr) (by rwa [hsame]) hlater
        hrest with ⟨hnone, hkept⟩
      rw [successes_cons hr, hfails, hnone]
      exact ⟨rfl, hkept.trans hsame⟩

theorem successes_le_one (hc : c.Settled) (hline : c.Lined)
    (hquiet : c.isQuiet events = true) (h : c.run events = some q) :
    c.successes events ≤ 1 := by
  induction events generalizing c with
  | nil => exact Nat.zero_le 1
  | cons event rest ih =>
      rcases run_cons.mp h with ⟨r, hr, hrest⟩
      rcases (isQuiet_cons hr).mp hquiet with ⟨hcalm, hlater⟩
      have hsettled : r.Settled := hc.step hline hcalm hr
      rw [successes_cons hr]
      cases hsucceeds : c.succeeds event with
      | true =>
          have htable : r.table ≠ none := (hc.succeed hline hr hsucceeds).2.2
          rw [(kept_of_run hsettled (hline.step hr) htable hlater hrest).1]
          exact Nat.le_refl 1
      | false =>
          have hfew := ih hsettled (hline.step hr) hlater hrest
          simpa using hfew

theorem one_table_of_run (hc : c.Settled) (hline : c.Lined)
    (hquiet : c.isQuiet events = true) (h : c.run events = some q) :
    c.Always (fun m => m.table = none ∨ m.table = q.table) events := by
  have hstart : c.table = none ∨ c.table = q.table := by
    by_cases htable : c.table = none
    · exact Or.inl htable
    · exact Or.inr (kept_of_run hc hline htable hquiet h).2.symm
  induction events generalizing c with
  | nil => exact always_nil.mpr hstart
  | cons event rest ih =>
      rcases run_cons.mp h with ⟨r, hr, hrest⟩
      rcases (isQuiet_cons hr).mp hquiet with ⟨hcalm, hlater⟩
      have hsettled : r.Settled := hc.step hline hcalm hr
      refine (always_cons hr).mpr
        ⟨hstart, ih hsettled (hline.step hr) hlater hrest ?_⟩
      by_cases htable : r.table = none
      · exact Or.inl htable
      · exact Or.inr
          (kept_of_run hsettled (hline.step hr) htable hlater hrest).2.symm

/-!
## Loads that fail

After a load without a view the next in line has the turn, if there is anybody.
Until the task goes on, the turn stays with it, and no table comes.
-/

structure Due (c : Client) (task : Nat) (purpose : Purpose) : Prop where
  turn : c.loader = some task
  phase : c.phase? task = some (.queued purpose)
  table : c.table = none

theorem Due.step (h : c.Due task purpose) (hline : c.Lined)
    (hcalm : c.isCalm event = true) (hq : c.step event = some q)
    (hother : event ≠ .granted task) : q.Due task purpose := by
  have hphase : q.phase? task = some (.queued purpose) := by
    refine phase?_of_step hq h.phase ?_ nofun
    intro htask
    cases suits_of_step hq htask h.phase with
    | granted _ => exact hother rfl
  have hfails : c.succeeds event = false := by
    rw [← Bool.not_eq_true, succeeds_eq_true]
    rintro ⟨i, views, wish, table, rfl, hloading, _⟩
    have hturn := hline.turn i wish hloading
    rw [h.turn] at hturn
    cases hturn
    rw [h.phase] at hloading
    cases hloading
  refine ⟨?_, hphase, (table_of_calm hcalm hq hfails).trans h.table⟩
  cases loadStep_of_step hline.turn hq with
  | beside beside wishes other => exact beside.loader.trans h.turn
  | answered loader waiters table tasks brought => exact loader.trans h.turn
  | waits busy loader waiters table tasks => exact loader.trans h.turn
  | begins free loader waiters table tasks needs =>
      rw [h.turn] at free
      cases free
  | enters phase loader waiters table tasks needs => exact loader.trans h.turn
  | @leaves last _ old outcome _ turn phase loader waiters tasks brought =>
      rw [h.turn] at turn
      cases turn
      rw [phase?_of_set tasks, if_pos rfl, phase] at hphase
      cases hphase

theorem Due.run (h : c.Due task purpose) (hline : c.Lined)
    (hquiet : c.isQuiet events = true) (hother : .granted task ∉ events)
    (hq : c.run events = some q) : q.Due task purpose := by
  induction events generalizing c with
  | nil =>
      cases hq
      exact h
  | cons event rest ih =>
      rcases run_cons.mp hq with ⟨r, hr, hrest⟩
      rcases (isQuiet_cons hr).mp hquiet with ⟨hcalm, hlater⟩
      rw [List.mem_cons, not_or] at hother
      exact ih (h.step hline hcalm hr (Ne.symm hother.1)) (hline.step hr) hlater
        hother.2 hrest

theorem Due.granted (h : c.Due task purpose) :
    exists q, c.step (.granted task) = some q ∧
      q.phase? task = some (.loading purpose) := by
  refine ⟨_, step_granted h.phase h.turn, ?_⟩
  rw [enterLoad_of_needs task (Or.inr h.table)]
  exact phase?_setPhase_self _ h.phase

theorem due_of_failure (hc : c.Settled) (hline : c.Lined)
    (hphase : c.phase? task = some (.loading purpose)) {views : Discovery.Views}
    (hviews : views.canonical? = none) :
    exists q, c.step (.viewed task views) = some q ∧ q.table = none ∧
      q.phase? task = some (.finished (.failed (.noViewAvailable c.seeds))) ∧
      (c.waiters = [] ∧ q.loader = none ∧
        (forall j other, q.phase? j ≠ some (.queued other)) ∨
        exists j rest next, c.waiters = j :: rest ∧ q.Due j next) := by
  have hstep :
      c.step (.viewed task views) = some (c.loaded task purpose views) :=
    step_loaded hphase views
  have hnone : c.table = none := (hc task _ hphase).2
  have hlined := hline.step hstep
  rw [loaded_of_none task purpose hviews] at hstep hlined
  refine ⟨_, hstep, hnone, phase?_setPhase_self (c := c.release) _ hphase, ?_⟩
  cases hwaiters : c.waiters with
  | nil =>
      have hfree : c.release.loader = none := congrArg List.head? hwaiters
      exact Or.inl ⟨rfl, hfree, hlined.not_queued hfree⟩
  | cons j rest =>
      obtain ⟨hne, next, hqueued⟩ :
          task ≠ j ∧ exists next, c.phase? j = some (.queued next) := by
        apply hline.queued hphase
        rw [hwaiters]
        exact List.mem_cons_self
      refine Or.inr
        ⟨j, rest, next, rfl, congrArg List.head? hwaiters, ?_, hnone⟩
      simp [hne]
      exact hqueued

/-! ## What callers get -/

/-- A load that begins finds no table, unless it is a reload. -/
theorem table_of_begun (hc : c.InTurn) (h : c.step event = some q)
    (hbefore : c.phase? i ≠ some (.loading purpose))
    (hafter : q.phase? i = some (.loading purpose))
    (hfirst : purpose ≠ .reload) : c.table = none ∧ q.table = none := by
  have hnone : q.table = none := by
    cases turn_of_step hc h with
    | onward loader back => exact absurd (back i purpose hafter) hbefore
    | free none => exact absurd hafter (none i purpose)
    | enters turn only needs =>
        rw [← (only i purpose hafter).2] at needs
        exact needs.resolve_left hfirst
  refine ⟨?_, hnone⟩
  by_contra htable
  exact table_ne_none_of_step htable h hnone

theorem table_arrival (isActive : Bool) (table : Shared) (fallback : Endpoint)
    (timeout : Duration) :
    (arrival isActive table fallback timeout).pool.table = table := by
  unfold arrival
  split
  · rfl
  · exact table_close (Session.start table fallback timeout)

theorem table_of_opened (hc : c.Rooted) (h : c.step event = some q) {id : Nat}
    {s : Session} (hbefore : c.session? id = none)
    (hafter : q.session? id = some s) : q.table = some s.pool.table := by
  rcases (deed_of_step hc h).extends.fresh hbefore hafter with
    ⟨table, fallback, timeout, htable, rfl⟩
  rw [htable, table_arrival]

/-- First loads are shared.  At no time do two tasks load, and none that does
not reload begins to while there is a table.  A session begins with the table of
the client.

In a run in which no reload, no refresh and no table from outside takes part,
one load at most finds a view, the client never has but one table, and this is
the table that everybody has got who wanted one.  A load without a view leaves
the client without a table.  If others are in line, the first of them has the
turn then, and whenever it goes on it loads; else nobody waits, and nobody has
the turn. -/
theorem shared_load_of_run {settings : Settings} {origin : Client}
    (hstart : start settings = .ok origin) (hrun : origin.run events = some c) :
    (forall i j purpose other, c.phase? i = some (.loading purpose) ->
      c.phase? j = some (.loading other) -> i = j) ∧
    (forall event q i purpose, c.step event = some q ->
      c.phase? i ≠ some (.loading purpose) ->
      q.phase? i = some (.loading purpose) -> purpose ≠ .reload ->
        c.table = none ∧ q.table = none) ∧
    (forall event q id s, c.step event = some q -> c.session? id = none ->
      q.session? id = some s ->
      q.table = some s.pool.table) ∧
    (origin.isQuiet events = true ->
      origin.successes events ≤ 1 ∧
      origin.Always (fun m => m.table = none ∨ m.table = c.table) events ∧
      (forall i table, c.phase? i = some (.finished (.table table)) ->
        c.table = some table) ∧
      forall i purpose views, c.phase? i = some (.loading purpose) ->
        views.canonical? = none ->
        exists q, c.step (.viewed i views) = some q ∧ q.table = none ∧
          q.phase? i = some (.finished (.failed (.noViewAvailable c.seeds))) ∧
          (c.waiters = [] ∧ q.loader = none ∧
            (forall j other, q.phase? j ≠ some (.queued other)) ∨
            exists j rest next,
              c.waiters = j :: rest ∧ q.phase? j = some (.queued next) ∧
              forall later d, q.isQuiet later = true -> .granted j ∉ later ->
                q.run later = some d ->
                d.table = none ∧
                  exists e, d.step (.granted j) = some e ∧
                    e.phase? j = some (.loading next))) := by
  have hturn : c.InTurn := (inTurn_of_start hstart).run hrun
  have hrooted : c.Rooted := (Rooted.of_start hstart).run hrun
  have hline : origin.Lined := lined_of_start hstart
  have hfresh : origin.Settled := settled_of_start hstart
  refine ⟨fun i j purpose other hi hj => hturn.unique hi hj, ?_, ?_, ?_⟩
  · intro event q i purpose hq hbefore hafter hfirst
    exact table_of_begun hturn hq hbefore hafter hfirst
  · intro event q id s hq hbefore hafter
    exact table_of_opened hrooted hq hbefore hafter
  · intro hquiet
    have hsettled : c.Settled := settled_of_run hfresh hline hquiet hrun
    refine ⟨successes_le_one hfresh hline hquiet hrun, ?_, fun i table hi =>
      hsettled i _ hi, ?_⟩
    · exact one_table_of_run hfresh hline hquiet hrun
    · intro i purpose views hphase hviews
      rcases due_of_failure hsettled (hline.run hrun) hphase hviews with
        ⟨q, hq, htable, hended, hnext⟩
      refine ⟨q, hq, htable, hended, ?_⟩
      rcases hnext with hnobody | ⟨j, rest, next, hwaiters, hdue⟩
      · exact Or.inl hnobody
      · refine Or.inr ⟨j, rest, next, hwaiters, hdue.phase, ?_⟩
        intro later d hlater hother hd
        have hlast := hdue.run ((hline.run hrun).step hq) hlater hother hd
        exact ⟨hlast.table, hlast.granted⟩

def crowd : List Event :=
  [.fetch .table, .fetch .session, .fetch .table, .viewed 0 [], .granted 1,
    .viewed 1 [(loneNode, loneTable "n1")], .granted 2, .fetch .table]

theorem shared_load_of_run_crowd :
    start lone = .ok loneClient ∧ loneClient.isQuiet crowd = true ∧
      loneClient.successes crowd ≤ 1 ∧
      exists c, loneClient.run crowd = some c ∧
        c.phase? 0 = some (.finished (.failed (.noViewAvailable [loneNode]))) ∧
        c.phase? 1 = some (.finished (.session 1)) ∧
          c.phase? 2 = some (.finished (.table ⟨0, loneTable "n1"⟩)) ∧
        c.phase? 3 = some (.finished (.table ⟨0, loneTable "n1"⟩)) ∧
          c.table = some ⟨0, loneTable "n1"⟩ := by
  have hstart : start lone = .ok loneClient := rfl
  have hquiet : loneClient.isQuiet crowd = true := rfl
  obtain ⟨c, hrun, hfailed, hopened, hsecond, hthird⟩ :
    exists c, loneClient.run crowd = some c ∧
      c.phase? 0 = some (.finished (.failed (.noViewAvailable [loneNode]))) ∧
      c.phase? 1 = some (.finished (.session 1)) ∧
        c.phase? 2 = some (.finished (.table ⟨0, loneTable "n1"⟩)) ∧
      c.phase? 3 = some (.finished (.table ⟨0, loneTable "n1"⟩)) :=
    ⟨_, rfl, rfl, rfl, rfl, rfl⟩
  rcases shared_load_of_run hstart hrun with ⟨_, _, _, hshared⟩
  rcases hshared hquiet with ⟨hfew, _, htable, _⟩
  exact ⟨hstart, hquiet, hfew, c, hrun, hfailed, hopened, hsecond, hthird,
    htable 3 _ hthird⟩

end Client
end SlotCluster
