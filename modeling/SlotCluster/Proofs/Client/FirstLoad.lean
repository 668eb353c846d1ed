import SlotCluster.Proofs.Client.Agreement
import SlotCluster.Proofs.Client.Tasks

/-!
# First loads

Whoever needs a table and finds none loads one, and only one task loads at a
time.  A load looks for a table before it asks the seeds, and not again when
their views have come.  Others put tables in place without waiting for it, so a
table that comes while a first load is under way is lost when the load ends.
That is the only way in which such a load replaces a table.
-/

namespace SlotCluster
namespace Client

variable {c q : Client} {task i : Nat} {purpose : Purpose} {event : Event}
  {events : List Event}

/-!
## Whose turn it is

Whoever loads has the turn, and a step gives the turn to nobody else before
that load is over.
-/

inductive Phase.IsLoading : Phase -> Prop where
  | intro (purpose : Purpose) : IsLoading (.loading purpose)

theorem Phase.IsLoading.inner : Phase.Inner Phase.IsLoading :=
  ⟨fun _ => nofun, fun _ _ => nofun, fun _ => nofun, fun _ => nofun⟩

def InTurn (c : Client) : Prop :=
  forall i purpose, c.phase? i = some (.loading purpose) -> c.loader = some i

def Unloading (c : Client) : Prop :=
  forall i purpose, c.phase? i ≠ some (.loading purpose)

inductive Turn (c q : Client) : Prop where
  /-- No load has begun, and the turn is where it was. -/
  | onward (loader : q.loader = c.loader)
      (back : forall i purpose, q.phase? i = some (.loading purpose) ->
        c.phase? i = some (.loading purpose))
  | free (none : q.Unloading)
  /-- A load has begun.  There is no table then, unless it is to be renewed. -/
  | enters {task : Nat} {purpose : Purpose} (turn : q.loader = some task)
      (only : forall i other, q.phase? i = some (.loading other) ->
        i = task ∧ other = purpose) (needs : purpose = .reload ∨ q.table = none)

theorem Turn.of_plain (hloader : q.loader = c.loader)
    (hq : Plain Phase.IsLoading task c q) : Turn c q :=
  Turn.onward hloader
    (fun _ purpose hi => hq.back (Phase.IsLoading.intro purpose) hi)

theorem Turn.of_tasks (hloader : q.loader = c.loader)
    (htasks : q.tasks = c.tasks) : Turn c q := by
  have hplain : Plain Phase.IsLoading 0 c q := Plain.of_tasks htasks
  exact Turn.of_plain hloader hplain

/-! ## Loads that begin -/

theorem unloading_of_plain (hc : c.Unloading)
    (hq : Plain Phase.IsLoading task c q) : q.Unloading :=
  fun i purpose hi => hc i purpose (hq.back (Phase.IsLoading.intro purpose) hi)

theorem turn_setPhase {r : Client} (hr : r.Unloading)
    (hturn : r.loader = some task)
    (hneeds : purpose = .reload ∨ r.table = none) :
    Turn c (r.setPhase task (.loading purpose)) := by
  refine Turn.enters hturn (fun i other hi => ?_) hneeds
  rcases phase_of_setPhase hi with ⟨hold, _⟩ | ⟨hnew, heq⟩
  · exact absurd hold (hr i other)
  · cases hnew
    exact ⟨heq.symm, rfl⟩

theorem turn_enterLoad {r : Client} (hr : r.Unloading)
    (hturn : r.loader = some task) (purpose : Purpose) :
    Turn c (r.enterLoad task purpose) := by
  unfold enterLoad
  split
  · exact turn_setPhase hr hturn (Or.inl rfl)
  · exact Turn.free
      (unloading_of_plain hr
        (Plain.deliverTable Phase.IsLoading.inner
          (Plain.of_tasks (tasks_release r)) _ _))
  · rename_i htable
    exact turn_setPhase hr hturn (Or.inr htable)

@[simp]
theorem loader_deliverTable (c : Client) (task : Nat) (purpose : Purpose)
    (table : Shared) :
    (c.deliverTable task purpose table).loader = c.loader := by
  cases purpose with
  | session =>
      rcases openSession_eq c task table with ⟨scheduler, heq⟩
      show (c.openSession task table).loader = _
      rw [heq]
      rfl
  | _ => rfl

theorem plain_queued (c : Client) (purpose : Purpose) :
    Plain Phase.IsLoading c.tasks.length c (c.addTask (.queued purpose)) :=
  (Plain.of_tasks rfl).addTask nofun

theorem turn_awaitLoad (hc : c.InTurn) (purpose : Purpose) :
    Turn c ((c.addTask (.queued purpose)).awaitLoad c.tasks.length
      purpose) := by
  have hqueued := plain_queued c purpose
  unfold awaitLoad
  split
  · rename_i hnone
    refine turn_enterLoad
      (r :=
        { c.addTask (.queued purpose) with loader := some c.tasks.length }) ?_
      rfl _
    intro i other hi
    have hold := hc i other (hqueued.back (Phase.IsLoading.intro other) hi)
    change c.loader = none at hnone
    rw [hnone] at hold
    cases hold
  · exact Turn.of_plain rfl (hqueued.same rfl)

theorem turn_fetch (hc : c.InTurn) (purpose : Purpose) :
    Turn c (c.fetch purpose) := by
  have hqueued := plain_queued c purpose
  have hawait := turn_awaitLoad hc purpose
  have hdeliver (table : Shared) :
      Turn c ((c.addTask (.queued purpose)).deliverTable c.tasks.length
        purpose table) :=
    Turn.of_plain (loader_deliverTable ..)
      (Plain.deliverTable Phase.IsLoading.inner hqueued _ _)
  have hrefuse :
      Turn c ((c.addTask (.queued purpose)).setPhase c.tasks.length
        (.finished (.failed .shutdown))) :=
    Turn.of_plain rfl (hqueued.setPhase nofun)
  unfold fetch
  dsimp only
  split
  · exact hdeliver _
  · split
    · exact hrefuse
    · exact hdeliver _
  · split
    · exact hrefuse
    · exact hawait

/-! ## Loads that end -/

theorem phase?_deliverTable {old : Phase} (hold : c.phase? task = some old)
    (purpose : Purpose) (table : Shared) :
    exists outcome,
      (c.deliverTable task purpose table).phase? task =
        some (.finished outcome) := by
  cases purpose with
  | session =>
      rcases openSession_eq c task table with ⟨scheduler, heq⟩
      show exists outcome, (c.openSession task table).phase? task = _
      rw [heq]
      exact ⟨_, phase?_setPhase_self
        (c := { c with scheduler, sessions := _, registry := _ }) _ hold⟩
  | _ => exact ⟨_, phase?_setPhase_self _ hold⟩

theorem phase?_loaded {old : Phase} (hold : c.phase? task = some old)
    (purpose : Purpose) (views : Discovery.Views) :
    exists outcome,
      (c.loaded task purpose views).phase? task = some (.finished outcome) := by
  cases hviews : views.canonical? with
  | none =>
      rw [loaded_of_none task purpose hviews]
      exact ⟨_, phase?_setPhase_self (c := c.release) _ hold⟩
  | some table =>
      by_cases hpurpose : purpose = .reload
      · subst hpurpose
        rcases loaded_of_reload (c := c) task hviews with ⟨scheduler, heq⟩
        let r :=
          ((c.placed scheduler table).updateSessions ⟨c.stamps, table⟩).release
        have htasks : r.tasks = c.tasks :=
          tasks_updateSessions (c.placed scheduler table) ⟨c.stamps, table⟩
        have hkept : r.phase? task = some old :=
          (phase?_of_tasks htasks task).trans hold
        rw [heq]
        exact ⟨_, phase?_setPhase_self _ hkept⟩
      · rcases loaded_of_first (c := c) task hpurpose hviews with
          ⟨scheduler, heq⟩
        rw [heq]
        exact phase?_deliverTable (c := (c.placed scheduler table).release)
          hold purpose _

theorem unloading_loaded (hc : c.InTurn)
    (hphase : c.phase? task = some (.loading purpose))
    (views : Discovery.Views) : (c.loaded task purpose views).Unloading := by
  intro i other hi
  have hplain : Plain Phase.IsLoading task c (c.loaded task purpose views) :=
    Plain.loaded Phase.IsLoading.inner c task purpose views
  have hturn := hc i other (hplain.back (Phase.IsLoading.intro other) hi)
  rw [hc task purpose hphase] at hturn
  cases hturn
  rcases phase?_loaded hphase purpose views with ⟨outcome, houtcome⟩
  rw [houtcome] at hi
  cases hi

/-! ## All other steps -/

@[simp]
theorem loader_modifySession (c : Client) (id : Nat) (f : Session -> Session) :
    (c.modifySession id f).loader = c.loader := by
  rcases c.modifySession_eq id f with ⟨sessions, heq⟩
  rw [heq]

@[simp]
theorem loader_visit (c : Client) (task : Nat) (tour : Tour) (ids : List Nat) :
    (c.visit task tour ids).loader = c.loader := by
  rcases c.visit_eq task tour ids with ⟨sessions, registry, tasks, heq⟩
  rw [heq]

theorem turn_visit {r : Client} (hr : Plain Phase.IsLoading task c r)
    (hloader : r.loader = c.loader) (tour : Tour) (ids : List Nat) :
    Turn c (r.visit task tour ids) :=
  Turn.of_plain ((loader_visit ..).trans hloader)
    (Plain.visit Phase.IsLoading.inner (fun _ _ _ _ => nofun) hr tour ids)

theorem turn_refresh {r : Client} (hloader : r.loader = c.loader)
    (htasks : r.tasks = c.tasks) (scheduled : Bool) :
    Turn c (r.refresh scheduled) := by
  have hkept : (r.refresh scheduled).loader = r.loader := by
    unfold refresh
    split <;> rfl
  have hplain : Plain Phase.IsLoading 0 c (r.refresh scheduled) :=
    Plain.refresh Phase.IsLoading.inner (Plain.of_tasks htasks) scheduled
  exact Turn.of_plain (hkept.trans hloader) hplain

theorem turn_refreshed (c : Client) (task : Nat) (scheduled : Bool)
    (views : Discovery.Views) : Turn c (c.refreshed task scheduled views) := by
  refine Turn.of_plain ?_
    (Plain.refreshed Phase.IsLoading.inner c task scheduled views)
  rcases refreshed_cases c task scheduled views with
    ⟨scheduler, ⟨_, heq⟩ | ⟨table, _, _, heq⟩⟩
  · rw [heq]
    rfl
  · rcases informSessions_eq (c.placed scheduler table) ⟨c.stamps, table⟩ with
      ⟨sessions, htold⟩
    rw [heq, htold]
    unfold startSweep
    split <;> rfl

theorem turn_shutdown (c : Client) : Turn c c.shutdown := by
  unfold shutdown
  dsimp only
  split
  · let r : Client :=
      { c with
        isActive := false
        scheduler := c.scheduler.cancel
        registry := [] }
    have hadded : Plain Phase.IsLoading c.tasks.length r.abandonScheduled
        (r.abandonScheduled.addTask (.spawned [])) :=
      (Plain.of_tasks rfl).addTask nofun
    have hvisited := turn_visit hadded rfl .shutdown c.registry
    have habandoned (i : Nat) (purpose : Purpose)
        (hi : r.abandonScheduled.phase? i = some (.loading purpose)) :
        c.phase? i = some (.loading purpose) :=
      phase?_of_abandonScheduled (c := r) hi (fun _ => nofun)
    cases hvisited with
    | onward loader back =>
        exact Turn.onward loader
          (fun i purpose hi => habandoned i purpose (back i purpose hi))
    | free none => exact Turn.free none
    | enters turn only needs => exact Turn.enters turn only needs
  · have hplain : Plain Phase.IsLoading 0 c (c.addTask (.finished .done)) :=
      (Plain.of_tasks rfl).addTask nofun
    exact Turn.of_plain rfl hplain

theorem turn_of_step (hc : c.InTurn)
    (h : c.step event = some q) : Turn c q := by
  have hmodified {id : Nat} {f : Session -> Session} :
      Turn c (c.modifySession id f) :=
    Turn.of_tasks (loader_modifySession ..) (tasks_modifySession ..)
  have hcleaning {id : Nat} {f : Session -> Session} {phase : Phase}
      (hkind : CleaningPhase id phase) :
      Turn c ((c.modifySession id f).addTask phase) := by
    have hplain :
        Plain Phase.IsLoading 0 c ((c.modifySession id f).addTask phase) := by
      refine Plain.addTask (Plain.of_tasks (tasks_modifySession ..)) ?_
      cases hkind <;> exact nofun
    exact Turn.of_plain (loader_modifySession c id f) hplain
  cases taken_of_step h with
  | fetch purpose => exact turn_fetch hc purpose
  | @granted task purpose phase turn =>
      -- Whoever loaded would have the turn, but it is a task's that has been
      -- waiting for it.
      refine turn_enterLoad (fun i other hi => ?_) turn purpose
      have hother := hc i other hi
      rw [turn] at hother
      cases hother
      rw [phase] at hi
      cases hi
  | setTable table => exact Turn.of_tasks rfl rfl
  | refresh => exact turn_refresh rfl rfl false
  | loaded views phase => exact Turn.free (unloading_loaded hc phase views)
  | refreshed views phase => exact turn_refreshed c _ _ views
  | begin phase => exact turn_visit (Plain.of_tasks rfl) rfl .sweep _
  | waiting _ _ _ _ => exact hmodified
  | @toured task id cleanup tour rest s pool phase _ _ =>
      refine turn_visit ?_ ?_ tour rest
      · refine Plain.same
          (Plain.setPhase (Plain.of_tasks (tasks_modifySession ..)) ?_)
          (tasks_leave ..)
        exact nofun
      · cases tour <;> exact loader_modifySession c id _
  | @cleaned task id cleanup counts s pool outcome phase _ _ =>
      refine Turn.of_plain
        (loader_modifySession c id (fun s => s.withPool pool))
        (Plain.setPhase
          (Plain.setPhase (Plain.of_tasks (tasks_modifySession ..)) ?_) ?_)
      · exact nofun
      · exact nofun
  | shutdown => exact turn_shutdown c
  | closeSession id =>
      have hadded :
          Plain Phase.IsLoading c.tasks.length c (c.addTask (.spawned [])) :=
        (Plain.of_tasks rfl).addTask nofun
      exact turn_visit hadded rfl .close [id]
  | sweepSession kind => exact hcleaning kind
  | drainSession kind => exact hcleaning kind
  | reordered perm => exact Turn.of_tasks rfl rfl
  | session _ _ => exact hmodified
  | beginTicks scheduler => exact Turn.of_tasks rfl rfl
  | tick scheduler => exact Turn.of_tasks rfl rfl
  | round scheduler =>
      exact turn_refresh (c := c) (r := { c with scheduler }) rfl rfl true
  | letGo => exact Turn.of_tasks rfl rfl

theorem inTurn_of_start {settings : Settings}
    (h : start settings = .ok c) : c.InTurn := by
  intro i purpose hi
  rw [(fresh_of_start h).phase?_eq_none] at hi
  cases hi

theorem InTurn.step (hc : c.InTurn) (h : c.step event = some q) : q.InTurn := by
  intro i purpose hi
  cases turn_of_step hc h with
  | onward loader back => exact loader.trans (hc i purpose (back i purpose hi))
  | free none => exact absurd hi (none i purpose)
  | enters turn only _ =>
      rw [(only i purpose hi).1]
      exact turn

theorem InTurn.run (hc : c.InTurn) (h : c.run events = some q) : q.InTurn :=
  run_keeps h hc (fun hb hr => hb.step hr)

/-! ## Who puts a table in place -/

def FirstLoad (task : Nat) (c : Client) : Prop :=
  exists purpose, purpose ≠ .reload ∧ c.phase? task = some (.loading purpose)

theorem place_cases {table : Table} (h : c.handover event = .place table) :
    event = .setTable table ∨
      exists task views purpose, event = .viewed task views ∧
      c.phase? task = some (.loading purpose) ∧ purpose ≠ .reload ∧
        views.canonical? = some table := by
  cases hands_of_handover h with
  | given => exact Or.inl rfl
  | loaded phase first view => exact Or.inr ⟨_, _, _, rfl, phase, first, view⟩

theorem mend_cases {table : Table} (h : c.handover event = .mend table) :
    exists task views,
      event = .viewed task views ∧ c.phase? task = some (.loading .reload) ∧
      views.canonical? = some table := by
  cases hands_of_handover h with
  | reloaded phase view => exact ⟨_, _, rfl, phase, view⟩

theorem table_ne_none_of_step (htable : c.table ≠ none)
    (h : c.step event = some q) : q.table ≠ none := by
  rw [(handed_of_step h).table]
  cases c.handover event with
  | keep => exact htable
  | lend id table => exact htable
  | _ => exact nofun

/-- While a first load was under way, a table has been put in place, and the
load has gone on. -/
def Overtaken (task : Nat) (c : Client) (events : List Event) : Prop :=
  exists before event after b r, events = before ++ event :: after ∧
    c.run before = some b ∧
    b.FirstLoad task ∧ b.table = none ∧ b.step event = some r ∧
    ((exists table, event = .setTable table) ∨
      exists table, b.handover event = .spread table) ∧
    r.Always (FirstLoad task) after

/-- A step in the middle of a first load puts a table in place only as
`setTable` or as a refresh. -/
theorem puts_of_firstLoad (hc : c.InTurn) (hload : c.FirstLoad task)
    (hnone : c.table = none) (h : c.step event = some q) (hq : q.FirstLoad task)
    (htable : q.table ≠ none) :
    (exists table, event = .setTable table) ∨
      exists table, c.handover event = .spread table := by
  rcases hload with ⟨purpose, hfirst, hphase⟩
  rw [(handed_of_step h).table] at htable
  cases hhandover : c.handover event with
  | keep =>
      rw [hhandover] at htable
      exact absurd hnone htable
  | lend id table =>
      rw [hhandover] at htable
      exact absurd hnone htable
  | spread table => exact Or.inr ⟨table, rfl⟩
  | mend table =>
      rcases mend_cases hhandover with ⟨other, views, rfl, hother, _⟩
      have hturn := hc other _ hother
      rw [hc task purpose hphase] at hturn
      cases hturn
      rw [hphase] at hother
      cases hother
      exact absurd rfl hfirst
  | place table =>
      rcases place_cases hhandover with
        rfl | ⟨other, views, purpose', rfl, hother, _, _⟩
      · exact Or.inl ⟨table, rfl⟩
      -- The load that ends is the only one, and it does not go on.
      · have hended := unloading_loaded hc hother views
        have hstep : c.step (.viewed other views) =
            some (c.loaded other purpose' views) := by
          simp only [step, hother]
        rw [hstep] at h
        cases h
        rcases hq with ⟨last, _, hlast⟩
        exact absurd hlast (hended task last)

theorem overtaken_iff {settings : Settings} {origin : Client}
    (hstart : start settings = .ok origin) (hrun : origin.run events = some c)
    (hload : c.FirstLoad task) :
    c.table ≠ none <-> origin.Overtaken task events := by
  constructor
  · intro htable
    rcases since_of_run (P := fun m => m.FirstLoad task ∧ m.table ≠ none) hrun
        ⟨hload, htable⟩ with
      halways | ⟨event, b, before, after, r, rfl, hb, hnone, hr, halways⟩
    · rcases halways.start.1 with ⟨purpose, _, hphase⟩
      rw [(fresh_of_start hstart).phase?_eq_none] at hphase
      cases hphase
    -- Before the step that has brought both about there was the load, but not
    -- the table: a load that begins finds none.
    · have hb' : b.InTurn := (inTurn_of_start hstart).run hb
      rcases halways.start with ⟨hload', htable'⟩
      rcases hload' with ⟨purpose, hfirst, hphase⟩
      have hbload : b.FirstLoad task := by
        cases turn_of_step hb' hr with
        | onward _ back => exact ⟨purpose, hfirst, back task purpose hphase⟩
        | free none => exact absurd hphase (none task purpose)
        | enters turn only needs =>
            rw [← (only task purpose hphase).2] at needs
            exact (needs.elim hfirst htable').elim
      have hbnone : b.table = none := by
        by_contra htable
        exact hnone ⟨hbload, htable⟩
      refine ⟨before, event, after, b, r, rfl, hb, hbload, hbnone, hr, ?_,
        fun first m hfirst hm => ?_⟩
      · exact puts_of_firstLoad hb' hbload hbnone hr halways.start.1 htable'
      · exact (halways first m hfirst hm).1
  · rintro ⟨before, event, after, b, r, rfl, hb, _, _, hr, hputs, _⟩
    have htable : r.table ≠ none := by
      rw [(handed_of_step hr).table]
      rcases hputs with ⟨table, rfl⟩ | ⟨table, hspread⟩
      · exact nofun
      · rw [hspread]
        exact nofun
    exact run_keeps (run_after hrun hb hr) htable table_ne_none_of_step

/-- What can put another table in the place of one, after a run. -/
inductive Replaces (origin : Client) (events : List Event) (c : Client) :
    Event -> Prop where
  | setTable (table : Table) : Replaces origin events c (.setTable table)
  | refreshed {event : Event} {table : Table}
      (news : c.handover event = .spread table) : Replaces origin events c event
  | reloaded {event : Event} {table : Table}
      (view : c.handover event = .mend table) : Replaces origin events c event
  | overtaken {task : Nat} {views : Discovery.Views} {table : Table}
      (load : c.FirstLoad task) (view : views.canonical? = some table)
      (late : origin.Overtaken task events) :
      Replaces origin events c (.viewed task views)

/-- When a first load replaces a table.  A table that is in place is replaced by
`setTable`, by a refresh with news or by a reload, and else only at the end of a
first load that was overtaken: that began without a table, and while it was
under way somebody has put one in place.  A first load whose views have come
puts its own table in place, whatever there is by then; without a view it
changes nothing. -/
theorem replaced_of_run {settings : Settings} {origin : Client}
    (hstart : start settings = .ok origin) (hrun : origin.run events = some c) :
    (forall event q, c.table ≠ none -> c.step event = some q ->
      q.table ≠ c.table ->
      Replaces origin events c event) ∧
    (forall task views, c.FirstLoad task ->
      exists q, c.step (.viewed task views) = some q ∧
      q.table = (match views.canonical? with
        | some table => some ⟨c.stamps, table⟩
        | none => c.table)) ∧
    forall task, c.FirstLoad task ->
      (c.table ≠ none <-> origin.Overtaken task events) := by
  refine ⟨?_, ?_, fun task hload => overtaken_iff hstart hrun hload⟩
  · intro event q htable hq hnew
    rw [(handed_of_step hq).table] at hnew
    cases hhandover : c.handover event with
    | keep =>
        rw [hhandover] at hnew
        exact absurd rfl hnew
    | lend id table =>
        rw [hhandover] at hnew
        exact absurd rfl hnew
    | spread table => exact Replaces.refreshed hhandover
    | mend table => exact Replaces.reloaded hhandover
    | place table =>
        rcases place_cases hhandover with
          rfl | ⟨task, views, purpose, rfl, hphase, hfirst, hviews⟩
        · exact Replaces.setTable table
        · have hload : c.FirstLoad task := ⟨purpose, hfirst, hphase⟩
          exact Replaces.overtaken hload hviews
            ((overtaken_iff hstart hrun hload).mp htable)
  · rintro task views ⟨purpose, hfirst, hphase⟩
    refine ⟨c.loaded task purpose views, by simp only [step, hphase], ?_⟩
    rw [(handed_loaded hphase).table]
    cases hviews : views.canonical? with
    | none =>
        rw [handover_of_none hviews]
        rfl
    | some table =>
        rw [handover_of_loading hphase hviews, if_neg hfirst]
        rfl

/-- A refresh brings a table while somebody who wants a session loads the first
one.  The load ends later, and its older view takes the place of the table. -/
theorem replaced_of_run_refreshed :
    start lone = .ok loneClient ∧ exists c q,
      loneClient.run
        [.fetch .session, .refresh, .viewed 1 [(loneNode, loneTable "n2")]] =
        some c ∧
      c.table = some ⟨0, loneTable "n2"⟩ ∧
      loneClient.Overtaken 0
        [.fetch .session, .refresh, .viewed 1 [(loneNode, loneTable "n2")]] ∧
      c.step (.viewed 0 [(loneNode, loneTable "n1")]) = some q ∧
        q.table = some ⟨1, loneTable "n1"⟩ := by
  have hstart : start lone = .ok loneClient := rfl
  obtain ⟨c, hrun, hphase, htable, hstamps⟩ : exists c,
      loneClient.run
        [.fetch .session, .refresh, .viewed 1 [(loneNode, loneTable "n2")]] =
        some c ∧
        c.phase? 0 = some (.loading .session) ∧
          c.table = some ⟨0, loneTable "n2"⟩ ∧ c.stamps = 1 :=
    ⟨_, rfl, rfl, rfl, rfl⟩
  have hload : c.FirstLoad 0 := ⟨.session, nofun, hphase⟩
  rcases replaced_of_run hstart hrun with ⟨_, hends, hovertaken⟩
  rcases hends 0 [(loneNode, loneTable "n1")] hload with ⟨q, hq, hlast⟩
  refine ⟨hstart, c, q, hrun, htable, ?_, hq, ?_⟩
  · refine (hovertaken 0 hload).mp ?_
    rw [htable]
    exact nofun
  · rw [hlast, hstamps]
    rfl

/-- Somebody puts a table in place while another loads the first one, and the
load takes its place. -/
theorem set_table_lost :
    start lone = .ok loneClient ∧ exists c q,
      loneClient.run [.fetch .table, .setTable (loneTable "n2")] = some c ∧
      c.table = some ⟨0, loneTable "n2"⟩ ∧ c.phase? 0 = some (.loading .table) ∧
      c.step (.viewed 0 [(loneNode, loneTable "n1")]) = some q ∧
      q.table = some ⟨1, loneTable "n1"⟩ ∧
        q.outcome? 0 = some (.table ⟨1, loneTable "n1"⟩) :=
  ⟨rfl, _, _, rfl, rfl, rfl, rfl, rfl, rfl⟩

end Client
end SlotCluster
