import SlotCluster.Proofs.Client.Shutdown

/-!
# Nodes that have left

A refresh that has found news hands the new table to every open session and
starts a task that sweeps their pools one after the other.  Whoever is still
ahead of that task is swept in the end, and a pool that has been swept gets no
entry for a node that its table does not know.  A reload hands its table to the
sessions, too, but no sweep follows: a connection to a node that has left with a
reload stays open until somebody sweeps the pool or a refresh finds other news.
-/

namespace SlotCluster
namespace Client

variable {c q : Client} {n : String} {task id : Nat} {ids : List Nat}
  {event : Event} {events : List Event}

/-!
## Sessions without the node

The table of a session lacks a node, or the entries of its pool lack it, too.
An entry that is left lingers.
-/

def Lacks (n : String) (id : Nat) (c : Client) : Prop :=
  forall u, c.tableOf? id = some u -> u.table.contains n = false

def Swept (n : String) (id : Nat) (c : Client) : Prop :=
  forall s, c.session? id = some s -> Pool.Absent n s.pool

def Lingers (n : String) (id : Nat) (c : Client) : Prop :=
  exists s, c.session? id = some s ∧ s.pool.table.table.contains n = false ∧
    exists e, e ∈ s.pool.entries ∧ e.1 = .node n

theorem Lacks.session (h : c.Lacks n id) {s : Session}
    (hs : c.session? id = some s) : s.pool.table.table.contains n = false := by
  apply h
  rw [tableOf?, hs]
  rfl

theorem Lacks.of_tables (h : q.Lacks n id)
    (htables : q.tableOf? id = c.tableOf? id) : c.Lacks n id := by
  intro u hu
  rw [← htables] at hu
  exact h u hu

theorem Lingers.lacks (h : c.Lingers n id) : c.Lacks n id := by
  rcases h with ⟨s, hs, hunknown, _⟩
  intro u hu
  rw [tableOf?, hs] at hu
  cases hu
  exact hunknown

theorem Handover.Tells.unique {h : Handover} {u v : Shared}
    (hu : h.Tells c id u) (hv : h.Tells c id v) : v = u := by
  cases h with
  | mend table => exact hv.2.trans hu.2.symm
  | spread table => exact hv.2.trans hu.2.symm
  | lend other table => exact hv.2.trans hu.2.symm
  | _ => cases hu

section Grown

variable {heard : Shared -> Prop} {s t : Session}

theorem table_of_grown
    (honly : forall {u v : Shared}, heard u -> heard v -> v = u)
    (hgrown : s.Grown heard t) :
    t.pool.table = s.pool.table ∨ heard t.pool.table := by
  rcases hgrown.pool with ⟨events, hrun, hheard, _⟩
  by_cases hnews : exists u, .apply u ∈ events
  · rcases hnews with ⟨u, hu⟩
    have htable :=
      Pool.table_of_run hrun
        (fun hv => honly (hheard hu) (hheard hv)) (Or.inl hu)
    rw [htable]
    exact Or.inr (hheard hu)
  · exact Or.inl
      (Pool.table_of_run hrun (fun hv => absurd ⟨_, hv⟩ hnews) (Or.inr rfl))

theorem absent_of_grown
    (honly : forall {u v : Shared}, heard u -> heard v -> v = u)
    (hgrown : s.Grown heard t) (hs : Pool.Absent n s.pool)
    (hunknown : t.pool.table.table.contains n = false) :
    Pool.Absent n t.pool := by
  rcases hgrown.pool with ⟨events, hrun, hheard, _⟩
  refine hs.run hrun (fun u hu => ?_)
  have htable :=
    Pool.table_of_run hrun (fun hv => honly (hheard hu) (hheard hv)) (Or.inl hu)
  rw [← htable]
  exact hunknown

end Grown

theorem entries_arrival (isActive : Bool) (table : Shared) (fallback : Endpoint)
    (timeout : Duration) :
    (arrival isActive table fallback timeout).pool.entries = [] := by
  cases isActive <;> rfl

theorem Swept.extends {heard : Nat -> Shared -> Prop} (hc : c.Swept n id)
    (hq : Extends heard c q)
    (honly : forall {u v : Shared}, heard id u -> heard id v -> v = u)
    (hlacks : q.Lacks n id) : q.Swept n id := by
  intro t ht
  cases hs : c.session? id with
  | none =>
      rcases hq.fresh hs ht with ⟨table, fallback, timeout, _, rfl⟩
      refine ⟨hlacks.session ht, fun he => ?_⟩
      rw [entries_arrival] at he
      cases he
  | some s =>
      rcases hq.grown hs with ⟨t', ht', hgrown⟩
      rw [ht] at ht'
      cases ht'
      exact absent_of_grown honly hgrown (hc s hs) (hlacks.session ht)

/-!
## Sweeps

A session is attended to if nothing is left to be done about the node, or if
some sweep has still to visit it.
-/

def Phase.ahead : Phase -> List Nat
  | .spawned sessions => sessions
  | .touring .sweep _ _ rest => rest
  | _ => []

def Awaited (id : Nat) (c : Client) : Prop :=
  exists task phase, c.phase? task = some phase ∧ id ∈ phase.ahead

def Attended (n : String) (id : Nat) (c : Client) : Prop :=
  c.Shut id ∨ c.Swept n id ∨ c.Awaited id

theorem swept_visitOne (hlacks : c.Lacks n id) :
    (c.visitOne .sweep id).1.Swept n id := by
  intro t ht
  unfold visitOne at ht
  cases hs : c.session? id with
  | none =>
      rw [hs] at ht
      change c.session? id = some t at ht
      rw [hs] at ht
      cases ht
  | some s =>
      rw [hs] at ht
      change (c.modifySession id _).session? id = some t at ht
      rw [session?_modifySession, if_pos rfl, hs] at ht
      cases ht
      exact Pool.Absent.of_sweep (hlacks.session hs) (hlacks.session hs)

theorem swept_or_awaited_visit {old : Phase} (hphase : c.phase? task = some old)
    (hlacks : c.Lacks n id) (hid : id ∈ ids) :
    (c.visit task .sweep ids).Swept n id ∨
      (c.visit task .sweep ids).Awaited id := by
  induction ids generalizing c with
  | nil => cases hid
  | cons first rest ih =>
      rcases List.mem_cons.mp hid with rfl | hrest
      · left
        have hafter : Carried (fun _ _ => False) (c.visitOne .sweep id).1
            (c.visit task .sweep (id :: rest)) :=
          carried_visit_cons (fun r => carried_visit r task .sweep rest)
        refine (swept_visitOne hlacks).extends hafter.extends
          (fun hu => hu.elim) ?_
        exact hlacks.of_tables
          ((toured_visit c task .sweep (id :: rest)).tables id).symm
      -- Visits change no table, so the rest of the sweep finds the session
      -- without the node, too.
      · have hone : (c.visitOne .sweep first).1.Lacks n id :=
          hlacks.of_tables ((toured_visitOne [] c .sweep first).tables id).symm
        have hphase' : (c.visitOne .sweep first).1.phase? task = some old :=
          (phase?_of_tasks (tasks_visitOne c .sweep first) task).trans hphase
        rcases visit_cons_cases c task .sweep first rest with
          heq | ⟨cleanup, _, heq⟩ | heq
        · rw [heq]
          exact ih hphase' hone hrest
        · rw [heq]
          exact Or.inr ⟨task, _, phase?_setPhase_self _ hphase', hrest⟩
        · rw [heq]
          exact ih hphase' hone hrest

namespace Attended

theorem visit {old : Phase} (hphase : c.phase? task = some old)
    (hlacks : (c.visit task .sweep ids).Lacks n id) (hid : id ∈ ids) :
    (c.visit task .sweep ids).Attended n id :=
  Or.inr (swept_or_awaited_visit hphase
    (hlacks.of_tables ((toured_visit c task .sweep ids).tables id)) hid)

theorem sweep {phase : Phase} (h : c.step event = some q)
    (hevent : event.task? = some task) (hphase : c.phase? task = some phase)
    (hid : id ∈ phase.ahead) (hlacks : q.Lacks n id) : q.Attended n id := by
  have hfound {old : Phase} (hold : c.phase? task = some old) :
      phase = old := by
    rw [hphase] at hold
    exact Option.some.inj hold
  cases taken_of_step h with
  | begin found =>
      cases hevent
      rw [hfound found] at hid
      exact visit found hlacks hid
  | waiting _ _ _ _ =>
      exact Or.inr
        (Or.inr ⟨task, phase,
          (phase?_of_tasks (tasks_modifySession ..) task).trans hphase, hid⟩)
  | @toured _ other cleanup tour rest s pool found _ _ =>
      cases hevent
      rw [hfound found] at hid
      cases tour with
      | sweep =>
          have hwaits :
              (c.modifySession other (fun s => s.withPool pool)).phase? task =
                some (.touring .sweep other cleanup rest) :=
            (phase?_of_tasks (tasks_modifySession ..) task).trans found
          exact visit (phase?_setPhase_self (.finished .done) hwaits) hlacks hid
      | _ => cases hid
  | cleaned found _ _ =>
      cases hevent
      rw [hfound found] at hid
      cases hid
  | _ => cases suits_of_step h hevent hphase <;> cases hid

theorem step (hrooted : c.Rooted) (hc : c.Attended n id)
    (h : c.step event = some q) (hlacks : q.Lacks n id) : q.Attended n id := by
  have hextends := (deed_of_step hrooted h).extends
  have hswept (hc : c.Swept n id) : q.Attended n id :=
    Or.inr (Or.inl (hc.extends hextends Handover.Tells.unique hlacks))
  rcases hc with hshut | hc | ⟨task, phase, hphase, hid⟩
  · cases hs : c.session? id with
    | none =>
        refine hswept (fun s hs' => ?_)
        rw [hs] at hs'
        cases hs'
    | some s =>
        refine Or.inl (fun t ht => ?_)
        rcases hextends.grown hs with ⟨t', ht', hgrown⟩
        rw [ht] at ht'
        cases ht'
        exact hgrown.closed (hshut s hs)
  · exact hswept hc
  · by_cases hevent : event.task? = some task
    · exact sweep h hevent hphase hid hlacks
    · refine Or.inr
        (Or.inr ⟨task, phase, phase?_of_step h hphase hevent ?_, hid⟩)
      rintro candidates rfl
      cases hid

theorem run (hrooted : c.Rooted) (hc : c.Attended n id)
    (h : c.run events = some q) (hlacks : c.Always (Lacks n id) events) :
    q.Attended n id := by
  induction events generalizing c with
  | nil =>
      cases h
      exact hc
  | cons event rest ih =>
      rcases run_cons.mp h with ⟨r, hr, hrest⟩
      have hrest' := ((always_cons hr).mp hlacks).2
      exact ih (hrooted.step hr) (hc.step hrooted hr hrest'.start) hrest hrest'

end Attended

/-!
## Refreshes

Only a refresh that has found news hands its table to every open session.
-/

theorem refreshed_of_spread {table : Table} (h : c.step event = some q)
    (hspread : c.handover event = .spread table) :
    exists task old scheduler, c.phase? task = some old ∧
      q = ((c.placed scheduler table).informSessions
        ⟨c.stamps, table⟩).startSweep.setPhase task
        (.finished (.refreshed true)) := by
  cases hands_of_handover hspread with
  | @refreshed task views candidates scheduled _ phase view news =>
      simp only [step, phase, Option.some.injEq] at h
      subst h
      rcases refreshed_cases c task scheduled views with
        ⟨scheduler, ⟨hnone, _⟩ | ⟨found, hfound, _, heq⟩⟩
      · rw [hnone table view] at news
        cases news
      · rw [view] at hfound
        cases hfound
        exact ⟨task, _, scheduler, phase, heq⟩

theorem awaited_of_spread {table : Table} (hactive : c.isActive = true)
    (hid : id ∈ c.registry) (h : c.step event = some q)
    (hspread : c.handover event = .spread table) : q.Awaited id := by
  rcases refreshed_of_spread h hspread with ⟨task, old, scheduler, hphase, rfl⟩
  rcases informSessions_eq (c.placed scheduler table) ⟨c.stamps, table⟩ with
    ⟨sessions, htold⟩
  have hstarted : startSweep { c.placed scheduler table with sessions } =
      addTask { c.placed scheduler table with sessions }
        (.spawned c.registry) :=
    if_pos hactive
  rw [htold, hstarted]
  refine ⟨c.tasks.length, .spawned c.registry, ?_, hid⟩
  rw [phase?_setPhase, if_neg (Nat.ne_of_lt (phase?_lt hphase)), phase?_addTask]
  exact if_pos rfl

theorem attended_of_spread {table : Table} (hrooted : c.Rooted)
    (hc : Tracked [] c) (hactive : c.isActive = true)
    (h : c.step event = some q) (hspread : c.handover event = .spread table)
    (hlacks : q.Lacks n id) : q.Attended n id := by
  by_cases hid : id ∈ c.registry
  · exact Or.inr (Or.inr (awaited_of_spread hactive hid h hspread))
  · have hshut : c.Shut id := by
      by_contra hopen
      exact hid (hc.listed hactive hopen)
    exact Attended.step hrooted (Or.inl hshut) h hlacks

/-! ## When nobody is in the middle of anything -/

/-- There is no entry for the node, and no connection to it is open. -/
def Cleared (n : String) (id : Nat) (c : Client) : Prop :=
  forall s, c.session? id = some s ->
    (forall e, e ∈ s.pool.entries -> e.1 ≠ .node n) ∧
      forall h l, s.pool.wire? h = some (.node n, l) ->
    s.pool.isLinkOpen l = false

theorem cleared_of_bare (hrooted : c.Rooted) (hidle : c.Idle)
    (hbare : forall s, c.session? id = some s ->
      forall e, e ∈ s.pool.entries -> e.1 ≠ .node n) : c.Cleared n id := by
  intro s hs
  refine ⟨hbare s hs, fun h l hwire => ?_⟩
  rw [Bool.eq_false_iff]
  intro hopen
  rcases (hrooted id s hs).run with ⟨table, fallback, events, hrun, _⟩
  rcases Pool.entry_of_open hrun (hidle.pools (mem_of_session? hs)) hwire
    hopen with ⟨e, he, hkey, _⟩
  exact hbare s hs e he hkey

theorem cleared_of_attended (hrooted : c.Rooted) (hidle : c.Idle)
    (hc : c.Attended n id) : c.Cleared n id := by
  refine cleared_of_bare hrooted hidle (fun s hs e he => ?_)
  rcases hc with hshut | hswept | ⟨task, phase, hphase, hid⟩
  · have hended :=
      (hrooted id s hs).ended (hshut s hs) (hidle.pools (mem_of_session? hs))
    rw [hended.bare] at he
    cases he
  · exact (hswept s hs).free he
  · rcases hidle.finished hphase with ⟨outcome, rfl⟩
    cases hid

theorem lingers_of_not_cleared (hrooted : c.Rooted) (hidle : c.Idle)
    (hlacks : c.Lacks n id) (hc : ¬ c.Cleared n id) : c.Lingers n id := by
  by_contra hnone
  refine hc (cleared_of_bare hrooted hidle (fun s hs e he hkey => ?_))
  exact hnone ⟨s, hs, hlacks.session hs, e, he, hkey⟩

theorem not_cleared_of_lingers (hc : c.Lingers n id) : ¬ c.Cleared n id := by
  rcases hc with ⟨s, hs, _, e, he, hkey⟩
  intro hcleared
  exact (hcleared s hs).1 e he hkey

theorem active_of_lingers (hrooted : c.Rooted) (hc : Tracked [] c)
    (hidle : c.Idle) (hlingers : c.Lingers n id) : c.isActive = true := by
  by_contra hinactive
  have hreleased :=
    released_of_idle hrooted hc (Bool.eq_false_iff.mpr hinactive) hidle
  rcases hlingers with ⟨s, hs, _, e, he, _⟩
  rw [(hreleased.sessions hs).2.bare] at he
  cases he

/-! ## What leaves a node behind -/

/-- An entry outlives its node only when the session is handed a table without
it. -/
theorem tells_of_lingers (hrooted : c.Rooted) (hc : ¬ c.Lingers n id)
    (h : c.step event = some q) (hq : q.Lingers n id) :
    ¬ c.Lacks n id ∧ exists u, (c.handover event).Tells c id u := by
  have hextends := (deed_of_step hrooted h).extends
  rcases hq with ⟨t, ht, hunknown, e, he, hkey⟩
  cases hs : c.session? id with
  | none =>
      rcases hextends.fresh hs ht with ⟨table, fallback, timeout, _, rfl⟩
      rw [entries_arrival] at he
      cases he
  | some s =>
      rcases hextends.grown hs with ⟨t', ht', hgrown⟩
      rw [ht] at ht'
      cases ht'
      have hknown : s.pool.table.table.contains n ≠ false := by
        intro hlacks
        have habsent : Pool.Absent n s.pool := by
          refine ⟨hlacks, fun {e} he hkey => ?_⟩
          exact hc ⟨s, hs, hlacks, e, he, hkey⟩
        exact (absent_of_grown Handover.Tells.unique hgrown habsent
          hunknown).free he hkey
      refine ⟨fun hlacks => hknown (hlacks.session hs), ?_⟩
      rcases table_of_grown Handover.Tells.unique hgrown with hsame | htold
      · rw [hsame] at hunknown
        exact absurd hunknown hknown
      · exact ⟨_, htold⟩

def Handover.Strands (h : Handover) (c : Client) (id : Nat) : Prop :=
  (exists table, h = .mend table ∧ id ∈ c.registry) ∨ exists u, h = .lend id u

def Newsless (c : Client) (events : List Event) : Prop :=
  forall before event after b table, events = before ++ event :: after ->
    c.run before = some b -> b.handover event ≠ .spread table

/-- A step has taken the node from the session by a reload, or by a table of its
own; the entry has stayed for good, and no refresh has found news since. -/
def LeftBehind (n : String) (id : Nat) (c : Client)
    (events : List Event) : Prop :=
  exists before event after b r, events = before ++ event :: after ∧
    c.run before = some b ∧ ¬ b.Lacks n id ∧ b.step event = some r ∧
    (b.handover event).Strands b id ∧ r.Always (Lingers n id) after ∧
    r.Newsless after

theorem cleared_of_spread {r : Client} {table : Table} (hrooted : c.Rooted)
    (htracked : Tracked [] c) (hactive : c.isActive = true)
    (hr : c.step event = some r) (hspread : c.handover event = .spread table)
    (hrun : r.run events = some q) (hidle : q.Idle)
    (hlacks : r.Always (Lacks n id) events) : q.Cleared n id := by
  have hr' : r.Rooted := hrooted.step hr
  have hattended : r.Attended n id :=
    attended_of_spread hrooted htracked hactive hr hspread hlacks.start
  exact cleared_of_attended (hr'.run hrun) hidle (hattended.run hr' hrun hlacks)

/-- While an entry outlives its node no refresh finds news: its sweep would take
the entry away. -/
theorem not_spread_of_lingers {r : Client} (hrooted : c.Rooted)
    (htracked : Tracked [] c) (hr : c.step event = some r)
    (hrun : r.run events = some q) (hidle : q.Idle)
    (halways : r.Always (Lingers n id) events) (table : Table) :
    c.handover event ≠ .spread table := by
  intro hspread
  have hall : c.run (event :: events) = some q := run_cons.mpr ⟨r, hr, hrun⟩
  have hlingers : q.Lingers n id := halways.finish hrun
  have hactive :=
    active_of_lingers (hrooted.run hall) (htracked.run hrooted hall)
      hidle hlingers
  have hbefore : c.isActive = true := by
    by_contra hinactive
    have hover := inactive_of_run hrooted (Bool.eq_false_iff.mpr hinactive) hall
    rw [hactive] at hover
    cases hover
  have hlacks : r.Always (Lacks n id) events :=
    fun first m hfirst hm => (halways first m hfirst hm).lacks
  exact not_cleared_of_lingers hlingers
    (cleared_of_spread hrooted htracked hbefore hr hspread hrun hidle hlacks)

theorem strands_of_tells {h : Handover} {u : Shared} (hu : h.Tells c id u)
    (hnospread : forall table, h ≠ .spread table) : h.Strands c id := by
  cases h with
  | mend table => exact Or.inl ⟨table, rfl, hu.1⟩
  | spread table => exact absurd rfl (hnospread table)
  | lend other table =>
      rw [hu.1]
      exact Or.inr ⟨table, rfl⟩
  | _ => cases hu

theorem leftBehind_of_lingers {settings : Settings} {origin : Client}
    (hstart : start settings = .ok origin) (hrun : origin.run events = some c)
    (hidle : c.Idle) (hlingers : c.Lingers n id) :
    origin.LeftBehind n id events := by
  have hrooted : origin.Rooted := Rooted.of_start hstart
  have htracked : Tracked [] origin := Tracked.of_start hstart
  rcases since_of_run (P := Lingers n id) hrun hlingers with
    halways | ⟨event, b, before, after, r, rfl, hb, hnone, hr, halways⟩
  · rcases halways.start with ⟨s, hs, _⟩
    rw [(fresh_of_start hstart).session?_eq_none] at hs
    cases hs
  · have hafter : r.run after = some c := run_after hrun hb hr
    rcases tells_of_lingers (hrooted.run hb) hnone hr halways.start with
      ⟨hknown, u, hu⟩
    have hstrands : (b.handover event).Strands b id :=
      strands_of_tells hu
        (not_spread_of_lingers (hrooted.run hb) (htracked.run hrooted hb) hr
          hafter hidle halways)
    refine ⟨before, event, after, b, r, rfl, hb, hknown, hr, hstrands,
      halways, ?_⟩
    -- The same holds of every later step.
    rintro first news rest m table rfl hm
    have hm' : origin.run (before ++ event :: first) = some m :=
      run_split.mpr ⟨b, r, hb, hr, hm⟩
    rcases run_split.mp hafter with ⟨m', t, hsame, ht, hrest⟩
    cases hm.symm.trans hsame
    exact not_spread_of_lingers (hrooted.run hm') (htracked.run hrooted hm') ht
      hrest hidle (halways.after hm ht) table

/-! ## Reloads -/

structure Unmoved (s t : Session) : Prop where
  entries : t.pool.entries = s.pool.entries
  links : t.pool.links = s.pool.links
  wires : forall h, t.pool.wire? h = s.pool.wire? h

theorem Unmoved.apply (s : Session) (table : Shared) :
    Unmoved s (s.withPool (s.pool.apply table)) where
  entries := rfl
  links := rfl
  wires h := Pool.wire?_informCells { s.pool with table } table _ h

theorem unmoved_foldl {f : Session -> Session} (hf : forall s, Unmoved s (f s))
    (ids : List Nat) {s : Session} (hs : c.session? id = some s) :
    exists t, (ids.foldl (fun c id => c.modifySession id f) c).session? id =
      some t ∧ Unmoved s t := by
  induction ids generalizing c s with
  | nil => exact ⟨s, hs, rfl, rfl, fun _ => rfl⟩
  | cons first rest ih =>
      have hone : exists t, (c.modifySession first f).session? id = some t ∧
          Unmoved s t := by
        rw [session?_modifySession, hs]
        split
        · exact ⟨f s, rfl, hf s⟩
        · exact ⟨s, rfl, rfl, rfl, fun _ => rfl⟩
      rcases hone with ⟨t, ht, hst⟩
      rcases ih ht with ⟨u, hu, htu⟩
      refine ⟨u, hu, htu.entries.trans hst.entries, htu.links.trans hst.links,
        fun h => ?_⟩
      exact (htu.wires h).trans (hst.wires h)

/-- A load has ended with a table: the sessions whose topology it changes have
got it.  No task has been started, and every entry and every connection is as it
was. -/
structure Retold (c : Client) (task : Nat) (table : Table)
    (q : Client) : Prop where
  tasks : q.tasks = c.tasks.set task (.finished (.table ⟨c.stamps, table⟩))
  routes : forall {id : Nat} {u : Shared}, c.routes? id = some u ->
    q.routes? id =
      some (if Table.isChanged u.table table then ⟨c.stamps, table⟩ else u)
  pools : forall {id : Nat} {s : Session}, c.session? id = some s ->
    exists t, q.session? id = some t ∧ Unmoved s t

theorem retold_of_reload {views : Discovery.Views} {table : Table}
    (hphase : c.phase? task = some (.loading .reload))
    (hviews : views.canonical? = some table) :
    exists r, c.step (.viewed task views) = some r ∧ Retold c task table r := by
  have hmended :
      Handed c (c.handover (.viewed task views))
        (c.loaded task .reload views) :=
    handed_loaded hphase
  rw [handover_of_loading hphase hviews] at hmended
  refine ⟨c.loaded task .reload views, ?_, ?_, ?_, ?_⟩
  · simp only [step, hphase]
  · rcases loaded_of_reload (c := c) task hviews with ⟨scheduler, heq⟩
    rw [heq]
    show ((c.placed scheduler table).updateSessions _).tasks.set _ _ = _
    rw [tasks_updateSessions]
    rfl
  · exact hmended.stays.resolve_left (fun hkeep => by cases hkeep)
  · intro id s hs
    rcases loaded_of_reload (c := c) task hviews with ⟨scheduler, heq⟩
    have hplaced : (c.placed scheduler table).session? id = some s := by
      cases id with
      | zero => cases hs
      | succ position => exact hs
    have htold : exists t,
        ((c.placed scheduler table).updateSessions ⟨c.stamps, table⟩).session?
          id = some t ∧ Unmoved s t := by
      refine unmoved_foldl (fun s => ?_) _ hplaced
      split
      · exact Unmoved.apply s _
      · exact ⟨rfl, rfl, fun _ => rfl⟩
    rw [heq]
    cases id with
    | zero => cases hs
    | succ position => exact htold

/-! ## Whole runs -/

/-- What becomes of connections to nodes that have left.  When nobody is in the
middle of anything, a node that an open session has lost with a refresh, and not
regained, has no entry in the session's pool and no open connection there.  A
node that the table of the session lacks has been left behind exactly if the
session has lost it with a reload or with a table of its own, and no refresh has
found news since.  For a reload starts no sweep: it changes tables, and no entry
and no connection. -/
theorem departed_of_run {settings : Settings} {origin : Client}
    (hstart : start settings = .ok origin) (hrun : origin.run events = some c)
    (hidle : c.Idle) :
    (forall before event after b r table n id,
      events = before ++ event :: after ->
      origin.run before = some b -> b.step event = some r ->
        b.handover event = .spread table ->
      id ∈ b.registry -> r.Always (Lacks n id) after -> c.Cleared n id) ∧
    (forall n id, c.Lacks n id ->
      (c.Cleared n id <-> ¬ origin.LeftBehind n id events)) ∧
    forall (b : Client) task (views : Discovery.Views) table,
      b.phase? task = some (.loading .reload) ->
      views.canonical? = some table ->
        exists r, b.step (.viewed task views) = some r ∧
          Retold b task table r := by
  have hrooted : origin.Rooted := Rooted.of_start hstart
  have htracked : Tracked [] origin := Tracked.of_start hstart
  refine ⟨?_, ?_, fun b task views table => retold_of_reload⟩
  · rintro before event after b r table n id rfl hb hr hspread hid hlacks
    have hafter : r.run after = some c := run_after hrun hb hr
    have hbtracked : Tracked [] b := htracked.run hrooted hb
    have hactive : b.isActive = true := by
      by_contra hinactive
      rw [hbtracked.bare (Bool.eq_false_iff.mpr hinactive)] at hid
      cases hid
    exact cleared_of_spread (hrooted.run hb) hbtracked hactive hr hspread hafter
      hidle hlacks
  · intro n id hlacks
    constructor
    · rintro hcleared
        ⟨before, event, after, b, r, rfl, hb, _, hr, _, halways, _⟩
      exact not_cleared_of_lingers
        (halways.finish (run_after hrun hb hr)) hcleared
    · intro hnone
      by_contra hcleared
      have hlingers :=
        lingers_of_not_cleared (hrooted.run hrun) hidle hlacks hcleared
      exact hnone (leftBehind_of_lingers hstart hrun hidle hlingers)

def pairTable : Table :=
  ⟨[.makeMaster "n1" loneNode [],
    .makeMaster "n2" { host := "d", port := 2, timeout := .ofMillis 10000 } []],
      Table.unowned⟩

def pairRun : List Event :=
  [.fetch .session, .viewed 0 [(loneNode, pairTable)],
    .session 1 (.openTarget (.node "n2")), .session 1 (.linked 0)]

/-- A refresh finds that the second node has left, and the sweep closes the
connection. -/
theorem departed_of_run_refreshed :
    start lone = .ok loneClient ∧ exists c s,
      loneClient.run
        ((pairRun ++ [.refresh]) ++ .viewed 1 [(loneNode, loneTable "n1")] ::
          [.begin 2, .cleaned 2]) =
        some c ∧
      c.Idle ∧ c.registry = [1] ∧ c.session? 1 = some s ∧
        s.pool.wire? 0 = some (.node "n2", 0) ∧
      c.Cleared "n2" 1 := by
  have hstart : start lone = .ok loneClient := rfl
  obtain ⟨b, r, m, c, s, hb, hspread, hregistry, hr, hm, hc, htr, htm, htc⟩ :
    exists b r m c s,
      loneClient.run (pairRun ++ [.refresh]) = some b ∧
        b.handover (.viewed 1 [(loneNode, loneTable "n1")]) = .spread
          (loneTable "n1") ∧ b.registry = [1] ∧
        b.step (.viewed 1 [(loneNode, loneTable "n1")]) = some r ∧
          r.step (.begin 2) = some m ∧
        m.step (.cleaned 2) = some c ∧ r.tableOf? 1 = some ⟨1, loneTable "n1"⟩ ∧
        m.tableOf? 1 = some ⟨1, loneTable "n1"⟩ ∧
          c.tableOf? 1 = some ⟨1, loneTable "n1"⟩ ∧
        c.tasks = [.session 1, .refreshed true, .done].map .finished ∧
        c.registry = [1] ∧ c.sessions = [s] ∧
          s.pool.calls = [⟨.node "n2", .finished (.ok 0)⟩] ∧
        s.pool.cleanups = [⟨[], none, 1⟩] ∧
          s.pool.wire? 0 = some (.node "n2", 0) :=
    ⟨_, _, _, _, _, rfl, rfl, rfl, rfl, rfl, rfl, rfl, rfl, rfl, rfl, rfl, rfl,
      rfl, rfl, rfl⟩
  rcases htc with ⟨htc, htasks, hlisted, hsessions, hcalls, hcleanups, hwire⟩
  have hafter : r.run [.begin 2, .cleaned 2] = some c :=
    run_cons.mpr ⟨m, hm, run_cons.mpr ⟨c, hc, rfl⟩⟩
  have hrun := run_split.mpr ⟨b, r, hb, hr, hafter⟩
  have hidle : c.Idle := by
    refine idle_of_finished htasks (fun t ht => ?_)
    rw [hsessions, List.mem_singleton] at ht
    subst ht
    apply Pool.quiet_of_mem <;> simp [hcalls, hcleanups]
  have hlacks {d : Client} (hd : d.tableOf? 1 = some ⟨1, loneTable "n1"⟩) :
      d.Lacks "n2" 1 := by
    intro u hu
    rw [hd] at hu
    cases hu
    decide
  have halways : r.Always (Lacks "n2" 1) [.begin 2, .cleaned 2] :=
    (always_cons hm).mpr
      ⟨hlacks htr,
        (always_cons hc).mpr ⟨hlacks htm, always_nil.mpr (hlacks htc)⟩⟩
  have hsession : c.session? 1 = some s := by
    show c.sessions[0]? = some s
    rw [hsessions]
    rfl
  refine ⟨hstart, c, s, hrun, hidle, hlisted, hsession, hwire, ?_⟩
  refine (departed_of_run hstart hrun hidle).1 _ _ _ b r _ "n2" 1 rfl hb hr
    hspread ?_ halways
  rw [hregistry]
  exact List.mem_singleton_self 1

theorem step_of_same_view (views : Discovery.Views) {u : Shared}
    {candidates : List Endpoint}
    (hphase : c.phase? task = some (.refreshing candidates false))
    (htable : c.table = some u) (hviews : views.canonical? = some u.table) :
    c.step (.viewed task views) =
      some (c.setPhase task (.finished (.refreshed false))) := by
  have hsame : c.isNews u.table = false := by
    rw [isNews, htable]
    exact Table.isChanged_self u.table
  simp [step, hphase, refreshed, hviews, hsame]

/-- The same node leaves with a reload.  The connection stays open although the
table of the session lacks the node, and a refresh that finds no other news
leaves it as it is. -/
theorem left_open_by_reload :
    start lone = .ok loneClient ∧ exists b c s,
      loneClient.run pairRun = some b ∧ b.tableOf? 1 = some ⟨0, pairTable⟩ ∧
        pairTable.contains "n2" = true ∧
      b.run [.fetch .reload, .viewed 1 [(loneNode, loneTable "n1")], .refresh,
        .viewed 2 [(loneNode, loneTable "n1")]] = some c ∧
      c.Idle ∧ c.registry = [1] ∧ c.tableOf? 1 = some ⟨1, loneTable "n1"⟩ ∧
        (loneTable "n1").contains "n2" = false ∧
      c.session? 1 = some s ∧ s.pool.wire? 0 = some (.node "n2", 0) ∧
        s.pool.isLinkOpen 0 = true ∧
      ¬ c.Cleared "n2" 1 := by
  obtain ⟨b, m, s, candidates, hb, hold, hm, hphase, htable, htasks, hregistry,
    hnew, hsessions, hcalls,
      hcleanups, hwire, hopen⟩ : exists b m s candidates,
      loneClient.run pairRun = some b ∧ b.tableOf? 1 = some ⟨0, pairTable⟩ ∧
        b.run [.fetch .reload, .viewed 1 [(loneNode, loneTable "n1")],
          .refresh] = some m ∧
        m.phase? 2 = some (.refreshing candidates false) ∧
          m.table = some ⟨1, loneTable "n1"⟩ ∧
        m.tasks = [.finished (.session 1),
          .finished (.table ⟨1, loneTable "n1"⟩),
          .refreshing candidates false] ∧
        m.registry = [1] ∧ m.tableOf? 1 = some ⟨1, loneTable "n1"⟩ ∧
          m.sessions = [s] ∧
        s.pool.calls = [⟨.node "n2", .finished (.ok 0)⟩] ∧
          s.pool.cleanups = [] ∧
        s.pool.wire? 0 = some (.node "n2", 0) ∧ s.pool.isLinkOpen 0 = true :=
    ⟨_, _, _, _, rfl, rfl, rfl, rfl, rfl, rfl, rfl, rfl, rfl, rfl,
      rfl, rfl, rfl⟩
  have hlast := step_of_same_view [(loneNode, loneTable "n1")] hphase htable rfl
  have hc := run_split.mpr ⟨m, _, hm, hlast, (rfl : Client.run _ [] = some _)⟩
  have hdone : (m.setPhase 2 (.finished (.refreshed false))).tasks =
      [.session 1, .table ⟨1, loneTable "n1"⟩, .refreshed false].map
        .finished := by
    show m.tasks.set 2 _ = _
    rw [htasks]
    rfl
  have hidle : (m.setPhase 2 (.finished (.refreshed false))).Idle := by
    refine idle_of_finished hdone (fun t ht => ?_)
    change t ∈ m.sessions at ht
    rw [hsessions, List.mem_singleton] at ht
    subst ht
    apply Pool.quiet_of_mem <;> simp [hcalls, hcleanups]
  have hsession :
      (m.setPhase 2 (.finished (.refreshed false))).session? 1 = some s := by
    show m.sessions[0]? = some s
    rw [hsessions]
    rfl
  refine ⟨rfl, b, _, s, hb, hold, by decide, hc, hidle, hregistry, hnew, by
    decide, hsession, hwire, hopen, ?_⟩
  intro hcleared
  have hclosed := (hcleared s hsession).2 0 0 hwire
  rw [hopen] at hclosed
  cases hclosed

end Client
end SlotCluster
