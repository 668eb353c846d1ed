import SlotCluster.Proofs.Client.Inversion
import SlotCluster.Proofs.Pool.Tables

/-!
# Tables of a client and of its sessions

The client and each of its open sessions hold a table of their own.  An event
gives a new table to the client, to the sessions or to both, or it leaves the
tables alone.  `handover` tells which, and `handed_of_step` shows that a step
does that and no more; besides, a step may close sessions, or open one that
begins with the table of the client.
-/

namespace SlotCluster
namespace Client

/-! ## Tables of sessions -/

def SessionEvent.table? : SessionEvent -> Option Shared
  | .apply table => some table
  | _ => none

theorem table_close (s : Session) : s.close.pool.table = s.pool.table := by
  unfold Session.close
  split
  · rfl
  · exact s.pool.table_drain

theorem SessionEvent.table?_eq (event : SessionEvent) :
    event.table? = event.ofPool?.bind Pool.Event.table? := by
  cases event <;> rfl

theorem table_of_stepSession {s t : Session} {event : SessionEvent}
    (h : stepSession s event = some t) :
    t.pool.table = event.table?.getD s.pool.table := by
  have heffect := (poolEffect_of_stepSession h).2
  rw [event.table?_eq]
  generalize t.pool = pool at heffect
  cases heffect with
  | kept own =>
      rw [own]
      rfl
  | refused own target _ =>
      rw [own]
      rfl
  | requested own target =>
      rw [own]
      exact s.pool.table_request target
  | passed same stepped =>
      rw [same]
      exact Pool.table_of_step stepped

/-! ## Open sessions -/

variable {c q : Client}

def tableOf? (c : Client) (id : Nat) : Option Shared :=
  (c.session? id).map (fun s => s.pool.table)

def routes? (c : Client) (id : Nat) : Option Shared :=
  if id ∈ c.registry then c.tableOf? id else none

theorem routes?_eq_some {id : Nat} {u : Shared} :
    c.routes? id = some u <-> id ∈ c.registry ∧ c.tableOf? id = some u := by
  unfold routes?
  by_cases h : id ∈ c.registry <;> simp [h]

@[simp]
theorem session?_modifySession (c : Client) (id other : Nat)
    (f : Session -> Session) :
    (c.modifySession id f).session? other =
      if id = other then (c.session? other).map f else c.session? other := by
  cases id with
  | zero => cases other <;> simp [session?, modifySession]
  | succ n =>
      cases other with
      | zero => simp [session?]
      | succ m => by_cases h : n = m <;> simp [modifySession, session?, h]

theorem modifySession_eq (c : Client) (id : Nat) (f : Session -> Session) :
    exists sessions, c.modifySession id f = { c with sessions } := by
  cases id with
  | zero => exact ⟨c.sessions, rfl⟩
  | succ n => exact ⟨_, rfl⟩

theorem tableOf?_modifySession {id : Nat} {f : Session -> Session}
    {g : Shared -> Shared}
    (hf : forall s, c.session? id = some s -> (f s).pool.table = g s.pool.table)
    (other : Nat) :
    (c.modifySession id f).tableOf? other =
      if id = other then (c.tableOf? other).map g else c.tableOf? other := by
  unfold tableOf?
  rw [session?_modifySession]
  by_cases h : id = other
  · subst h
    cases hs : c.session? id with
    | none => simp
    | some s => simp [hf s hs]
  · simp [h]

theorem tableOf?_modifySession_self {id : Nat} {f : Session -> Session}
    (hf : forall s, c.session? id = some s -> (f s).pool.table = s.pool.table)
    (other : Nat) :
    (c.modifySession id f).tableOf? other = c.tableOf? other := by
  rw [tableOf?_modifySession (g := fun u => u) hf]
  simp

/-!
## Visits

A visit may close its session, but it changes no table.
-/

structure Toured (ids : List Nat) (c q : Client) : Prop where
  table : q.table = c.table
  closing : forall {id : Nat}, id ∈ q.registry -> id ∈ c.registry
  spared : forall {id : Nat}, id ∈ c.registry -> id ∉ ids -> id ∈ q.registry
  tables : forall id, q.tableOf? id = c.tableOf? id

namespace Toured

theorem of_same (ids : List Nat) (htable : q.table = c.table)
    (hregistry : q.registry = c.registry)
    (htables : forall id, q.tableOf? id = c.tableOf? id) : Toured ids c q where
  table := htable
  closing h := by rwa [hregistry] at h
  spared h _ := by rwa [hregistry]
  tables := htables

theorem trans {r : Client} {ids : List Nat} (hq : Toured ids c q)
    (hr : Toured ids q r) : Toured ids c r where
  table := hr.table.trans hq.table
  closing h := hq.closing (hr.closing h)
  spared h hid := hr.spared (hq.spared h hid) hid
  tables id := (hr.tables id).trans (hq.tables id)

theorem mono {few many : List Nat} (h : Toured few c q) (hsub : few ⊆ many) :
    Toured many c q where
  table := h.table
  closing := h.closing
  spared hid hmany := h.spared hid (fun hfew => hmany (hsub hfew))
  tables := h.tables

end Toured

theorem toured_modifySession (ids : List Nat) {id : Nat}
    {f : Session -> Session}
    (hf : forall s, c.session? id = some s -> (f s).pool.table = s.pool.table) :
    Toured ids c (c.modifySession id f) := by
  have htables := tableOf?_modifySession_self hf
  rcases c.modifySession_eq id f with ⟨sessions, heq⟩
  rw [heq] at htables ⊢
  exact Toured.of_same ids rfl rfl htables

theorem toured_visitOne (ids : List Nat) (c : Client) (tour : Tour) (id : Nat) :
    Toured ids c (c.visitOne tour id).1 := by
  unfold visitOne
  cases hs : c.session? id with
  | none => exact Toured.of_same ids rfl rfl (fun _ => rfl)
  | some s =>
      have hsweep :
          Toured ids c
            (c.modifySession id
              (fun t => t.withPool (t.pool.sweep t.pool.table.table))) :=
        toured_modifySession ids (fun t _ => t.pool.table_sweep _)
      have hclose : Toured ids c (c.modifySession id Session.close) :=
        toured_modifySession ids (fun t _ => table_close t)
      cases tour with
      | sweep => exact hsweep
      | _ =>
          dsimp only
          split
          · exact Toured.of_same ids rfl rfl (fun _ => rfl)
          · exact hclose

theorem toured_leave (c : Client) (tour : Tour) (id : Nat) :
    Toured [id] c (c.leave tour id) := by
  cases tour with
  | sweep => exact Toured.of_same _ rfl rfl (fun _ => rfl)
  | _ =>
      exact
        { table := rfl
          closing := List.mem_of_mem_filter
          spared := by
            intro other hmem hother
            rw [List.mem_singleton] at hother
            simpa [leave] using ⟨hmem, hother⟩
          tables := fun _ => rfl }

theorem toured_visit (c : Client) (task : Nat) (tour : Tour) (ids : List Nat) :
    Toured ids c (c.visit task tour ids) := by
  induction ids generalizing c with
  | nil => exact Toured.of_same _ rfl rfl (fun _ => rfl)
  | cons id rest ih =>
      have hvisit := toured_visitOne (id :: rest) c tour id
      have hleave (r : Client) : Toured (id :: rest) r (r.leave tour id) :=
        (toured_leave r tour id).mono (by simp)
      have hrest (r : Client) :
          Toured (id :: rest) r (r.visit task tour rest) :=
        (ih r).mono (by simp)
      unfold visit
      split
      · rename_i r heq
        rw [heq] at hvisit
        exact hvisit.trans (hrest r)
      · rename_i r cleanup heq
        rw [heq] at hvisit
        split
        · exact hvisit.trans (Toured.of_same _ rfl rfl (fun _ => rfl))
        · exact (hvisit.trans (hleave r)).trans (hrest _)

/-!
## New sessions

A step opens one session at most, and that begins with the table of the client.
-/

structure Served (c q : Client) : Prop where
  table : q.table = c.table
  routes : forall {id : Nat} {u : Shared}, q.routes? id = some u ->
    c.routes? id = some u ∨ c.routes? id = none ∧ c.table = some u
  stays : forall {id : Nat} {u : Shared}, c.routes? id = some u ->
    q.routes? id = some u

namespace Served

theorem of_same (htable : q.table = c.table)
    (hroutes : forall id, q.routes? id = c.routes? id) : Served c q where
  table := htable
  routes h := Or.inl (by rwa [hroutes] at h)
  stays h := by rwa [hroutes]

theorem trans {r : Client} (hq : Served c q)
    (hr : Served q r) : Served c r where
  table := hr.table.trans hq.table
  routes h := by
    rcases hr.routes h with hold | ⟨hnone, htable⟩
    · exact hq.routes hold
    · refine Or.inr ⟨?_, hq.table ▸ htable⟩
      rw [Option.eq_none_iff_forall_ne_some]
      intro u hu
      rw [hq.stays hu] at hnone
      cases hnone
  stays h := hr.stays (hq.stays h)

end Served

theorem activateRefresh_eq (c : Client) :
    exists scheduler, c.activateRefresh = { c with scheduler } := by
  unfold activateRefresh
  split
  · exact ⟨_, rfl⟩
  · exact ⟨c.scheduler, rfl⟩

theorem session?_append (c : Client) (opened : Session) (id : Nat) :
    session? { c with sessions := c.sessions ++ [opened] } id =
      if id = c.sessions.length + 1 then some opened else c.session? id := by
  cases id with
  | zero => rfl
  | succ n =>
      show (c.sessions ++ [opened])[n]? = _
      by_cases h : n = c.sessions.length
      · subst h
        simp
      · by_cases hlt : n < c.sessions.length
        · simp [session?, h, List.getElem?_append_left hlt]
        · have hlast : (c.sessions ++ [opened]).length ≤ n := by
            rw [List.length_append, List.length_singleton]
            omega
          simp [session?, h, List.getElem?_eq_none hlast,
            List.getElem?_eq_none (Nat.le_of_not_lt hlt)]

theorem served_openSession (task : Nat) {table : Shared}
    (htable : c.table = some table) : Served c (c.openSession task table) := by
  rcases c.activateRefresh_eq with ⟨scheduler, hactive⟩
  -- The client with the new session, before it is known whether the session has
  -- to be closed again.
  let id := c.sessions.length + 1
  let opened := Session.start table c.firstSeed c.timeout
  let r : Client :=
    { c with
      scheduler,
      sessions := c.sessions ++ [opened]
      registry := c.registry ++ [id] }
  have htoured : Toured [id] r (c.openSession task table) := by
    unfold openSession
    simp only [hactive]
    split
    · exact Toured.of_same _ rfl rfl (fun _ => rfl)
    · exact toured_visit r task .abandon [id]
  have htables (other : Nat) : r.tableOf? other =
      if other = id then some table else c.tableOf? other := by
    show (session? { c with sessions := c.sessions ++ [opened] } other).map _ =
      _
    rw [session?_append]
    by_cases h : other = id
    · rw [if_pos h, if_pos h]
      rfl
    · rw [if_neg h, if_neg h]
      rfl
  have hfree : c.tableOf? id = none := by
    simp [tableOf?, session?, id]
  refine ⟨htoured.table, ?_, ?_⟩
  · intro other u h
    rcases routes?_eq_some.mp h with ⟨hmem, hother⟩
    rw [htoured.tables, htables] at hother
    by_cases hid : other = id
    · rw [if_pos hid] at hother
      rw [← hother, hid]
      refine Or.inr ⟨?_, htable⟩
      unfold routes?
      rw [hfree, ite_self]
    · rw [if_neg hid] at hother
      have hold : other ∈ c.registry := by
        simpa [r, hid] using htoured.closing hmem
      exact Or.inl (routes?_eq_some.mpr ⟨hold, hother⟩)
  · intro other u h
    rcases routes?_eq_some.mp h with ⟨hmem, hother⟩
    have hid : other ≠ id := by
      intro hid
      rw [hid, hfree] at hother
      cases hother
    rw [routes?_eq_some, htoured.tables, htables, if_neg hid]
    exact ⟨htoured.spared (List.mem_append_left _ hmem) (by simpa using hid),
      hother⟩

theorem served_deliverTable (task : Nat) (purpose : Purpose) {table : Shared}
    (htable : c.table = some table) :
    Served c (c.deliverTable task purpose table) := by
  cases purpose with
  | session => exact served_openSession task htable
  | _ => exact Served.of_same rfl (fun _ => rfl)

theorem served_enterLoad (c : Client) (task : Nat) (purpose : Purpose) :
    Served c (c.enterLoad task purpose) := by
  have hreleased : Served c c.release := Served.of_same rfl (fun _ => rfl)
  unfold enterLoad
  split
  · exact Served.of_same rfl (fun _ => rfl)
  · rename_i table _ htable
    exact hreleased.trans (served_deliverTable task _ htable)
  · exact Served.of_same rfl (fun _ => rfl)

theorem served_awaitLoad (c : Client) (task : Nat) (purpose : Purpose) :
    Served c (c.awaitLoad task purpose) := by
  have hloader : Served c { c with loader := some task } :=
    Served.of_same rfl (fun _ => rfl)
  unfold awaitLoad
  split
  · exact hloader.trans (served_enterLoad _ task purpose)
  · exact Served.of_same rfl (fun _ => rfl)

theorem served_fetch (c : Client) (purpose : Purpose) :
    Served c (c.fetch purpose) := by
  have hadded : Served c (c.addTask (.queued purpose)) :=
    Served.of_same rfl (fun _ => rfl)
  have hset (phase : Phase) :
      Served c ((c.addTask (.queued purpose)).setPhase c.tasks.length phase) :=
    Served.of_same rfl (fun _ => rfl)
  have hawait := hadded.trans (served_awaitLoad _ c.tasks.length purpose)
  unfold fetch
  dsimp only
  split
  · rename_i table htable
    exact hadded.trans (served_deliverTable _ _ htable)
  · rename_i table htable
    split
    · exact hset _
    · exact hadded.trans (served_deliverTable _ _ htable)
  · split
    · exact hset _
    · exact hawait

/-!
## Telling every session

What is done to every session of the registry is done to every open session,
and a session that is told twice is as one that is told once.
-/

theorem foldl_modifySession_eq (c : Client) (ids : List Nat)
    (f : Session -> Session) :
    exists sessions,
      ids.foldl (fun c id => c.modifySession id f) c = { c with sessions } := by
  induction ids generalizing c with
  | nil => exact ⟨c.sessions, rfl⟩
  | cons id rest ih =>
      rcases c.modifySession_eq id f with ⟨sessions, heq⟩
      rw [List.foldl_cons, heq]
      exact ih { c with sessions }

theorem tableOf?_foldl (c : Client) (ids : List Nat) {f : Session -> Session}
    {g : Shared -> Shared} (hf : forall s, (f s).pool.table = g s.pool.table)
    (hg : forall u, g (g u) = g u) (id : Nat) :
    (ids.foldl (fun c id => c.modifySession id f) c).tableOf? id =
      if id ∈ ids then (c.tableOf? id).map g else c.tableOf? id := by
  induction ids generalizing c with
  | nil => simp
  | cons first rest ih =>
      rw [List.foldl_cons, ih, tableOf?_modifySession (fun s _ => hf s)]
      by_cases hfirst : first = id
      · subst hfirst
        simp [Function.comp_def, hg]
      · simp [hfirst, Ne.symm hfirst]

theorem routes?_foldl (c : Client) {f : Session -> Session}
    {g : Shared -> Shared} (hf : forall s, (f s).pool.table = g s.pool.table)
    (hg : forall u, g (g u) = g u) (id : Nat) :
    (c.registry.foldl (fun c id => c.modifySession id f) c).routes? id =
      (c.routes? id).map g := by
  rcases foldl_modifySession_eq c c.registry f with ⟨sessions, heq⟩
  have htables := tableOf?_foldl c c.registry hf hg id
  rw [heq] at htables ⊢
  show (if id ∈ c.registry then tableOf? { c with sessions } id else none) = _
  unfold routes?
  by_cases h : id ∈ c.registry
  · rw [if_pos h, if_pos h, htables, if_pos h]
  · rw [if_neg h, if_neg h]
    rfl

theorem routes?_updateSessions (c : Client) (table : Shared) (id : Nat) :
    (c.updateSessions table).routes? id =
      (c.routes? id).map
        (fun u =>
          if Table.isChanged u.table table.table then table else u) := by
  apply routes?_foldl
  · intro s
    split <;> rfl
  · intro u
    by_cases h : Table.isChanged u.table table.table = true
    · rw [if_pos h, ite_self]
    · rw [if_neg h, if_neg h]

theorem updateSessions_eq (c : Client) (table : Shared) :
    exists sessions, c.updateSessions table = { c with sessions } :=
  foldl_modifySession_eq c c.registry _

theorem informSessions_eq (c : Client) (table : Shared) :
    exists sessions, c.informSessions table = { c with sessions } :=
  foldl_modifySession_eq c c.registry _

theorem routes?_informSessions (c : Client) (table : Shared) (id : Nat) :
    (c.informSessions table).routes? id = (c.routes? id).map (fun _ => table) :=
  routes?_foldl c (g := fun _ => table) (fun _ => rfl) (fun _ => rfl) id

/-! ## Handing out tables -/

inductive Handover where
  | keep
  /-- The table of the client. -/
  | place (table : Table)
  /-- The table of the client, and the tables of the open sessions whose
  topology differs. -/
  | mend (table : Table)
  /-- The table of the client, and the tables of all open sessions. -/
  | spread (table : Table)
  /-- The table of one session. -/
  | lend (id : Nat) (table : Shared)

/-- What an event does to the tables.  A refresh looks at the table of the
client only. -/
def handover (c : Client) : Event -> Handover
  | .setTable table => .place table
  | .viewed task views =>
      match c.phase? task, views.canonical? with
      | some (.loading .reload), some table => .mend table
      | some (.loading _), some table => .place table
      | some (.refreshing _ _), some table =>
          if c.isNews table then .spread table else .keep
      | _, _ => .keep
  | .session id (.apply table) => .lend id table
  | _ => .keep

namespace Handover

def clientTable (h : Handover) (c : Client) : Option Shared :=
  match h with
  | .place table => some ⟨c.stamps, table⟩
  | .mend table => some ⟨c.stamps, table⟩
  | .spread table => some ⟨c.stamps, table⟩
  | _ => c.table

def sessionTable (h : Handover) (c : Client) (id : Nat)
    (old : Shared) : Shared :=
  match h with
  | .mend table =>
      if Table.isChanged old.table table then ⟨c.stamps, table⟩ else old
  | .spread table => ⟨c.stamps, table⟩
  | .lend other table => if other = id then table else old
  | _ => old

end Handover

/-- The tables of a client after they were handed out.  An open session may have
begun with the table of the client, and only an event that keeps the tables
closes sessions. -/
structure Handed (c : Client) (h : Handover) (q : Client) : Prop where
  table : q.table = h.clientTable c
  routes : forall {id : Nat} {u : Shared}, q.routes? id = some u ->
    (exists old, c.routes? id = some old ∧ u = h.sessionTable c id old) ∨
      c.routes? id = none ∧ q.table = some u
  stays : h = .keep ∨
    forall {id : Nat} {old : Shared}, c.routes? id = some old ->
    q.routes? id = some (h.sessionTable c id old)

namespace Handed

theorem of_served (h : Served c q) : Handed c .keep q where
  table := h.table
  routes hu := by
    rcases h.routes hu with hold | ⟨hnone, htable⟩
    · exact Or.inl ⟨_, hold, rfl⟩
    · exact Or.inr ⟨hnone, h.table.trans htable⟩
  stays := Or.inl rfl

theorem of_toured {ids : List Nat} (h : Toured ids c q) : Handed c .keep q where
  table := h.table
  routes hu := by
    rcases routes?_eq_some.mp hu with ⟨hmem, htable⟩
    rw [h.tables] at htable
    exact Or.inl ⟨_, routes?_eq_some.mpr ⟨h.closing hmem, htable⟩, rfl⟩
  stays := Or.inl rfl

theorem of_routes {h : Handover} (htable : q.table = h.clientTable c)
    (hroutes : forall id,
      q.routes? id = (c.routes? id).map (h.sessionTable c id)) :
    Handed c h q where
  table := htable
  routes hu := by
    rw [hroutes] at hu
    rcases Option.map_eq_some_iff.mp hu with ⟨old, hold, rfl⟩
    exact Or.inl ⟨old, hold, rfl⟩
  stays := Or.inr (fun hold => by rw [hroutes, hold]; rfl)

theorem of_placed {table : Table}
    (h : Served { c with table := some ⟨c.stamps, table⟩ } q) :
    Handed c (.place table) q where
  table := h.table
  routes hu := by
    rcases h.routes hu with hold | ⟨hnone, htable⟩
    · exact Or.inl ⟨_, hold, rfl⟩
    · exact Or.inr ⟨hnone, h.table.trans htable⟩
  stays := Or.inr h.stays

end Handed

/-!
## Every step

A refresh hands its table to the client and to all open sessions, or to nobody.
-/

section Views

variable {task : Nat} {views : Discovery.Views}

theorem handover_of_none (hviews : views.canonical? = none) :
    c.handover (.viewed task views) = .keep := by
  simp only [handover, hviews]
  split <;> first | rfl | contradiction

theorem handover_of_loading {purpose : Purpose} {table : Table}
    (hphase : c.phase? task = some (.loading purpose))
    (hviews : views.canonical? = some table) :
    c.handover (.viewed task views) =
      if purpose = .reload then .mend table else .place table := by
  simp only [handover, hphase, hviews]
  cases purpose <;> rfl

theorem handover_of_refreshing {candidates : List Endpoint} {scheduled : Bool}
    {table : Table}
    (hphase : c.phase? task = some (.refreshing candidates scheduled))
    (hviews : views.canonical? = some table) :
    c.handover (.viewed task views) =
      if c.isNews table then .spread table else .keep := by
  simp only [handover, hphase, hviews]

theorem handed_loaded {purpose : Purpose}
    (hphase : c.phase? task = some (.loading purpose)) :
    Handed c (c.handover (.viewed task views))
      (c.loaded task purpose views) := by
  rcases c.activateRefresh_eq with ⟨scheduler, hactive⟩
  unfold loaded
  cases hviews : views.canonical? with
  | none =>
      rw [handover_of_none hviews]
      simp only [Discovery.Views.load, hviews]
      exact Handed.of_served (Served.of_same rfl (fun _ => rfl))
  | some table =>
      rw [handover_of_loading hphase hviews]
      simp only [Discovery.Views.load, hviews, hactive, stamp]
      let placed : Client :=
        { c with
          scheduler,
          stamps := c.stamps + 1
          table := some ⟨c.stamps, table⟩ }
      have hplaced :
          Served { c with table := some ⟨c.stamps, table⟩ } placed.release :=
        Served.of_same rfl (fun _ => rfl)
      cases purpose with
      | reload =>
          apply Handed.of_routes
          · rcases updateSessions_eq placed ⟨c.stamps, table⟩ with
              ⟨sessions, heq⟩
            exact congrArg Client.table heq
          · exact routes?_updateSessions placed ⟨c.stamps, table⟩
      | table =>
          exact Handed.of_placed
            (hplaced.trans (served_deliverTable task .table rfl))
      | session =>
          exact Handed.of_placed
            (hplaced.trans (served_deliverTable task .session rfl))

theorem replaceTable_eq (c : Client) (table : Table) :
    exists started, c.replaceTable table =
      { informSessions { c with
        stamps := c.stamps + 1
        table := some ⟨c.stamps, table⟩ }
          ⟨c.stamps, table⟩ with
        tasks := c.tasks ++ started } := by
  let placed : Client :=
    { c with stamps := c.stamps + 1, table := some ⟨c.stamps, table⟩ }
  let told := placed.informSessions ⟨c.stamps, table⟩
  have htasks : told.tasks = c.tasks := by
    rcases placed.informSessions_eq ⟨c.stamps, table⟩ with ⟨sessions, heq⟩
    show (placed.informSessions ⟨c.stamps, table⟩).tasks = c.tasks
    rw [heq]
  show exists started,
    (if told.isActive then told.addTask (.spawned told.registry) else told) =
      { told with tasks := c.tasks ++ started }
  rw [← htasks]
  split
  · exact ⟨_, rfl⟩
  · exact ⟨[], by simp⟩

theorem refreshed_eq (c : Client) (task : Nat) (scheduled : Bool)
    {table : Table} (hviews : views.canonical? = some table) :
    exists scheduler, c.refreshed task scheduled views =
      if c.isNews table then
        (replaceTable { c with scheduler } table).setPhase task
          (.finished (.refreshed true))
      else
        setPhase { c with scheduler } task (.finished (.refreshed false)) := by
  unfold refreshed
  rw [hviews]
  cases scheduled with
  | true => exact ⟨_, rfl⟩
  | false => exact ⟨c.scheduler, rfl⟩

theorem refreshed_tables (c : Client) (task : Nat) (scheduled : Bool)
    {table : Table} (hviews : views.canonical? = some table) :
    (c.refreshed task scheduled views).table =
        (if c.isNews table then some ⟨c.stamps, table⟩ else c.table) ∧
      forall id, (c.refreshed task scheduled views).routes? id =
        if c.isNews table then
          (c.routes? id).map (fun _ => ⟨c.stamps, table⟩)
        else
          c.routes? id := by
  rcases refreshed_eq c task scheduled hviews with ⟨scheduler, heq⟩
  rw [heq]
  by_cases hnews : c.isNews table = true
  · simp only [hnews, if_true]
    rcases replaceTable_eq { c with scheduler } table with ⟨started, hreplaced⟩
    rw [hreplaced]
    refine ⟨?_, routes?_informSessions _ _⟩
    rcases informSessions_eq
        { c with
          scheduler, stamps := c.stamps + 1, table := some ⟨c.stamps, table⟩ }
        ⟨c.stamps, table⟩ with ⟨sessions, htold⟩
    exact congrArg Client.table htold
  · simp only [hnews]
    exact ⟨rfl, fun _ => rfl⟩

theorem handed_refreshed {candidates : List Endpoint} {scheduled : Bool}
    (hphase : c.phase? task = some (.refreshing candidates scheduled)) :
    Handed c (c.handover (.viewed task views))
      (c.refreshed task scheduled views) := by
  cases hviews : views.canonical? with
  | none =>
      rw [handover_of_none hviews]
      unfold refreshed
      rw [hviews]
      cases scheduled <;>
        exact Handed.of_served (Served.of_same rfl (fun _ => rfl))
  | some table =>
      rcases refreshed_tables c task scheduled hviews with ⟨htable, hroutes⟩
      rw [handover_of_refreshing hphase hviews]
      by_cases hnews : c.isNews table = true
      · simp only [hnews, if_true] at htable hroutes ⊢
        exact Handed.of_routes htable hroutes
      · simp only [hnews] at htable hroutes ⊢
        exact Handed.of_served (Served.of_same htable hroutes)

end Views

theorem toured_shutdown (c : Client) : Toured c.registry c c.shutdown := by
  unfold shutdown
  dsimp only
  split
  · let closing : Client :=
      { c with
        isActive := false
        scheduler := c.scheduler.cancel
        registry := [] }
    have hclosing :
        Toured c.registry c (closing.abandonScheduled.addTask (.spawned [])) :=
      { table := rfl
        closing := fun h => by cases h
        spared := fun h hid => absurd h hid
        tables := fun _ => rfl }
    exact hclosing.trans (toured_visit _ c.tasks.length .shutdown c.registry)
  · exact Toured.of_same _ rfl rfl (fun _ => rfl)

theorem toured_withPool {id cleanup : Nat} {s : Session} {pool : Pool}
    (ids : List Nat) (hs : c.session? id = some s)
    (hstep : s.pool.step (.cleaned cleanup) = some pool) :
    Toured ids c (c.modifySession id (fun s => s.withPool pool)) := by
  apply toured_modifySession
  intro t ht
  rw [hs] at ht
  cases ht
  exact Pool.table_of_step hstep

theorem toured_setPhase (ids : List Nat) (c : Client) (task : Nat)
    (phase : Phase) : Toured ids c (c.setPhase task phase) :=
  Toured.of_same _ rfl rfl (fun _ => rfl)

theorem toured_addTask (ids : List Nat) (c : Client) (phase : Phase) :
    Toured ids c (c.addTask phase) :=
  Toured.of_same _ rfl rfl (fun _ => rfl)

theorem served_refresh (c : Client) (scheduled : Bool) :
    Served c (c.refresh scheduled) := by
  unfold refresh
  split <;> exact Served.of_same rfl (fun _ => rfl)

theorem handover_session (c : Client) (id : Nat) (event : SessionEvent) :
    c.handover (.session id event) =
      match event.table? with
      | some table => .lend id table
      | none => .keep := by
  cases event <;> rfl

inductive Hands (c : Client) : Event -> Handover -> Prop where
  | keeps {event : Event} : Hands c event .keep
  | given (table : Table) : Hands c (.setTable table) (.place table)
  | loaded {task : Nat} {views : Discovery.Views} {purpose : Purpose}
      {table : Table} (phase : c.phase? task = some (.loading purpose))
      (first : purpose ≠ .reload) (view : views.canonical? = some table) :
      Hands c (.viewed task views) (.place table)
  | reloaded {task : Nat} {views : Discovery.Views} {table : Table}
      (phase : c.phase? task = some (.loading .reload))
      (view : views.canonical? = some table) :
      Hands c (.viewed task views) (.mend table)
  | refreshed {task : Nat} {views : Discovery.Views}
      {candidates : List Endpoint} {scheduled : Bool} {table : Table}
      (phase : c.phase? task = some (.refreshing candidates scheduled))
      (view : views.canonical? = some table)
      (news : c.isNews table = true) :
      Hands c (.viewed task views) (.spread table)
  | lent {id : Nat} {event : SessionEvent} {table : Shared}
      (news : event.table? = some table) :
      Hands c (.session id event) (.lend id table)

theorem hands_viewed (c : Client) (task : Nat) (views : Discovery.Views) :
    Hands c (.viewed task views) (c.handover (.viewed task views)) := by
  cases hviews : views.canonical? with
  | none =>
      rw [handover_of_none hviews]
      exact Hands.keeps
  | some table =>
      simp only [handover, hviews]
      split
      · rename_i hphase heq
        cases heq
        exact Hands.reloaded hphase hviews
      · rename_i purpose _ hfirst hphase heq
        cases heq
        exact Hands.loaded hphase (fun hreload => hfirst (hreload ▸ rfl)) hviews
      · rename_i candidates scheduled _ hphase heq
        cases heq
        split
        · rename_i hnews
          exact Hands.refreshed hphase hviews hnews
        · exact Hands.keeps
      · exact Hands.keeps

theorem hands_of_handover {event : Event} {news : Handover}
    (h : c.handover event = news) : Hands c event news := by
  rw [← h]
  cases event with
  | setTable table => exact Hands.given table
  | viewed task views => exact hands_viewed c task views
  | session id event =>
      rw [handover_session]
      cases htable : event.table? with
      | none => exact Hands.keeps
      | some table => exact Hands.lent htable
  | _ => exact Hands.keeps

theorem handed_session {id : Nat} {event : SessionEvent} {s t : Session}
    (hs : c.session? id = some s) (ht : stepSession s event = some t) :
    Handed c (c.handover (.session id event))
      (c.modifySession id (fun _ => t)) := by
  have hsession (r : Session) (hr : c.session? id = some r) :
      t.pool.table = event.table?.getD r.pool.table := by
    rw [hs] at hr
    cases hr
    exact table_of_stepSession ht
  rw [handover_session]
  cases htable : event.table? with
  | none =>
      rw [htable] at hsession
      exact Handed.of_toured (toured_modifySession [] hsession)
  | some table =>
      rw [htable] at hsession
      have htables :=
        tableOf?_modifySession (f := fun _ => t) (g := fun _ => table) hsession
      rcases c.modifySession_eq id (fun _ => t) with ⟨sessions, heq⟩
      rw [heq] at htables ⊢
      apply Handed.of_routes
      · rfl
      · intro other
        show (if other ∈ c.registry then tableOf? { c with sessions } other
          else none) = _
        rw [htables]
        unfold routes? Handover.sessionTable
        by_cases hid : id = other <;> by_cases hmem : other ∈ c.registry <;>
          simp [hid, hmem]

/-- A step hands out the tables that its event says. -/
theorem handed_of_step {event : Event} (h : c.step event = some q) :
    Handed c (c.handover event) q := by
  cases taken_of_step h with
  | fetch purpose => exact Handed.of_served (served_fetch c purpose)
  | granted _ _ => exact Handed.of_served (served_enterLoad c _ _)
  | setTable table => exact Handed.of_placed (Served.of_same rfl (fun _ => rfl))
  | refresh => exact Handed.of_served (served_refresh c false)
  | loaded views phase => exact handed_loaded phase
  | refreshed views phase => exact handed_refreshed phase
  | begin _ => exact Handed.of_toured (toured_visit c _ .sweep _)
  | waiting _ _ session stepped =>
      exact Handed.of_toured (toured_withPool [] session stepped)
  | @toured task id cleanup tour rest s pool _ session stepped =>
      have hended :=
        (toured_withPool (id :: rest) session stepped).trans
          (toured_setPhase _ _ task (.finished .done))
      have hleft := hended.trans ((toured_leave _ tour id).mono (by simp))
      exact Handed.of_toured
        (hleft.trans ((toured_visit _ task tour rest).mono (by simp)))
  | @cleaned task _ _ _ _ _ outcome _ session stepped =>
      have hended :=
        (toured_withPool [] session stepped).trans
          (toured_setPhase _ _ task (.finished .done))
      exact Handed.of_toured
        (hended.trans (toured_setPhase _ _ task (.finished outcome)))
  | shutdown => exact Handed.of_toured (toured_shutdown c)
  | closeSession id =>
      have hadded : Toured [id] c (c.addTask (.spawned [])) :=
        toured_addTask _ c _
      exact Handed.of_toured
        (hadded.trans (toured_visit _ c.tasks.length .close [id]))
  | sweepSession _ =>
      refine Handed.of_toured (Toured.trans ?_ (toured_addTask [] _ _))
      exact toured_modifySession [] (fun s _ => s.pool.table_sweep _)
  | drainSession _ =>
      refine Handed.of_toured (Toured.trans ?_ (toured_addTask [] _ _))
      exact toured_modifySession [] (fun s _ => s.pool.table_drain)
  | session found stepped => exact handed_session found stepped
  | beginTicks scheduler =>
      exact Handed.of_served (Served.of_same rfl (fun _ => rfl))
  | tick scheduler => exact Handed.of_served (Served.of_same rfl (fun _ => rfl))
  | round scheduler =>
      have hticked : Served c { c with scheduler } :=
        Served.of_same rfl (fun _ => rfl)
      exact Handed.of_served (hticked.trans (served_refresh _ true))
  | @reordered registry perm =>
      refine Handed.of_served (Served.of_same rfl (fun id => ?_))
      show (if id ∈ registry then c.tableOf? id else none) = c.routes? id
      exact ite_congr (propext perm.mem_iff) (fun _ => rfl) (fun _ => rfl)
  | letGo => exact Handed.of_served (Served.of_same rfl (fun _ => rfl))

end Client
end SlotCluster
