import SlotCluster.Proofs.Client.Handover
import SlotCluster.Proofs.Client.Runs

/-!
# Agreement of sessions with their client

An open session is in step with its client when both route with one topology.
It falls out of step only when the client gets a table that the session is not
told of, or the session a table of its own; a reload brings every session back.
A refresh compares the view that it has got with the table of the client alone:
it brings every session back if that table is out of date, and otherwise it
tells nobody, so a session that is out of step stays so.
-/

namespace SlotCluster

namespace Table

theorem sameTopology_self (t : Table) : t.sameTopology t = true := by
  simp [sameTopology, rolesWithin]

theorem isChanged_self (t : Table) : isChanged t t = false := by
  rw [isChanged, sameTopology_self]
  rfl

end Table

namespace Client

variable {c q : Client}

def InStep (c : Client) (id : Nat) : Prop :=
  forall u, c.routes? id = some u ->
    exists t, c.table = some t ∧ u.table.sameTopology t.table = true

/-- The client and an open session are left with tables of different
topologies. -/
def Handover.Detaches (h : Handover) (c : Client) (id : Nat) : Prop :=
  match h with
  | .place table =>
      exists u, c.routes? id = some u ∧ u.table.sameTopology table = false
  | .lend other table =>
      other = id ∧ exists u t, c.routes? id = some u ∧ c.table = some t ∧
        table.table.sameTopology t.table = false
  | _ => False

def Astray (c : Client) (id : Nat) (events : List Event) : Prop :=
  forall first m, first <+: events -> c.run first = some m -> ¬ m.InStep id

/-!
## One step

A session falls out of step exactly when an event detaches it, and as long as
it keeps its table it is in step exactly if its table and that of the client
agree.
-/

theorem inStep_start {settings : Settings} (h : start settings = .ok c)
    (id : Nat) : c.InStep id := by
  intro u hu
  have hid := (routes?_eq_some.mp hu).1
  rw [(fresh_of_start h).registry] at hid
  cases hid

theorem inStep_iff_of_stays {id : Nat} {t u : Shared}
    (hu : q.routes? id = some u) (ht : q.table = some t) :
    q.InStep id <-> u.table.sameTopology t.table = true := by
  constructor
  · intro h
    rcases h u hu with ⟨s, hs, hsame⟩
    rw [ht] at hs
    cases hs
    exact hsame
  · intro hsame v hv
    rw [hu] at hv
    cases hv
    exact ⟨t, ht, hsame⟩

theorem inStep_of_opened {h : Handover} {id : Nat} (hq : Handed c h q)
    (hnone : c.routes? id = none) : q.InStep id := by
  intro u hu
  rcases hq.routes hu with ⟨old, hold, _⟩ | ⟨_, htable⟩
  · rw [hnone] at hold
    cases hold
  · exact ⟨u, htable, u.table.sameTopology_self⟩

theorem inStep_of_keep {id : Nat} (hq : Handed c .keep q) (hc : c.InStep id) :
    q.InStep id := by
  intro u hu
  rcases hq.routes hu with ⟨_, hold, rfl⟩ | ⟨_, htable⟩
  · rcases hc _ hold with ⟨t, ht, hsame⟩
    exact ⟨t, hq.table.trans ht, hsame⟩
  · exact ⟨u, htable, u.table.sameTopology_self⟩

theorem inStep_of_mend {table : Table} (hq : Handed c (.mend table) q)
    (id : Nat) : q.InStep id := by
  intro u hu
  rcases hq.routes hu with ⟨old, _, rfl⟩ | ⟨_, htable⟩
  · refine ⟨_, hq.table, ?_⟩
    show ((if Table.isChanged old.table table then ⟨c.stamps, table⟩ else old :
      Shared).table).sameTopology table = true
    by_cases hchanged : Table.isChanged old.table table = true
    · rw [if_pos hchanged]
      exact table.sameTopology_self
    · rw [if_neg hchanged]
      simpa [Table.isChanged] using hchanged
  · exact ⟨u, htable, u.table.sameTopology_self⟩

theorem inStep_of_spread {table : Table} (hq : Handed c (.spread table) q)
    (id : Nat) : q.InStep id := by
  intro u hu
  rcases hq.routes hu with ⟨old, _, rfl⟩ | ⟨_, htable⟩
  · exact ⟨_, hq.table, table.sameTopology_self⟩
  · exact ⟨u, htable, u.table.sameTopology_self⟩

/-- A session falls out of step exactly when it is detached. -/
theorem inStep_iff_not_detaches {h : Handover} {id : Nat} (hq : Handed c h q)
    (hc : c.InStep id) : q.InStep id <-> ¬ h.Detaches c id := by
  cases h with
  | keep => exact iff_of_true (inStep_of_keep hq hc) (fun h => h)
  | mend table => exact iff_of_true (inStep_of_mend hq id) (fun h => h)
  | spread table => exact iff_of_true (inStep_of_spread hq id) (fun h => h)
  | place table =>
      cases hold : c.routes? id with
      | none =>
          refine iff_of_true (inStep_of_opened hq hold) ?_
          rintro ⟨u, hu, _⟩
          rw [hold] at hu
          cases hu
      | some old =>
          have hnew : q.routes? id = some old :=
            hq.stays.resolve_left (fun h => by cases h) hold
          rw [inStep_iff_of_stays hnew hq.table]
          simp [Handover.Detaches, hold]
  | lend other table =>
      cases hold : c.routes? id with
      | none =>
          refine iff_of_true (inStep_of_opened hq hold) ?_
          rintro ⟨_, u, t, hu, _⟩
          rw [hold] at hu
          cases hu
      | some old =>
          rcases hc old hold with ⟨t, ht, hsame⟩
          have hnew : q.routes? id = some (if other = id then table else old) :=
            hq.stays.resolve_left (fun h => by cases h) hold
          rw [inStep_iff_of_stays hnew (hq.table.trans ht)]
          by_cases hid : other = id
          · simp [Handover.Detaches, hid, hold, ht]
          · simp [Handover.Detaches, hid, hsame]

/-! ## Runs -/

/-- A step in a run that leaves a session out of step for good. -/
def LastDetached (c : Client) (id : Nat) (events : List Event) : Prop :=
  exists before event after b r, events = before ++ event :: after ∧
    c.run before = some b ∧ b.InStep id ∧ (b.handover event).Detaches b id ∧
    b.step event = some r ∧ r.Astray id after

theorem astray_or_lastDetached {id : Nat} {events : List Event}
    (hrun : c.run events = some q) (hq : ¬ q.InStep id) :
    c.Astray id events ∨ c.LastDetached id events := by
  rcases since_of_run (P := fun m => ¬ m.InStep id) hrun hq with
    hastray | ⟨event, b, before, after, r, hevents, hb, hin, hr, hastray⟩
  · exact Or.inl hastray
  · rw [not_not] at hin
    have hdetaches : (b.handover event).Detaches b id := by
      have hout := hastray.start
      rwa [inStep_iff_not_detaches (handed_of_step hr) hin, not_not] at hout
    exact Or.inr
      ⟨before, event, after, b, r, hevents, hb, hin, hdetaches, hr, hastray⟩

/-!
## Rounds

A refresh that has got a view brings back every session if the table of the
client was out of date, and nobody otherwise.
-/

theorem outcome?_setPhase {task : Nat} (htask : task < c.tasks.length)
    (outcome : Outcome) :
    (c.setPhase task (.finished outcome)).outcome? task = some outcome := by
  simp [outcome?, phase?, setPhase, htask]

theorem outcome?_refreshed {task : Nat} {views : Discovery.Views}
    {table : Table} {candidates : List Endpoint} {scheduled : Bool}
    (hphase : c.phase? task = some (.refreshing candidates scheduled))
    (hviews : views.canonical? = some table) :
    (c.refreshed task scheduled views).outcome? task =
      some (.refreshed (c.isNews table)) := by
  have htask : task < c.tasks.length := (List.getElem?_eq_some_iff.mp hphase).1
  rcases refreshed_eq c task scheduled hviews with ⟨scheduler, heq⟩
  rw [heq]
  by_cases hnews : c.isNews table = true
  · simp only [hnews, if_true]
    rcases replaceTable_eq { c with scheduler } table with ⟨started, hreplaced⟩
    rw [hreplaced]
    apply outcome?_setPhase
    rw [List.length_append]
    exact Nat.lt_add_right _ htask
  · simp only [hnews]
    exact outcome?_setPhase htask _

theorem inStep_refreshed {task : Nat} {views : Discovery.Views} {table : Table}
    (scheduled : Bool) (hviews : views.canonical? = some table) (id : Nat) :
    (c.refreshed task scheduled views).InStep id <->
      c.isNews table = true ∨ c.InStep id := by
  rcases refreshed_tables c task scheduled hviews with ⟨htable, hroutes⟩
  by_cases hnews : c.isNews table = true
  · refine iff_of_true (fun u hu => ?_) (Or.inl hnews)
    rw [hroutes, if_pos hnews] at hu
    rcases Option.map_eq_some_iff.mp hu with ⟨_, _, rfl⟩
    rw [if_pos hnews] at htable
    exact ⟨_, htable, table.sameTopology_self⟩
  · unfold InStep
    rw [htable, hroutes, if_neg hnews, if_neg hnews]
    simp [hnews]

/-- When sessions agree with their client.  Whoever is out of step after a run
has been detached by one of its steps and not been brought back since, and a
step detaches exactly if it leaves the client and the session with different
topologies.  A refresh that has got a view hands it to the client and to every
session if the client routes with another topology, and otherwise changes no
table: a session is in step afterwards exactly if the client's table was out of
date or the session was in step before.  After a reload that has got a view
every session is in step. -/
theorem agreement_of_run {settings : Settings} {origin c : Client}
    {events : List Event} (hstart : start settings = .ok origin)
    (hrun : origin.run events = some c) :
    (forall id, ¬ c.InStep id -> origin.LastDetached id events) ∧
    (forall id event q, c.InStep id -> c.step event = some q ->
      (q.InStep id <-> ¬ (c.handover event).Detaches c id)) ∧
    (forall task candidates scheduled views table,
      c.phase? task = some (.refreshing candidates scheduled) ->
        views.canonical? = some table ->
        exists q, c.step (.viewed task views) = some q ∧
          q.outcome? task = some (.refreshed (c.isNews table)) ∧
          q.table =
            (if c.isNews table then some ⟨c.stamps, table⟩ else c.table) ∧
          forall id,
            q.routes? id =
              (if c.isNews table then (c.routes? id).map (fun _ =>
                ⟨c.stamps, table⟩) else c.routes? id) ∧
            (q.InStep id <-> c.isNews table = true ∨ c.InStep id)) ∧
    (forall task views table,
      c.phase? task = some (.loading .reload) ->
        views.canonical? = some table ->
        exists q, c.step (.viewed task views) = some q ∧
          q.table = some ⟨c.stamps, table⟩ ∧
          forall id, q.InStep id) := by
  refine ⟨?_, ?_, ?_, ?_⟩
  · intro id hc
    rcases astray_or_lastDetached hrun hc with hastray | hdetached
    · exact absurd (inStep_start hstart id)
        (hastray [] origin List.nil_prefix rfl)
    · exact hdetached
  · intro id event q hc hq
    exact inStep_iff_not_detaches (handed_of_step hq) hc
  · intro task candidates scheduled views table hphase hviews
    rcases refreshed_tables c task scheduled hviews with ⟨htable, hroutes⟩
    refine ⟨c.refreshed task scheduled views, ?_,
      outcome?_refreshed hphase hviews, htable, fun id => ?_⟩
    · simp only [step, hphase]
    · exact ⟨hroutes id, inStep_refreshed scheduled hviews id⟩
  · intro task views table hphase hviews
    have hmended : Handed c (.mend table) (c.loaded task .reload views) := by
      have hhandover : c.handover (.viewed task views) = .mend table :=
        handover_of_loading hphase hviews
      rw [← hhandover]
      exact handed_loaded hphase
    refine ⟨c.loaded task .reload views, ?_, hmended.table,
      inStep_of_mend hmended⟩
    simp only [step, hphase]

def lone : Settings :=
  .ofSeeds [{ host := "h", port := 1 }]

def loneNode : Endpoint :=
  { host := "h", port := 1, timeout := .ofMillis 10000 }

def loneClient : Client :=
  { settings := lone
    seeds := [loneNode]
    timeout := .ofMillis 10000
    scheduler := { period := .ofSeconds 60 } }

def loneTable (id : String) : Table :=
  ⟨[.makeMaster id loneNode []], Table.unowned⟩

theorem loneTable_changed :
    (loneTable "n1").sameTopology (loneTable "n2") = false := by
  have hroles :
    (loneTable "n1").rolesWithin (loneTable "n2") = false := by decide
  simp [Table.sameTopology, hroles]

/-- A refresh that finds a new master gives its view to the open session. -/
theorem agreement_of_run_renewed :
    start lone = .ok loneClient ∧ exists c q,
      loneClient.run
        [.fetch .session, .viewed 0 [(loneNode, loneTable "n1")], .refresh] =
        some c ∧
      c.step (.viewed 1 [(loneNode, loneTable "n2")]) = some q ∧
      q.outcome? 1 = some (.refreshed true) ∧
        q.routes? 1 = some ⟨1, loneTable "n2"⟩ ∧ q.InStep 1 := by
  have hstart : start lone = .ok loneClient := rfl
  obtain ⟨c, candidates, hrun, hphase, htable, hstamps, hroutes⟩ :
    exists c candidates,
      loneClient.run
        [.fetch .session, .viewed 0 [(loneNode, loneTable "n1")], .refresh] =
        some c ∧
        c.phase? 1 = some (.refreshing candidates false) ∧
          c.table = some ⟨0, loneTable "n1"⟩ ∧
        c.stamps = 1 ∧ c.routes? 1 = some ⟨0, loneTable "n1"⟩ :=
          ⟨_, _, rfl, rfl, rfl, rfl, rfl⟩
  have hnews : c.isNews (loneTable "n2") = true := by
    simp [isNews, htable, Table.isChanged, loneTable_changed]
  rcases (agreement_of_run hstart hrun).2.2.1 1 candidates false
    [(loneNode, loneTable "n2")] (loneTable "n2") hphase rfl with
    ⟨q, hq, hreport, _, hsession⟩
  refine ⟨hstart, c, q, hrun, hq, ?_, ?_, ?_⟩
  · rw [hreport, hnews]
  · rw [(hsession 1).1, if_pos hnews, hroutes, hstamps]
    rfl
  · exact (hsession 1).2.mpr (Or.inl hnews)

/-- A session that is open when the client is given the new table keeps its own,
although the refresh finds the new topology. -/
theorem left_behind_by_refresh :
    start lone = .ok loneClient ∧ exists c q,
      loneClient.run
        [.fetch .session, .viewed 0 [(loneNode, loneTable "n1")],
          .setTable (loneTable "n2"),
        .refresh] = some c ∧
      c.step (.viewed 1 [(loneNode, loneTable "n2")]) = some q ∧
      q.isActive = true ∧ q.outcome? 1 = some (.refreshed false) ∧
        q.registry = [1] ∧
      q.routes? 1 = some ⟨0, loneTable "n1"⟩ ∧
        q.table = some ⟨1, loneTable "n2"⟩ ∧ ¬ q.InStep 1 := by
  obtain ⟨c, candidates, hrun, hphase, hactive, hregistry, hroutes, htable⟩ :
    exists c candidates,
      loneClient.run
        [.fetch .session, .viewed 0 [(loneNode, loneTable "n1")],
          .setTable (loneTable "n2"),
        .refresh] = some c ∧
        c.phase? 1 = some (.refreshing candidates false) ∧ c.isActive = true ∧
          c.registry = [1] ∧
        c.routes? 1 = some ⟨0, loneTable "n1"⟩ ∧
          c.table = some ⟨1, loneTable "n2"⟩ :=
    ⟨_, _, rfl, rfl, rfl, rfl, rfl, rfl⟩
  have hsame : c.isNews (loneTable "n2") = false := by
    simp [isNews, htable, Table.isChanged_self]
  have hround : c.step (.viewed 1 [(loneNode, loneTable "n2")]) =
      some (c.setPhase 1 (.finished (.refreshed false))) := by
    have hviews : Discovery.Views.canonical? [(loneNode, loneTable "n2")] =
        some (loneTable "n2") :=
      rfl
    simp [step, hphase, refreshed, hviews, hsame]
  have houtcome :=
    outcome?_setPhase (List.getElem?_eq_some_iff.mp hphase).1 (.refreshed false)
  have hout : ¬ c.InStep 1 := by
    rw [inStep_iff_of_stays hroutes htable, loneTable_changed]
    exact Bool.false_ne_true
  exact ⟨rfl, c, _, hrun, hround, hactive, houtcome, hregistry, hroutes,
    htable, hout⟩

end Client
end SlotCluster
