import SlotCluster.Proofs.Client.Sweeps
import SlotCluster.Proofs.Pool.Informed

/-!
# A round of the refresh

When the views come that a refresh has asked for, the refresh either leaves
everything as it is or renews everything at once: the table of the client, the
tables of all sessions in the registry and the tables that their connections
report.  Only a refresh that has renewed them starts a sweep, which takes from
every session what the session's table does not know.
-/

namespace SlotCluster
namespace Client

variable {c q : Client} {heard : Nat -> Shared -> Prop} {task id : Nat}
  {ids : List Nat} {event : Event} {events : List Event} {s : Session}
  {views : Discovery.Views} {table : Table} {candidates : List Endpoint}
  {scheduled : Bool}

/-! ## The registry -/

structure Enrolled (c : Client) : Prop where
  nodup : c.registry.Nodup
  known : forall {id : Nat}, id ∈ c.registry -> exists s, c.session? id = some s

theorem registry_leave (c : Client) (tour : Tour) (id : Nat) :
    (c.leave tour id).registry.Sublist c.registry := by
  cases tour with
  | sweep => exact List.Sublist.refl _
  | _ => exact List.filter_sublist

theorem registry_visit (c : Client) (task : Nat) (tour : Tour)
    (ids : List Nat) : (c.visit task tour ids).registry.Sublist c.registry := by
  induction ids generalizing c with
  | nil => exact List.Sublist.refl _
  | cons id rest ih =>
      have hone : (c.visitOne tour id).1.registry = c.registry :=
        (registry_visitOne c tour id).1
      rcases visit_cons_cases c task tour id rest with
        heq | ⟨cleanup, _, heq⟩ | heq
      · rw [heq, ← hone]
        exact ih _
      · rw [heq, ← hone]
        exact List.Sublist.refl _
      · rw [heq, ← hone]
        exact (ih _).trans (registry_leave _ tour id)

namespace Enrolled

theorem of_start {settings : Settings}
    (h : start settings = .ok c) : c.Enrolled := by
  have hregistry := (fresh_of_start h).registry
  constructor
  · rw [hregistry]
    exact List.nodup_nil
  · intro id hid
    rw [hregistry] at hid
    cases hid

theorem of_sublist (hc : c.Enrolled) (hregistry : q.registry.Sublist c.registry)
    (hq : Extends heard c q) : q.Enrolled where
  nodup := hc.nodup.sublist hregistry
  known := by
    intro id hid
    rcases hc.known (hregistry.subset hid) with ⟨s, hs⟩
    rcases hq.grown hs with ⟨t, ht, _⟩
    exact ⟨t, ht⟩

theorem opens (hc : c.Enrolled) (hq : Opens c q) : q.Enrolled := by
  rcases hq.sessions with ⟨first, fallback, timeout, _, hsessions⟩
  have hlast : c.session? (c.sessions.length + 1) = none :=
    List.getElem?_eq_none (Nat.le_refl _)
  have hnew : c.sessions.length + 1 ∉ c.registry := by
    intro hid
    rcases hc.known hid with ⟨s, hs⟩
    rw [hlast] at hs
    cases hs
  have hext : Extends (fun _ _ => False) c q := hq.extends
  by_cases hactive : c.isActive = true
  · have hregistry : q.registry = c.registry ++ [c.sessions.length + 1] :=
      hq.registry.trans (if_pos hactive)
    refine ⟨?_, fun {id} hid => ?_⟩
    · rw [hregistry]
      refine List.nodup_append.mpr
        ⟨hc.nodup, List.nodup_cons.mpr ⟨List.not_mem_nil, List.nodup_nil⟩, ?_⟩
      rintro id hid other hother rfl
      exact hnew (List.mem_singleton.mp hother ▸ hid)
    · rw [hregistry] at hid
      rcases List.mem_append.mp hid with hold | hlater
      · rcases hc.known hold with ⟨s, hs⟩
        rcases hext.grown hs with ⟨t, ht, _⟩
        exact ⟨t, ht⟩
      · rw [session?_of_append hsessions, if_pos (List.mem_singleton.mp hlater)]
        exact ⟨_, rfl⟩
  · refine hc.of_sublist ?_ hext
    rw [hq.registry, enrolled, if_neg hactive]
    exact List.filter_sublist

theorem step (hrooted : c.Rooted) (hc : c.Enrolled)
    (h : c.step event = some q) : q.Enrolled := by
  have hdeed := deed_of_step hrooted h
  have hext := hdeed.extends
  cases hdeed with
  | calm _ registry _ _ =>
      refine ⟨registry.nodup_iff.mpr hc.nodup, fun {id} hid => ?_⟩
      rcases hc.known (registry.mem_iff.mp hid) with ⟨s, hs⟩
      rcases hext.grown hs with ⟨t, ht, _⟩
      exact ⟨t, ht⟩
  | opens opens _ => exact hc.opens opens
  | begin _ => exact hc.of_sublist (registry_visit ..) hext
  | @toured task id cleanup tour rest s pool _ _ _ =>
      refine hc.of_sublist
        ((registry_visit ..).trans ((registry_leave _ tour id).trans ?_)) hext
      rw [← (registry_modifySession c id (fun s => s.withPool pool)).1]
      exact List.Sublist.refl _
  | shutdown =>
      refine hc.of_sublist ?_ hext
      unfold shutdown
      dsimp only
      split
      · exact (registry_visit ..).trans (List.nil_sublist _)
      · exact List.Sublist.refl _
  | closeSession id => exact hc.of_sublist (registry_visit ..) hext

theorem run (hrooted : c.Rooted) (hc : c.Enrolled)
    (h : c.run events = some q) : q.Enrolled :=
  hrooted.induction (P := Enrolled) hc h (fun hb hi hr => hi.step hb hr)

end Enrolled

/-! ## Sessions that are told -/

/-- The session has been handed a table, which every connection of its pool
reports now.  Its entries and connections are as they were. -/
structure Told (view : Shared) (s t : Session) : Prop where
  frame : t = s.withPool (s.pool.apply view)
  table : t.pool.table = view
  reports : forall {e : Target × Nat} {h : Nat}, e ∈ t.pool.entries ->
    t.pool.cellHandle? e.2 = some h ->
    exists handle, t.pool.handles[h]? = some handle ∧ handle.table = view
  unmoved : Unmoved s t

theorem told_apply (hs : s.Rooted) (view : Shared) :
    Told view s (s.withPool (s.pool.apply view)) where
  frame := rfl
  table := rfl
  reports := by
    rcases hs.run with ⟨table, fallback, events, hrun, _⟩
    have hinformed : s.pool.Informed :=
      (Pool.Informed.start table fallback).run hrun
    intro e h he hh
    exact hinformed.apply view e h he hh
  unmoved := Unmoved.apply s view

theorem session?_foldl {f : Session -> Session} (hnodup : ids.Nodup) :
    (ids.foldl (fun c id => c.modifySession id f) c).session? id =
      if id ∈ ids then (c.session? id).map f else c.session? id := by
  induction ids generalizing c with
  | nil => rfl
  | cons first rest ih =>
      rcases List.nodup_cons.mp hnodup with ⟨hfirst, hrest⟩
      rw [List.foldl_cons, ih hrest, session?_modifySession]
      by_cases hid : first = id
      · subst hid
        rw [if_neg hfirst, if_pos rfl, if_pos List.mem_cons_self]
      · simp [hid, Ne.symm hid]

/-! ## Rounds -/

/-- A round that has changed nothing.  Only its task has ended, and the
recurring task, if it has begun the round, waits for the next tick. -/
structure Unaltered (c : Client) (task : Nat) (q : Client) : Prop where
  tasks : q.tasks = c.tasks.set task (.finished (.refreshed false))
  table : q.table = c.table
  registry : q.registry = c.registry
  sessions : q.sessions = c.sessions

/-- A round that has renewed the tables.  A sweep of all sessions in the
registry has been started, unless the client has been shut down, and then there
is no session in the registry. -/
structure Renewed (c : Client) (task : Nat) (view : Shared)
    (q : Client) : Prop where
  tasks : q.tasks =
    (c.tasks ++ if c.isActive then [Phase.spawned c.registry] else []).set task
      (.finished (.refreshed true))
  table : q.table = some view
  registry : q.registry = c.registry
  told : forall {id : Nat}, id ∈ c.registry ->
    exists s t, c.session? id = some s ∧ q.session? id = some t ∧ Told view s t
  others : forall {id : Nat}, id ∉ c.registry -> q.session? id = c.session? id
  bare : c.isActive = false -> c.registry = []

theorem isNews_eq_false :
    c.isNews table = false <->
      exists u, c.table = some u ∧ u.table.sameTopology table = true := by
  unfold isNews Table.isChanged
  cases c.table with
  | none => simp
  | some u => simp

theorem isNews_eq_true :
    c.isNews table = true <->
      forall u, c.table = some u -> u.table.sameTopology table = false := by
  unfold isNews Table.isChanged
  cases c.table with
  | none => simp
  | some u => simp

theorem step_viewed
    (hphase : c.phase? task = some (.refreshing candidates scheduled))
    (views : Discovery.Views) :
    c.step (.viewed task views) = some (c.refreshed task scheduled views) := by
  simp only [step, hphase]

theorem unaltered_refreshed (task : Nat) (scheduled : Bool)
    (hold : forall table, views.canonical? = some table ->
      c.isNews table = false) :
    Unaltered c task (c.refreshed task scheduled views) := by
  rcases refreshed_cases c task scheduled views with
    ⟨scheduler, ⟨_, heq⟩ | ⟨table, hviews, hnews, _⟩⟩
  · rw [heq]
    exact ⟨rfl, rfl, rfl, rfl⟩
  · rw [hold table hviews] at hnews
    cases hnews

theorem startSweep_eq (c : Client) :
    c.startSweep =
      { c with
        tasks := c.tasks ++ if c.isActive then [Phase.spawned c.registry]
        else [] } := by
  unfold startSweep
  split
  · rfl
  · rw [List.append_nil]

theorem renewed_refreshed (hrooted : c.Rooted) (henrolled : c.Enrolled)
    (htracked : Tracked [] c) (task : Nat) (scheduled : Bool)
    (hviews : views.canonical? = some table) (hnews : c.isNews table = true) :
    Renewed c task ⟨c.stamps, table⟩ (c.refreshed task scheduled views) := by
  rcases refreshed_cases c task scheduled views with
    ⟨scheduler, ⟨hold, _⟩ | ⟨table', hviews', _, heq⟩⟩
  · rw [hold table hviews] at hnews
    cases hnews
  · rw [hviews] at hviews'
    cases hviews'
    have hsessions (id : Nat) :
      ((c.placed scheduler table).informSessions ⟨c.stamps, table⟩).session?
        id = if id ∈ c.registry then (c.session? id).map (fun s =>
          s.withPool (s.pool.apply ⟨c.stamps, table⟩))
        else c.session? id :=
      session?_foldl (c := c.placed scheduler table) henrolled.nodup
    rcases informSessions_eq (c.placed scheduler table) ⟨c.stamps, table⟩ with
      ⟨sessions, htold⟩
    rw [htold] at heq hsessions
    rw [heq, startSweep_eq]
    refine ⟨rfl, rfl, rfl, fun {id} hid => ?_, fun {id} hid => ?_,
      htracked.bare⟩
    · rcases henrolled.known hid with ⟨s, hs⟩
      refine ⟨s, _, hs, ?_, told_apply (hrooted id s hs) ⟨c.stamps, table⟩⟩
      refine Eq.trans (hsessions id) ?_
      rw [if_pos hid, hs]
      rfl
    · exact (hsessions id).trans (if_neg hid)

theorem underway_of_renewed {view : Shared} (hq : Renewed c task view q)
    (hrooted : q.Rooted) (hattributed : q.Attributed)
    (htask : task < c.tasks.length) (hactive : c.isActive = true) :
    Underway c.tasks.length c.registry q ∧
      q.phase? c.tasks.length = some (.spawned c.registry) := by
  have hphase : q.phase? c.tasks.length = some (.spawned c.registry) := by
    show q.tasks[c.tasks.length]? = _
    rw [hq.tasks, if_pos hactive, List.getElem?_set_ne (Nat.ne_of_lt htask),
      List.getElem?_concat_length]
  exact ⟨⟨hrooted, hattributed, _, hphase, Stage.spawned⟩, hphase⟩

/-- A round of the refresh is all or nothing.  Without a view, or with one that
has the topology of the client's table, it changes nothing.  With any other
view, the table of the client, the tables of all sessions in the registry and
the tables that their connections report become that view, and a sweep is
started.  The sweep takes from every session exactly the entries that the
session's table does not know, and closes them, and it comes to its end. -/
theorem round_of_run {settings : Settings} {origin : Client}
    (hstart : start settings = .ok origin) (hrun : origin.run events = some c)
    (hphase : c.phase? task = some (.refreshing candidates scheduled))
    (views : Discovery.Views) :
    exists q, c.step (.viewed task views) = some q ∧
      ((forall table, views.canonical? = some table ->
          exists u, c.table = some u ∧ u.table.sameTopology table = true) ->
            Unaltered c task q) ∧
      forall table, views.canonical? = some table ->
        (forall u, c.table = some u -> u.table.sameTopology table = false) ->
          Renewed c task ⟨c.stamps, table⟩ q ∧
          (c.isActive = true -> forall more r, q.run more = some r ->
            Clears c.tasks.length c.registry q more r) := by
  have hrooted : c.Rooted := (Rooted.of_start hstart).run hrun
  have htracked : Tracked [] c :=
    (Tracked.of_start hstart).run (Rooted.of_start hstart) hrun
  have henrolled : c.Enrolled :=
    (Enrolled.of_start hstart).run (Rooted.of_start hstart) hrun
  have hattributed : c.Attributed :=
    (Attributed.of_start hstart).run (Rooted.of_start hstart) hrun
  have hstep := step_viewed hphase views
  refine ⟨c.refreshed task scheduled views, hstep, fun hold => ?_,
    fun table hviews hnew => ?_⟩
  · exact unaltered_refreshed task scheduled
      (fun table hviews => isNews_eq_false.mpr (hold table hviews))
  · have hq :=
      renewed_refreshed hrooted henrolled htracked task scheduled hviews
        (isNews_eq_true.mpr hnew)
    refine ⟨hq, fun hactive more r hmore => ?_⟩
    rcases underway_of_renewed hq (hrooted.step hstep)
        (hattributed.step hrooted hstep) (phase?_lt hphase) hactive with
      ⟨hunderway, hspawned⟩
    refine clears_of_underway hunderway henrolled.nodup
      (fun {id} hid => ?_) hmore
    rcases hq.told hid with ⟨_, t, _, ht, _⟩
    exact ⟨⟨_, hspawned, hid⟩, t, ht⟩

/-- A session has a connection to the second of two nodes.  A refresh without a
view leaves everything as it is.  A refresh that finds the second node gone
renews the tables, and its sweep closes the connection. -/
theorem round_of_run_pair :
    start lone = .ok loneClient ∧ exists c q r s u candidates,
      loneClient.run (pairRun ++ [.refresh]) = some c ∧
        c.phase? 1 = some (.refreshing candidates false) ∧
      (exists m, c.step (.viewed 1 []) = some m ∧ Unaltered c 1 m) ∧
      c.isActive = true ∧ c.registry = [1] ∧
        c.step (.viewed 1 [(loneNode, loneTable "n1")]) = some q ∧
      Renewed c 1 ⟨1, loneTable "n1"⟩ q ∧ q.session? 1 = some s ∧
      s.pool.entries = [(.node "n2", 0)] ∧ s.pool.isLinkOpen 0 = true ∧
      q.run [.begin 2, .cleaned 2] = some r ∧
        Clears 2 [1] q [.begin 2, .cleaned 2] r ∧
      r.phase? 2 = some (.finished .done) ∧ r.session? 1 = some u ∧
      u.pool.entries = [] ∧ u.pool.isLinkOpen 0 = false := by
  have hstart : start lone = .ok loneClient := rfl
  obtain ⟨c, v, q, r, s, u, candidates, hc, hphase, htable, hv, hactive,
    hregistry, hstamps, hlength, hq, hs,
      hentries, hopen, hr, hdone, hu, hempty, hclosed⟩ :
        exists c v q r s u candidates,
      loneClient.run (pairRun ++ [.refresh]) = some c ∧
        c.phase? 1 = some (.refreshing candidates false) ∧
        c.table = some v ∧ v.table.sameTopology (loneTable "n1") = false ∧
        c.isActive = true ∧ c.registry = [1] ∧ c.stamps = 1 ∧
          c.tasks.length = 2 ∧
        c.step (.viewed 1 [(loneNode, loneTable "n1")]) = some q ∧
          q.session? 1 = some s ∧
        s.pool.entries = [(.node "n2", 0)] ∧ s.pool.isLinkOpen 0 = true ∧
        q.run [.begin 2, .cleaned 2] = some r ∧
          r.phase? 2 = some (.finished .done) ∧
        r.session? 1 = some u ∧ u.pool.entries = [] ∧
          u.pool.isLinkOpen 0 = false :=
    ⟨_, _, _, _, _, _, _, rfl, rfl, rfl, rfl, rfl, rfl, rfl, rfl, rfl, rfl, rfl,
      rfl, rfl, rfl, rfl, rfl, rfl⟩
  rcases round_of_run hstart hc hphase [] with ⟨m, hm, hunaltered, _⟩
  rcases round_of_run hstart hc hphase [(loneNode, loneTable "n1")] with
    ⟨q', hq', _, hrenewed⟩
  rw [hq] at hq'
  cases hq'
  have hnew : forall u, c.table = some u ->
      u.table.sameTopology (loneTable "n1") = false := by
    intro u hu
    rw [htable] at hu
    cases hu
    exact hv
  rcases hrenewed (loneTable "n1") rfl hnew with ⟨htold, hclears⟩
  have hswept := hclears hactive _ _ hr
  rw [hlength, hregistry] at hswept
  rw [hstamps] at htold
  exact ⟨hstart, c, q, r, s, u, candidates, hc, hphase,
    ⟨m, hm, hunaltered nofun⟩, hactive, hregistry, hq, htold, hs, hentries,
    hopen, hr, hswept, hdone, hu, hempty, hclosed⟩

end Client
end SlotCluster
