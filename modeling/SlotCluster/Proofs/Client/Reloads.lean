import SlotCluster.Proofs.Client.Rounds
import SlotCluster.Proofs.Client.Shutdown

/-!
# Reloads

A reload waits for its turn, asks the seeds for their views, and puts a table in
place.  All that it does to the client and to its sessions, it does in the one
step in which the views come, and only if there is a view.  Then each session in
the registry is handed the table, unless the session's own table describes the
same topology already.  No connection is opened or closed.
-/

namespace SlotCluster
namespace Client

variable {c q r : Client} {task id : Nat} {event : Event} {events : List Event}
  {s t : Session} {views : Discovery.Views} {view : Shared}

/-! ## What a reload changes -/

structure Preserves (c q : Client) : Prop where
  active : q.isActive = c.isActive
  table : q.table = c.table
  registry : q.registry = c.registry
  sessions : q.sessions = c.sessions

/-- A session whose table has the topology of a view keeps it, and another
session is told. -/
inductive Updated (view : Shared) (s t : Session) : Prop where
  | kept (known : s.pool.table.table.sameTopology view.table = true)
      (same : t = s)
  | told (news : s.pool.table.table.sameTopology view.table = false)
      (told : Told view s t)

theorem Updated.describes (h : Updated view s t) :
    t.pool.table.table.sameTopology view.table = true := by
  cases h with
  | kept known same =>
      rw [same]
      exact known
  | told _ told =>
      rw [told.table]
      exact Table.sameTopology_self view.table

theorem Updated.unmoved (h : Updated view s t) : Unmoved s t := by
  cases h with
  | kept _ same =>
      rw [same]
      exact ⟨rfl, rfl, fun _ => rfl⟩
  | told _ told => exact told.unmoved

theorem updated_apply (hs : s.Rooted) (view : Shared) :
    Updated view s
      (if Table.isChanged s.pool.table.table view.table then
        s.withPool (s.pool.apply view)
      else
        s) := by
  unfold Table.isChanged
  cases hsame : s.pool.table.table.sameTopology view.table with
  | true => exact .kept hsame rfl
  | false => exact .told hsame (told_apply hs view)

/-- A view has been put in place, and every session in the registry uses a table
that describes its topology. -/
structure Reloaded (c : Client) (view : Shared) (q : Client) : Prop where
  table : q.table = some view
  registry : q.registry = c.registry
  updated : forall {id : Nat}, id ∈ c.registry ->
    exists s t, c.session? id = some s ∧ q.session? id = some t ∧
      Updated view s t ∧ Unmoved s t ∧
      t.pool.table.table.sameTopology view.table = true
  others : forall {id : Nat}, id ∉ c.registry -> q.session? id = c.session? id

/-! ## The steps of a reload -/

theorem preserves_fetch (c : Client) :
    Preserves c (c.fetch .reload) ∧
      (c.isActive = false ->
        (c.fetch .reload).phase? c.tasks.length =
          some (.finished (.failed .shutdown))) ∧
      (c.isActive = true -> (c.fetch .reload).phase? c.tasks.length =
        some (if c.loader.isNone then .loading .reload
          else .queued .reload)) := by
  cases hactive : c.isActive with
  | false =>
      rcases fetch_of_inactive hactive .reload with ⟨outcome, heq, houtcome⟩
      rw [heq, houtcome nofun]
      refine ⟨⟨rfl, rfl, rfl, rfl⟩, fun _ => ?_, nofun⟩
      simp
  | true =>
      have hphase : (c.addTask (.queued .reload)).phase? c.tasks.length =
          some (.queued .reload) := by
        simp
      have hawait : c.fetch .reload =
          (c.addTask (.queued .reload)).awaitLoad c.tasks.length .reload :=
        if_neg (by show ¬ (!c.isActive) = true; simp [hactive])
      have hloader : (c.addTask (.queued .reload)).loader = c.loader := rfl
      rw [hawait]
      unfold awaitLoad
      rw [hloader]
      cases c.loader with
      | none =>
          refine ⟨⟨rfl, rfl, rfl, rfl⟩, nofun, fun _ => ?_⟩
          exact phase?_setPhase_self
            (c :=
              { c.addTask (.queued .reload) with
                loader := some c.tasks.length }) _ hphase
      | some other => exact ⟨⟨rfl, rfl, rfl, rfl⟩, nofun, fun _ => hphase⟩

theorem loaded_reload (hrooted : c.Rooted) (henrolled : c.Enrolled)
    (hphase : c.phase? task = some (.loading .reload))
    (views : Discovery.Views) :
    views.canonical? = none ∧ Preserves c (c.loaded task .reload views) ∧
        (c.loaded task .reload views).phase? task =
          some (.finished (.failed (.noViewAvailable c.seeds))) ∨
      exists table,
        views.canonical? = some table ∧
        Reloaded c ⟨c.stamps, table⟩ (c.loaded task .reload views) ∧
        (c.loaded task .reload views).phase? task =
          some (.finished (.table ⟨c.stamps, table⟩)) := by
  cases hviews : views.canonical? with
  | none =>
      rw [loaded_of_none task .reload hviews]
      exact Or.inl
        ⟨rfl, ⟨rfl, rfl, rfl, rfl⟩,
          phase?_setPhase_self (c := c.release) _ hphase⟩
  | some table =>
      rcases loaded_of_reload (c := c) task hviews with ⟨scheduler, heq⟩
      have hsessions (id : Nat) :
          ((c.placed scheduler table).updateSessions ⟨c.stamps, table⟩).session?
              id =
            if id ∈ c.registry then
              (c.session? id).map (fun s =>
                if Table.isChanged s.pool.table.table table then
                  s.withPool (s.pool.apply ⟨c.stamps, table⟩)
                else
                  s)
            else
              c.session? id :=
        session?_foldl (c := c.placed scheduler table) henrolled.nodup
      rcases updateSessions_eq (c.placed scheduler table) ⟨c.stamps, table⟩ with
        ⟨sessions, hupdated⟩
      rw [hupdated] at heq hsessions
      rw [heq]
      refine Or.inr
        ⟨table, rfl, ⟨rfl, rfl, fun {id} hid => ?_, fun {id} hid => ?_⟩, ?_⟩
      · rcases henrolled.known hid with ⟨s, hs⟩
        have hupdated := updated_apply (hrooted id s hs) ⟨c.stamps, table⟩
        refine ⟨s, _, hs, ?_, hupdated, hupdated.unmoved, hupdated.describes⟩
        refine Eq.trans (hsessions id) ?_
        rw [if_pos hid, hs]
        rfl
      · exact (hsessions id).trans (if_neg hid)
      · exact phase?_setPhase_self
          (c := release { c.placed scheduler table with sessions }) _ hphase

theorem step_granted {purpose : Purpose}
    (hphase : c.phase? task = some (.queued purpose))
    (hturn : c.loader = some task) :
    c.step (.granted task) = some (c.enterLoad task purpose) := by
  simp only [step, hphase, if_pos hturn]

theorem step_loaded {purpose : Purpose}
    (hphase : c.phase? task = some (.loading purpose))
    (views : Discovery.Views) :
    c.step (.viewed task views) = some (c.loaded task purpose views) := by
  simp only [step, hphase]

/-!
## Reloads in a run

A task is discreet in a run if all its steps there leave the table and the
sessions alone.
-/

def Discreet (task : Nat) (c : Client) (events : List Event) : Prop :=
  forall before event after b d, events = before ++ event :: after ->
    c.run before = some b -> b.step event = some d -> event.task? = some task ->
    Preserves b d

theorem discreet_nil (task : Nat) (c : Client) : Discreet task c [] := by
  intro before event after b d hevents
  exact absurd hevents.symm (by simp)

theorem Discreet.concat (h : Discreet task c events)
    (hrun : c.run events = some q)
    (hlast : forall d, q.step event = some d -> event.task? = some task ->
      Preserves q d) : Discreet task c (events ++ [event]) := by
  intro before e after b d hevents hb hd htask
  rcases List.eq_nil_or_concat after with rfl | ⟨front, last, rfl⟩
  · rcases List.append_inj' hevents rfl with ⟨rfl, heq⟩
    cases heq
    rw [hrun] at hb
    cases hb
    exact hlast d hd htask
  · rw [List.concat_eq_append, ← List.cons_append,
      ← List.append_assoc] at hevents
    rcases List.append_inj' hevents rfl with ⟨rfl, _⟩
    exact h before e front b d rfl hb hd htask

theorem Discreet.aside (h : Discreet task c events)
    (hrun : c.run events = some q) (hother : event.task? ≠ some task) :
    Discreet task c (events ++ [event]) :=
  h.concat hrun (fun _ _ htask => absurd htask hother)

theorem Discreet.own (h : Discreet task c events) (hrun : c.run events = some q)
    (hstep : q.step event = some r) (hpreserves : Preserves q r) :
    Discreet task c (events ++ [event]) := by
  refine h.concat hrun (fun d hd _ => ?_)
  rw [hstep] at hd
  cases hd
  exact hpreserves

/-- How far a reload has come in a run that begins right after its request. -/
inductive Reloading (task : Nat) (c : Client) (events : List Event) :
    Phase -> Prop where
  | waits (discreet : Discreet task c events) :
      Reloading task c events (.queued .reload)
  | loads (discreet : Discreet task c events) :
      Reloading task c events (.loading .reload)
  | refused (inactive : c.isActive = false)
      (discreet : Discreet task c events) :
      Reloading task c events (.finished (.failed .shutdown))
  | blind (seeds : List Endpoint) (discreet : Discreet task c events) :
      Reloading task c events (.finished (.failed (.noViewAvailable seeds)))
  /-- In one step of the run the table has been put in place, and all other
  steps of the reload have been discreet. -/
  | succeeded {before after : List Event} {b d : Client}
      {views : Discovery.Views} {view : Shared}
      (split : events = before ++ .viewed task views :: after)
      (run : c.run before = some b)
      (step : b.step (.viewed task views) = some d)
      (reloaded : Reloaded b view d)
      (discreet : Discreet task c before) (rest : Discreet task d after) :
      Reloading task c events (.finished (.table view))

namespace Reloading

variable {b : Client} {phase : Phase}

theorem aside (h : Reloading task c events phase) (hrun : c.run events = some b)
    (hother : event.task? ≠ some task) :
    Reloading task c (events ++ [event]) phase := by
  cases h with
  | waits discreet => exact .waits (discreet.aside hrun hother)
  | loads discreet => exact .loads (discreet.aside hrun hother)
  | refused inactive discreet =>
      exact .refused inactive (discreet.aside hrun hother)
  | blind seeds discreet => exact .blind seeds (discreet.aside hrun hother)
  | @succeeded before after _ _ views view split run step reloaded
      discreet rest =>
      subst split
      have hsplit : (before ++ .viewed task views :: after) ++ [event] =
          before ++ .viewed task views :: (after ++ [event]) := by simp
      exact .succeeded hsplit run step reloaded discreet
        (rest.aside (run_after hrun run step) hother)

theorem own (h : Reloading task c events phase) (hrun : c.run events = some b)
    (hrooted : b.Rooted) (henrolled : b.Enrolled)
    (hphase : b.phase? task = some phase) (hstep : b.step event = some q)
    (hown : event.task? = some task) :
    exists phase,
      q.phase? task = some phase ∧
      Reloading task c (events ++ [event]) phase := by
  have hsuits := suits_of_step hstep hown hphase
  cases h with
  | waits discreet =>
      cases hsuits with
      | granted _ =>
          have hq : q = b.enterLoad task .reload := by
            cases taken_of_step hstep with
            | granted found _ =>
                rw [hphase] at found
                cases found
                rfl
          subst hq
          exact ⟨_, phase?_setPhase_self _ hphase,
            .loads (discreet.own hrun hstep ⟨rfl, rfl, rfl, rfl⟩)⟩
  | loads discreet =>
      cases hsuits with
      | loaded views _ =>
          have hloaded := step_loaded hphase views
          rw [hstep] at hloaded
          cases hloaded
          rcases loaded_reload hrooted henrolled hphase views with
            ⟨_, hpreserves, hended⟩ | ⟨table, _, hreloaded, hended⟩
          · exact ⟨_, hended,
              .blind b.seeds (discreet.own hrun hstep hpreserves)⟩
          · exact ⟨_, hended,
              .succeeded rfl hrun hstep hreloaded discreet
                (discreet_nil task _)⟩
  | _ => cases hsuits

theorem run (h : Reloading task c [] phase) (hrooted : c.Rooted)
    (henrolled : c.Enrolled) (hphase : c.phase? task = some phase)
    (hrun : c.run events = some q) :
    exists phase,
      q.phase? task = some phase ∧ Reloading task c events phase := by
  induction events using List.reverseRecOn generalizing q with
  | nil =>
      cases hrun
      exact ⟨phase, hphase, h⟩
  | append_singleton events event ih =>
      rcases run_split.mp hrun with ⟨b, d, hb, hd, hlast⟩
      cases hlast
      rcases ih hb with ⟨old, hold, hreloading⟩
      by_cases hown : event.task? = some task
      · exact hreloading.own hb (hrooted.run hb) (henrolled.run hrooted hb)
          hold hd hown
      · refine ⟨old, phase?_of_step hd hold hown ?_, hreloading.aside hb hown⟩
        cases hreloading <;> exact nofun

end Reloading

/-- A reload is all or nothing.  Its request is refused by a client that has
been shut down and else waits for its turn or asks the seeds at once.  From then
on it either leaves the table of the client and all sessions alone in every
step, and so it does if it fails, or one step puts the table in place that the
reload reports: it becomes the table of the client, the sessions in the registry
whose tables have another topology are told, those whose tables have its
topology keep them, and no session's connections change.  When the views come it
ends, whatever they are. -/
theorem reload_of_run {settings : Settings} {origin : Client}
    (hstart : start settings = .ok origin) (hrun : origin.run events = some c) :
    exists r, c.step (.fetch .reload) = some r ∧ Preserves c r ∧
      (c.isActive = false ->
        r.phase? c.tasks.length = some (.finished (.failed .shutdown))) ∧
      (c.isActive = true -> r.phase? c.tasks.length =
        some (if c.loader.isNone then .loading .reload else .queued .reload)) ∧
      forall later q, r.run later = some q ->
        (exists phase, q.phase? c.tasks.length = some phase ∧
          Reloading c.tasks.length r later phase) ∧
        (q.phase? c.tasks.length = some (.queued .reload) ->
          q.loader = some c.tasks.length ->
          exists d, q.step (.granted c.tasks.length) = some d ∧
            d.phase? c.tasks.length = some (.loading .reload)) ∧
        (q.phase? c.tasks.length = some (.loading .reload) -> forall views,
          exists d, q.step (.viewed c.tasks.length views) = some d ∧
            (views.canonical? = none ∧ Preserves q d ∧
                d.phase? c.tasks.length =
                  some (.finished (.failed (.noViewAvailable q.seeds))) ∨
              exists table,
                views.canonical? = some table ∧ Reloaded q ⟨q.stamps, table⟩ d ∧
                d.phase? c.tasks.length =
                  some (.finished (.table ⟨q.stamps, table⟩)))) := by
  have hrooted : c.Rooted := (Rooted.of_start hstart).run hrun
  have henrolled : c.Enrolled :=
    (Enrolled.of_start hstart).run (Rooted.of_start hstart) hrun
  have hstep : c.step (.fetch .reload) = some (c.fetch .reload) := rfl
  have hrooted' : (c.fetch .reload).Rooted := hrooted.step hstep
  have henrolled' : (c.fetch .reload).Enrolled := henrolled.step hrooted hstep
  rcases preserves_fetch c with ⟨hpreserves, hrefused, hbegun⟩
  refine ⟨c.fetch .reload, hstep, hpreserves, hrefused, hbegun,
    fun later q hlater => ⟨?_, ?_, ?_⟩⟩
  · have hnil : Discreet c.tasks.length (c.fetch .reload) [] := discreet_nil _ _
    cases hactive : c.isActive with
    | false =>
        have hinactive : (c.fetch .reload).isActive = false :=
          hpreserves.active.trans hactive
        exact (Reloading.refused hinactive hnil).run hrooted' henrolled'
          (hrefused hactive) hlater
    | true =>
        refine Reloading.run ?_ hrooted' henrolled' (hbegun hactive) hlater
        split
        · exact .loads hnil
        · exact .waits hnil
  · intro hqueued hturn
    exact ⟨_, step_granted hqueued hturn, phase?_setPhase_self _ hqueued⟩
  · intro hloading views
    have hends :=
      loaded_reload (hrooted'.run hlater) (henrolled'.run hrooted' hlater)
        hloading views
    exact ⟨_, step_loaded hloading views, hends⟩

/-- Two sessions have been opened on different tables, and the first has a
connection.  A reload without a view changes nothing.  A reload that finds the
topology of the second session gives its view to the first one only, and the
connection stays. -/
theorem reload_of_run_mixed :
    start lone = .ok loneClient ∧ exists c r m q s t,
      loneClient.run
        (pairRun ++ [.setTable (loneTable "n1"), .fetch .session]) = some c ∧
      c.step (.fetch .reload) = some r ∧ r.step (.viewed 2 []) = some m ∧
        Preserves r m ∧
      r.step (.viewed 2 [(loneNode, loneTable "n1")]) = some q ∧
        Reloaded r ⟨2, loneTable "n1"⟩ q ∧
      q.session? 1 = some s ∧ s.pool.table = ⟨2, loneTable "n1"⟩ ∧
        s.pool.isLinkOpen 0 = true ∧
      r.session? 2 = some t ∧ t.pool.table = ⟨1, loneTable "n1"⟩ ∧
        q.session? 2 = some t := by
  have hstart : start lone = .ok loneClient := rfl
  obtain ⟨c, r, first, second, hrun, hr, hlength, hphase, hstamps, hregistry,
    hfirst, hnews, hopen, hsecond,
      htable⟩ : exists c r first second,
      loneClient.run
        (pairRun ++ [.setTable (loneTable "n1"), .fetch .session]) = some c ∧
        c.step (.fetch .reload) = some r ∧ c.tasks.length = 2 ∧
          r.phase? 2 = some (.loading .reload) ∧
        r.stamps = 2 ∧ r.registry = [1, 2] ∧ r.session? 1 = some first ∧
        first.pool.table.table.sameTopology (loneTable "n1") = false ∧
          first.pool.isLinkOpen 0 = true ∧
        r.session? 2 = some second ∧ second.pool.table = ⟨1, loneTable "n1"⟩ :=
    ⟨_, _, _, _, rfl, rfl, rfl, rfl, rfl, rfl, rfl, rfl, rfl, rfl, rfl⟩
  rcases reload_of_run hstart hrun with ⟨r', hr', _, _, _, hlater⟩
  rw [hr] at hr'
  cases hr'
  rw [hlength] at hlater
  have hends := (hlater [] r rfl).2.2 hphase
  rcases hends [] with ⟨m, hm, ⟨_, hpreserves, _⟩ | ⟨table, hviews, _⟩⟩
  · rcases hends [(loneNode, loneTable "n1")] with
      ⟨q, hq, ⟨hviews, _⟩ | ⟨table, hviews, hreloaded, _⟩⟩
    · cases hviews
    · cases hviews
      rw [hstamps] at hreloaded
      have hids : forall id, id ∈ [1, 2] -> id ∈ r.registry :=
        fun id hid => hregistry ▸ hid
      rcases hreloaded.updated (hids 1 (by decide)) with
        ⟨s, s', hs, hs', hone, hunmoved, _⟩
      rcases hreloaded.updated (hids 2 (by decide)) with
        ⟨t, t', ht, ht', htwo, _⟩
      rw [hfirst] at hs
      rw [hsecond] at ht
      cases hs
      cases ht
      have htold : s'.pool.table = ⟨2, loneTable "n1"⟩ := by
        cases hone with
        | kept known _ => exact absurd (hnews.symm.trans known) nofun
        | told _ told => exact told.table
      have hkept : t' = second := by
        cases htwo with
        | kept _ same => exact same
        | told news _ =>
            rw [htable] at news
            exact absurd (news.symm.trans (Table.sameTopology_self _)) nofun
      have hlink : s'.pool.isLinkOpen 0 = true := by
        unfold Pool.isLinkOpen at hopen ⊢
        rw [hunmoved.links]
        exact hopen
      subst hkept
      exact ⟨hstart, c, r, m, q, s', t', hrun, hr, hm, hpreserves, hq,
        hreloaded, hs', htold, hlink, hsecond, htable, ht'⟩
  · cases hviews

end Client
end SlotCluster
