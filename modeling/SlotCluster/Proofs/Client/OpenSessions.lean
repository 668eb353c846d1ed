import SlotCluster.Proofs.Client.SessionSteps

/-!
# Open sessions and the tours that close them

As long as the client is active, every open session is in the registry.  Its end
empties the registry and starts a tour that closes one session after the other,
and from then on every session that is still open is ahead of that tour.
Sessions that are opened later are closed at once, so nobody is forgotten.
-/

namespace SlotCluster
namespace Client

variable {c q r : Client} {task id : Nat} {tour : Tour} {hand ids : List Nat}
  {event : Event}

/-! ## One visit -/

def Shut (c : Client) (id : Nat) : Prop :=
  forall s, c.session? id = some s -> s.isClosed = true

theorem Shut.carried {heard : Nat -> Shared -> Prop} (h : c.Shut id)
    (hq : Carried heard c q) : q.Shut id := by
  intro t ht
  rcases hq.back ht with ⟨s, hs, hgrown⟩
  exact hgrown.closed (h s hs)

theorem isClosed_close (s : Session) : s.close.isClosed = true := by
  unfold Session.close
  split
  · assumption
  · rfl

theorem shut_visitOne (htour : tour ≠ .sweep) (c : Client) (id : Nat) :
    (c.visitOne tour id).1.Shut id := by
  unfold visitOne
  cases hs : c.session? id with
  | none =>
      intro t ht
      rw [hs] at ht
      cases ht
  | some s =>
      have hclose : (if s.isClosed = true then (c, none) else
          (c.modifySession id Session.close,
              some s.pool.cleanups.length)).1.Shut id := by
        split
        · rename_i hclosed
          intro t ht
          rw [hs] at ht
          cases ht
          exact hclosed
        · intro t ht
          rw [session?_modifySession, if_pos rfl, hs] at ht
          cases ht
          exact isClosed_close s
      cases tour with
      | sweep => exact absurd rfl htour
      | _ => exact hclose

theorem session_of_isCleaning {cleanup : Nat}
    (h : c.isCleaning id cleanup = true) :
    exists s, c.session? id = some s := by
  unfold isCleaning at h
  split at h
  · rename_i s hs
    exact ⟨s, hs⟩
  · cases h

theorem registry_visitOne (c : Client) (tour : Tour) (id : Nat) :
    (c.visitOne tour id).1.registry = c.registry ∧
      (c.visitOne tour id).1.isActive = c.isActive := by
  rcases c.visitOne_eq tour id with ⟨sessions, heq⟩
  rw [heq]
  exact ⟨rfl, rfl⟩

theorem active_leave (c : Client) (tour : Tour) (id : Nat) :
    (c.leave tour id).isActive = c.isActive := by
  cases tour <;> rfl

theorem active_visit (c : Client) (task : Nat) (tour : Tour) (ids : List Nat) :
    (c.visit task tour ids).isActive = c.isActive := by
  rcases c.visit_eq task tour ids with ⟨sessions, registry, tasks, heq⟩
  rw [heq]

theorem active_shutdown (c : Client) : c.shutdown.isActive = false := by
  unfold shutdown
  dsimp only
  split
  · rw [active_visit]
    rfl
  · rename_i hactive
    exact Bool.eq_false_iff.mpr hactive

theorem Deed.inactive (h : Deed c event q) (hc : c.isActive = false) :
    q.isActive = false := by
  cases h with
  | calm _ _ active _ => exact active.trans hc
  | opens opens _ => exact opens.active.trans hc
  | begin _ => exact (active_visit ..).trans hc
  | toured _ _ _ =>
      rw [active_visit, active_leave]
      exact (registry_modifySession ..).2.trans hc
  | shutdown => exact active_shutdown c
  | closeSession id => exact (active_visit ..).trans hc

theorem inactive_of_run {events : List Event} (hrooted : c.Rooted)
    (hc : c.isActive = false) (h : c.run events = some q) :
    q.isActive = false :=
  hrooted.induction (P := fun m => m.isActive = false) hc h (fun hb hi hr =>
    (deed_of_step hb hr).inactive hi)

/-!
## Who closes the open sessions

What is left of a tour that closes everything is at hand before a visit, and in
the rest of a task while the task waits.
-/

def Tour.closes (tour : Tour) (ids : List Nat) : List Nat :=
  match tour with
  | .shutdown => ids
  | _ => []

def Gone (c : Client) (id : Nat) : Prop :=
  exists s, c.session? id = some s ∧ s.isClosed = true

theorem Gone.shut (h : c.Gone id) : c.Shut id := by
  rcases h with ⟨s, hs, hclosed⟩
  intro t ht
  rw [hs] at ht
  cases ht
  exact hclosed

theorem Gone.carried {heard : Nat -> Shared -> Prop} (h : c.Gone id)
    (hq : Carried heard c q) : q.Gone id := by
  rcases h with ⟨s, hs, hclosed⟩
  rcases hq.grown hs with ⟨t, ht, hgrown⟩
  exact ⟨t, ht, hgrown.closed hclosed⟩

/-- Every open session is in the registry, or is ahead of the tour that ends the
client: among those that are at hand or in the rest of a task. -/
structure Tracked (hand : List Nat) (c : Client) : Prop where
  listed : c.isActive = true ->
    forall {id : Nat}, ¬ c.Shut id -> id ∈ c.registry
  bare : c.isActive = false -> c.registry = []
  ahead : c.isActive = false ->
    forall {id : Nat}, ¬ c.Shut id ->
    id ∈ hand ∨ exists task tour session cleanup rest,
      c.phase? task = some (.touring tour session cleanup rest) ∧
      id ∈ tour.closes rest
  behind : forall {task session cleanup : Nat} {tour : Tour} {rest : List Nat},
    c.phase? task = some (.touring tour session cleanup rest) ->
    tour ≠ .sweep -> c.Gone session

namespace Tracked

theorem of_start {settings : Settings} (h : start settings = .ok c) :
    Tracked [] c := by
  have hfresh := fresh_of_start h
  constructor
  case listed =>
    intro _ id hopen
    refine absurd (fun s hs => ?_) hopen
    rw [hfresh.session?_eq_none] at hs
    cases hs
  case bare =>
    intro hactive
    rw [hfresh.active] at hactive
    cases hactive
  case ahead =>
    intro hactive
    rw [hfresh.active] at hactive
    cases hactive
  case behind =>
    intro task _ _ _ _ hphase
    rw [hfresh.phase?_eq_none] at hphase
    cases hphase

theorem carried {heard : Nat -> Shared -> Prop} {left : List Nat}
    (hc : Tracked hand c) (hq : Carried heard c q)
    (hregistry : q.registry.Perm c.registry) (hactive : q.isActive = c.isActive)
    (htours : forall {i : Nat} {phase : Phase}, phase.IsTouring ->
      (q.phase? i = some phase <-> c.phase? i = some phase))
    (hleft : forall {id : Nat}, id ∈ hand -> ¬ q.Shut id -> id ∈ left) :
    Tracked left q where
  listed hq' id hopen := by
    rw [hregistry.mem_iff]
    exact hc.listed (hactive.symm.trans hq')
      (fun hshut => hopen (hshut.carried hq))
  bare hq' := by
    have hbare : c.registry = [] := hc.bare (hactive.symm.trans hq')
    rw [hbare] at hregistry
    exact hregistry.eq_nil
  ahead hq' id hopen := by
    rcases hc.ahead (hactive.symm.trans hq')
        (fun hshut => hopen (hshut.carried hq)) with
      hhand | ⟨task, tour, session, cleanup, rest, hphase, hid⟩
    · exact Or.inl (hleft hhand hopen)
    · have hphase' := (htours ⟨tour, session, cleanup, rest⟩).mpr hphase
      exact Or.inr ⟨task, tour, session, cleanup, rest, hphase', hid⟩
  behind hphase htour :=
    (hc.behind ((htours ⟨_, _, _, _⟩).mp hphase) htour).carried hq

theorem setPhase {old phase : Phase} (hc : Tracked hand c)
    (hold : c.phase? task = some old) (hnone : ¬ old.IsTouring)
    (hphase : ¬ phase.IsTouring) : Tracked hand (c.setPhase task phase) := by
  have hcarried : Carried (fun _ _ => True) c (c.setPhase task phase) :=
    Carried.of_sessions rfl
  apply hc.carried hcarried .rfl rfl
  · intro i new htour
    rw [phase?_setPhase]
    split
    · rename_i heq
      subst heq
      rw [hold]
      constructor
      · intro h
        cases h
        exact absurd htour hphase
      · intro h
        cases h
        exact absurd htour hnone
    · exact Iff.rfl
  · exact fun hid _ => hid

theorem addTask {phase : Phase} (hc : Tracked hand c)
    (hphase : ¬ phase.IsTouring) : Tracked hand (c.addTask phase) := by
  have hcarried : Carried (fun _ _ => True) c (c.addTask phase) :=
    Carried.of_sessions rfl
  apply hc.carried hcarried .rfl rfl
  · intro i new htour
    rw [phase?_addTask]
    split
    · rename_i heq
      constructor
      · intro h
        cases h
        exact absurd htour hphase
      · intro h
        exact absurd (phase?_lt h) (Nat.not_lt.mpr (Nat.le_of_eq heq.symm))
    · exact Iff.rfl
  · exact fun hid _ => hid

theorem wait {old : Phase} {cleanup : Nat} (hc : Tracked (tour.closes ids) c)
    (hold : c.phase? task = some old) (hnone : ¬ old.IsTouring)
    (hgone : tour ≠ .sweep -> c.Gone id) :
    Tracked [] (c.setPhase task (.touring tour id cleanup ids)) where
  listed := hc.listed
  bare := hc.bare
  ahead hactive other hopen := by
    rcases hc.ahead hactive hopen with
      hhand | ⟨i, tour', session, cleanup', rest, hphase, hid⟩
    · exact Or.inr
        ⟨task, tour, id, cleanup, ids, phase?_setPhase_self _ hold, hhand⟩
    · refine Or.inr ⟨i, tour', session, cleanup', rest, ?_, hid⟩
      rw [phase?_setPhase, if_neg]
      · exact hphase
      · intro heq
        subst heq
        rw [hold] at hphase
        cases hphase
        exact hnone ⟨_, _, _, _⟩
  behind := by
    intro i session cleanup' tour' rest hphase htour
    rcases phase_of_setPhase hphase with ⟨hbefore, _⟩ | ⟨hnew, _⟩
    · exact hc.behind hbefore htour
    · cases hnew
      exact hgone htour

theorem leave (hc : Tracked hand c) (hshut : tour ≠ .sweep -> c.Shut id) :
    Tracked hand (c.leave tour id) := by
  cases tour with
  | sweep => exact hc
  | _ =>
      exact
        { listed := by
            intro hactive other hopen
            have hne : other ≠ id := by
              intro heq
              subst heq
              exact hopen (hshut nofun)
            exact List.mem_filter.mpr
              ⟨hc.listed hactive hopen, by simpa using hne⟩
          bare := by
            intro hactive
            show List.filter _ c.registry = []
            rw [hc.bare hactive]
            rfl
          ahead := hc.ahead
          behind := hc.behind }

theorem visitOne (hc : Tracked (tour.closes (id :: ids)) c) :
    Tracked (tour.closes ids) (c.visitOne tour id).1 := by
  rcases registry_visitOne c tour id with ⟨hregistry, hactive⟩
  have htasks := tasks_visitOne c tour id
  have hcarried : Carried (fun _ _ => True) c (c.visitOne tour id).1 :=
    carried_visitOne c tour id
  apply hc.carried hcarried (.of_eq hregistry) hactive
  · intro i phase _
    rw [phase?_of_tasks htasks]
  · intro other hother hopen
    cases tour with
    | shutdown =>
        rcases List.mem_cons.mp hother with heq | hrest
        · subst heq
          have hcloses : Tour.shutdown ≠ .sweep := nofun
          exact absurd (shut_visitOne hcloses c other) hopen
        · exact hrest
    | _ => cases hother

/-- A visit leaves nobody behind: who is not closed when it waits is in its
rest. -/
theorem visit {old : Phase} (hc : Tracked (tour.closes ids) c)
    (hold : c.phase? task = some old) (hnone : ¬ old.IsTouring) :
    Tracked [] (c.visit task tour ids) := by
  induction ids generalizing c with
  | nil =>
      have hnil : tour.closes [] = [] := by cases tour <;> rfl
      rw [hnil] at hc
      exact hc.setPhase hold hnone nofun
  | cons id rest ih =>
      -- Whoever is at hand is visited now, or is handed over to the task
      -- together with the rest.
      have hone := hc.visitOne
      have hshut : tour ≠ .sweep -> (c.visitOne tour id).1.Shut id :=
        fun htour => shut_visitOne htour c id
      have hphase : (c.visitOne tour id).1.phase? task = some old :=
        (phase?_of_tasks (tasks_visitOne c tour id) task).trans hold
      rcases visit_cons_cases c task tour id rest with
        heq | ⟨cleanup, hcleaning, heq⟩ | heq
      · rw [heq]
        exact ih hone hphase
      · rw [heq]
        refine hone.wait hphase hnone (fun htour => ?_)
        rcases session_of_isCleaning hcleaning with ⟨s, hs⟩
        exact ⟨s, hs, hshut htour s hs⟩
      · rw [heq]
        exact ih (hone.leave hshut)
          ((phase?_of_tasks (tasks_leave _ tour id) task).trans hphase)

theorem shutdown (hc : Tracked [] c) : Tracked [] c.shutdown := by
  unfold Client.shutdown
  dsimp only
  split
  · rename_i hactive
    let r : Client :=
      { c with
        isActive := false
        scheduler := c.scheduler.cancel
        registry := [] }
    -- Whoever is open is in the registry, which is what the tour sets out to
    -- visit.
    have hclosing : Tracked c.registry r.abandonScheduled :=
      { listed := fun h => by cases h
        bare := fun _ => rfl
        ahead := fun _ _ hopen => Or.inl (hc.listed hactive hopen)
        behind :=
          fun hphase htour =>
            hc.behind (phase?_of_abandonScheduled hphase (fun _ => nofun))
              htour }
    have hadded :
        Tracked (Tour.closes .shutdown c.registry)
          (r.abandonScheduled.addTask (.spawned [])) :=
      hclosing.addTask nofun
    have hspawned :
        (r.abandonScheduled.addTask (.spawned [])).phase? c.tasks.length =
          some (.spawned []) := by
      rw [phase?_addTask, if_pos]
      exact (List.length_map ..).symm
    exact hadded.visit hspawned nofun
  · exact hc.addTask nofun

theorem resume {cleanup : Nat} (hc : Tracked [] c)
    (hphase : c.phase? task = some (.touring tour id cleanup ids)) :
    Tracked (tour.closes ids) (c.setPhase task (.finished .done)) where
  listed := hc.listed
  bare := hc.bare
  ahead hactive other hopen := by
    rcases hc.ahead hactive hopen with
      hhand | ⟨i, tour', session, cleanup', rest, hi, hid⟩
    · cases hhand
    · by_cases heq : task = i
      · subst heq
        rw [hphase] at hi
        cases hi
        exact Or.inl hid
      · refine Or.inr ⟨i, tour', session, cleanup', rest, ?_, hid⟩
        simp [heq]
        exact hi
  behind := by
    intro i session cleanup' tour' rest hi htour
    rcases phase_of_setPhase hi with ⟨hbefore, _⟩ | ⟨hnew, _⟩
    · exact hc.behind hbefore htour
    · cases hnew

theorem toured {cleanup : Nat} {s : Session} {pool : Pool} (hc : Tracked [] c)
    (hphase : c.phase? task = some (.touring tour id cleanup ids))
    (hs : c.session? id = some s)
    (hstep : s.pool.step (.cleaned cleanup) = some pool) :
    Tracked []
      ((((c.modifySession id (fun s => s.withPool pool)).setPhase task
        (.finished .done)).leave tour id).visit task tour ids) := by
  let r := c.modifySession id (fun s => s.withPool pool)
  have hcarried : Carried (fun _ _ => True) c r := carried_cleaned hs hstep
  have hphases : forall i, r.phase? i = c.phase? i :=
    phase?_of_tasks (tasks_modifySession ..)
  rcases registry_modifySession c id (fun s => s.withPool pool) with
    ⟨hregistry, hactive⟩
  have hr : Tracked [] r :=
    hc.carried hcarried (.of_eq hregistry) hactive (fun _ => by rw [hphases])
      (fun hid _ => hid)
  have hwaits : r.phase? task = some (.touring tour id cleanup ids) :=
    (hphases task).trans hphase
  have hleft :
      Tracked (tour.closes ids)
        ((r.setPhase task (.finished .done)).leave tour id) :=
    (hr.resume hwaits).leave (fun htour => (hr.behind hwaits htour).shut)
  have hended :
      ((r.setPhase task (.finished .done)).leave tour id).phase? task =
        some (.finished .done) := by
    rw [phase?_of_tasks (tasks_leave _ tour id)]
    exact phase?_setPhase_self _ hwaits
  exact hleft.visit hended (Phase.IsTouring.inner.finished .done)

theorem opens (hc : Tracked [] c) (hq : Opens c q) (htours : SameTours c q) :
    Tracked [] q := by
  rcases hq.sessions with ⟨table, fallback, timeout, _, hsessions⟩
  have hold {id : Nat} (hne : id ≠ c.sessions.length + 1) :
      q.session? id = c.session? id := by
    rw [session?_of_append hsessions, if_neg hne]
  have hlast : q.session? (c.sessions.length + 1) =
      some (arrival c.isActive table fallback timeout) := by
    rw [session?_of_append hsessions, if_pos rfl]
  have hback {id : Nat} (hne : id ≠ c.sessions.length + 1)
      (hopen : ¬ q.Shut id) : ¬ c.Shut id := by
    intro hshut
    apply hopen
    intro s hs
    rw [hold hne] at hs
    exact hshut s hs
  constructor
  case listed =>
    intro hactive id hopen
    rw [hq.active] at hactive
    rw [hq.registry, enrolled, if_pos hactive]
    by_cases hid : id = c.sessions.length + 1
    · rw [hid]
      exact List.mem_append_right _ (List.mem_singleton_self _)
    · exact List.mem_append_left _ (hc.listed hactive (hback hid hopen))
  case bare =>
    intro hactive
    rw [hq.active] at hactive
    rw [hq.registry, enrolled, if_neg (Bool.eq_false_iff.mp hactive),
      hc.bare hactive]
    rfl
  case ahead =>
    intro hactive id hopen
    rw [hq.active] at hactive
    -- A session that is opened after the end is closed at once, so nobody has
    -- to visit it.
    have hid : id ≠ c.sessions.length + 1 := by
      intro heq
      subst heq
      apply hopen
      intro s hs
      rw [hlast] at hs
      cases hs
      rw [arrival, if_neg (Bool.eq_false_iff.mp hactive)]
      exact isClosed_close _
    rcases hc.ahead hactive (hback hid hopen) with
      hhand | ⟨task, tour, session, cleanup, rest, hphase, hrest⟩
    · exact Or.inl hhand
    · exact Or.inr
        ⟨task, tour, session, cleanup, rest,
          htours.kept (Phase.IsTour.touring _ _ _ _) hphase, hrest⟩
  case behind =>
    intro task session cleanup tour rest hphase htour
    rcases hc.behind (htours.back ⟨_, _, _, _⟩ hphase) htour with
      ⟨s, hs, hclosed⟩
    refine ⟨s, ?_, hclosed⟩
    rw [hold]
    · exact hs
    · intro heq
      rw [heq] at hs
      change c.sessions[c.sessions.length]? = some s at hs
      rw [List.getElem?_eq_none (Nat.le_refl _)] at hs
      cases hs

theorem deed (hc : Tracked [] c) (h : Deed c event q) : Tracked [] q := by
  cases h with
  | calm sessions registry active tours =>
      refine hc.carried sessions registry active ?_ (fun hid _ => hid)
      intro i phase htour
      cases htour
      exact ⟨tours.back ⟨_, _, _, _⟩, tours.kept (Phase.IsTour.touring _ _ _ _)⟩
  | opens opens tours => exact hc.opens opens tours
  | @begin task sessions phase =>
      have hhand : Tracked (Tour.closes .sweep sessions) c := hc
      exact hhand.visit phase nofun
  | toured phase session stepped => exact hc.toured phase session stepped
  | shutdown => exact hc.shutdown
  | closeSession id =>
      have hadded :
          Tracked (Tour.closes .close [id]) (c.addTask (.spawned [])) :=
        hc.addTask nofun
      have hspawned : (c.addTask (.spawned [])).phase? c.tasks.length =
          some (.spawned []) := by
        simp
      exact hadded.visit hspawned nofun

theorem run {events : List Event} (hrooted : c.Rooted) (hc : Tracked [] c)
    (h : c.run events = some q) : Tracked [] q :=
  hrooted.induction (P := Tracked []) hc h
    (fun hb hi hr => hi.deed (deed_of_step hb hr))

end Tracked

end Client
end SlotCluster
