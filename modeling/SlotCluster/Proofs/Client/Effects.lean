import SlotCluster.Proofs.Client.Handover
import SlotCluster.Proofs.Pool.Moves

/-!
# What parts of a step come to

Loads, refreshes, openings of sessions and visits to them, each as one change of
the client.
-/

namespace SlotCluster
namespace Client

variable {c : Client}

/-! ## Loads and refreshes that end -/

def placed (c : Client) (scheduler : Scheduler) (table : Table) : Client :=
  { c with scheduler, stamps := c.stamps + 1, table := some ⟨c.stamps, table⟩ }

/-- The client with a task that is to sweep every open session, unless the
client has been shut down. -/
def startSweep (c : Client) : Client :=
  if c.isActive then c.addTask (.spawned c.registry) else c

section Views

variable {purpose : Purpose} {views : Discovery.Views} {table : Table}

theorem loaded_of_none (task : Nat) (purpose : Purpose)
    (hviews : views.canonical? = none) :
    c.loaded task purpose views =
      c.release.setPhase task
        (.finished (.failed (.noViewAvailable c.seeds))) := by
  unfold loaded Discovery.Views.load
  rw [hviews]

theorem loaded_of_reload (task : Nat) (hviews : views.canonical? = some table) :
    exists scheduler, c.loaded task .reload views =
      ((c.placed scheduler table).updateSessions
        ⟨c.stamps, table⟩).release.setPhase task
        (.finished (.table ⟨c.stamps, table⟩)) := by
  rcases c.activateRefresh_eq with ⟨scheduler, hactive⟩
  refine ⟨scheduler, ?_⟩
  unfold loaded Discovery.Views.load
  rw [hviews, hactive]
  rfl

theorem loaded_of_first (task : Nat) (hpurpose : purpose ≠ .reload)
    (hviews : views.canonical? = some table) :
    exists scheduler,
      c.loaded task purpose views =
        (c.placed scheduler table).release.deliverTable task purpose
          ⟨c.stamps, table⟩ := by
  rcases c.activateRefresh_eq with ⟨scheduler, hactive⟩
  refine ⟨scheduler, ?_⟩
  unfold loaded Discovery.Views.load
  rw [hviews, hactive]
  cases purpose with
  | reload => exact absurd rfl hpurpose
  | _ => rfl

/-- A refresh whose view is no news only ends; one with news tells the sessions
and has them swept. -/
theorem refreshed_cases (c : Client) (task : Nat) (scheduled : Bool)
    (views : Discovery.Views) :
    exists scheduler,
      ((forall table, views.canonical? = some table -> c.isNews table = false) ∧
          c.refreshed task scheduled views =
            setPhase { c with scheduler } task (.finished (.refreshed false))) ∨
        exists table, views.canonical? = some table ∧ c.isNews table = true ∧
          c.refreshed task scheduled views =
            ((c.placed scheduler table).informSessions
              ⟨c.stamps, table⟩).startSweep.setPhase task
              (.finished (.refreshed true)) := by
  cases hviews : views.canonical? with
  | none =>
      unfold refreshed
      rw [hviews]
      cases scheduled with
      | true => exact ⟨_, Or.inl ⟨nofun, rfl⟩⟩
      | false => exact ⟨c.scheduler, Or.inl ⟨nofun, rfl⟩⟩
  | some table =>
      rcases refreshed_eq c task scheduled hviews with ⟨scheduler, heq⟩
      refine ⟨scheduler, ?_⟩
      cases hnews : c.isNews table with
      | true =>
          rw [if_pos hnews] at heq
          exact Or.inr ⟨table, rfl, hnews, heq⟩
      | false =>
          rw [hnews] at heq
          refine Or.inl ⟨?_, heq⟩
          intro other hother
          cases hother
          exact hnews

end Views

/-! ## Visits -/

theorem visitOne_eq (c : Client) (tour : Tour) (id : Nat) :
    exists sessions, (c.visitOne tour id).1 = { c with sessions } := by
  unfold visitOne
  split
  · exact ⟨c.sessions, rfl⟩
  · dsimp only
    split
    · exact c.modifySession_eq id _
    · split
      · exact ⟨c.sessions, rfl⟩
      · exact c.modifySession_eq id _

/-- A tour that has visited its first session goes on at once, waits for the
session's cleanup, or goes on because the cleanup has nothing to wait for. -/
theorem visit_cons_cases (c : Client) (task : Nat) (tour : Tour) (id : Nat)
    (rest : List Nat) :
    c.visit task tour (id :: rest) =
      (c.visitOne tour id).1.visit task tour rest ∨
      (exists cleanup, isCleaning (c.visitOne tour id).1 id cleanup = true ∧
        c.visit task tour (id :: rest) =
          (c.visitOne tour id).1.setPhase task
            (.touring tour id cleanup rest)) ∨
      c.visit task tour (id :: rest) =
        ((c.visitOne tour id).1.leave tour id).visit task tour rest := by
  rw [visit]
  split
  · rename_i r heq
    rw [heq]
    exact Or.inl rfl
  · rename_i r cleanup heq
    rw [heq]
    split
    · rename_i hcleaning
      exact Or.inr (Or.inl ⟨cleanup, hcleaning, rfl⟩)
    · exact Or.inr (Or.inr rfl)

theorem visit_eq (c : Client) (task : Nat) (tour : Tour) (ids : List Nat) :
    exists sessions registry tasks,
      c.visit task tour ids = { c with sessions, registry, tasks } := by
  induction ids generalizing c with
  | nil => exact ⟨c.sessions, c.registry, _, rfl⟩
  | cons id rest ih =>
      rcases visitOne_eq c tour id with ⟨sessions, hone⟩
      rcases visit_cons_cases c task tour id rest with
        heq | ⟨cleanup, _, heq⟩ | heq
      · rcases ih (c.visitOne tour id).1 with ⟨_, _, _, hrest⟩
        rw [heq, hrest, hone]
        exact ⟨_, _, _, rfl⟩
      · rw [heq, hone]
        exact ⟨_, _, _, rfl⟩
      · rcases ih ((c.visitOne tour id).1.leave tour id) with ⟨_, _, _, hrest⟩
        rw [heq, hrest, hone]
        cases tour <;> exact ⟨_, _, _, rfl⟩

/-! ## New sessions -/

/-- A session as it is opened.  A client that has been shut down closes it at
once. -/
def arrival (isActive : Bool) (table : Shared) (fallback : Endpoint)
    (timeout : Duration) : Session :=
  if isActive then
    Session.start table fallback timeout
  else
    (Session.start table fallback timeout).close

def enrolled (c : Client) : List Nat :=
  if c.isActive then c.registry ++ [c.sessions.length + 1]
  else c.registry.filter (fun r => r ≠ c.sessions.length + 1)

theorem openSession_of_inactive (hactive : c.isActive = false) (task : Nat)
    (table : Shared) :
    exists scheduler, c.openSession task table =
      setPhase
        { c with
          scheduler
          sessions :=
            c.sessions ++ [(Session.start table c.firstSeed c.timeout).close]
          registry :=
            (c.registry ++ [c.sessions.length + 1]).filter
              (fun r => r ≠ c.sessions.length + 1) }
        task (.finished (.failed .shutdown)) := by
  rcases c.activateRefresh_eq with ⟨scheduler, heq⟩
  refine ⟨scheduler, ?_⟩
  let s := Session.start table c.firstSeed c.timeout
  let r : Client :=
    { c with
      scheduler,
      sessions := c.sessions ++ [s]
      registry := c.registry ++ [c.sessions.length + 1] }
  have hopened : c.openSession task table =
      r.visit task .abandon [c.sessions.length + 1] := by
    unfold openSession
    rw [heq]
    exact if_neg (Bool.eq_false_iff.mp hactive)
  have hsession : r.session? (c.sessions.length + 1) = some s := by
    show (c.sessions ++ [s])[c.sessions.length]? = _
    rw [List.getElem?_concat_length]
  have hclose : r.modifySession (c.sessions.length + 1) Session.close =
      { r with sessions := c.sessions ++ [s.close] } := by
    show { r with
      sessions :=
        (c.sessions ++ [s]).modify c.sessions.length Session.close } = _
    rw [Pool.modify_last]
  have hvisit : r.visitOne .abandon (c.sessions.length + 1) =
      ({ r with sessions := c.sessions ++ [s.close] }, some 0) := by
    rw [visitOne, hsession, ← hclose]
    rfl
  -- The pool is new, so its end has nothing to wait for.
  have hclean : isCleaning { r with sessions := c.sessions ++ [s.close] }
      (c.sessions.length + 1) 0 = false := by
    have hclosed : session? { r with sessions := c.sessions ++ [s.close] }
        (c.sessions.length + 1) = some s.close := by
      show (c.sessions ++ [s.close])[c.sessions.length]? = _
      rw [List.getElem?_concat_length]
    rw [isCleaning, hclosed]
    rfl
  rw [hopened, visit, hvisit]
  simp only [hclean]
  rfl

theorem openSession_eq (c : Client) (task : Nat) (table : Shared) :
    exists scheduler, c.openSession task table =
      setPhase
        { c with
          scheduler
          sessions :=
            c.sessions ++ [arrival c.isActive table c.firstSeed c.timeout]
          registry := c.enrolled }
        task (.finished
          (if c.isActive then .session (c.sessions.length + 1)
            else .failed .shutdown)) := by
  by_cases hactive : c.isActive = true
  · rcases c.activateRefresh_eq with ⟨scheduler, heq⟩
    refine ⟨scheduler, ?_⟩
    rw [arrival, enrolled, if_pos hactive, if_pos hactive, if_pos hactive,
      openSession, heq]
    exact if_pos hactive
  · rcases openSession_of_inactive (Bool.eq_false_iff.mpr hactive) task
      table with ⟨scheduler, heq⟩
    refine ⟨scheduler, heq.trans ?_⟩
    rw [arrival, enrolled, if_neg hactive, if_neg hactive, if_neg hactive,
      List.filter_append]
    simp

end Client
end SlotCluster
