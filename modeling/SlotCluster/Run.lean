/-!
# Runs

The systems of this library move in steps, and an event that nobody waits for is
refused.  A run takes a step for each of a sequence of events; it is there only
if no event is refused.

What every step keeps holds at the end of a run.  Where the events before a step
matter, too, the same is said of the run up to that step.
-/

namespace SlotCluster

variable {State Event : Type} {step : State -> Event -> Option State}
variable {s t r u : State} {event : Event} {events first second : List Event}

/-- The state after a sequence of events. -/
def run (step : State -> Event -> Option State) (s : State)
    (events : List Event) : Option State :=
  events.foldlM step s

theorem run_cons :
    run step s (event :: events) = some u <->
      exists t, step s event = some t ∧ run step t events = some u :=
  Option.bind_eq_some_iff

theorem run_cons_of_some (h : step s event = some t) :
    run step s (event :: events) = run step t events := by
  change (step s event).bind (fun t => run step t events) = _
  rw [h, Option.bind_some]

theorem run_append :
    run step s (first ++ second) =
      (run step s first).bind (fun t => run step t second) :=
  List.foldlM_append

theorem run_append_iff :
    run step s (first ++ second) = some u <->
      exists t, run step s first = some t ∧ run step t second = some u := by
  rw [run_append, Option.bind_eq_some_iff]

theorem run_concat :
    run step s (events ++ [event]) = some u <->
      exists t, run step s events = some t ∧ step t event = some u := by
  rw [run_append_iff]
  constructor
  · rintro ⟨t, ht, hlast⟩
    rcases run_cons.mp hlast with ⟨r, hr, hnil⟩
    cases hnil
    exact ⟨t, ht, hr⟩
  · rintro ⟨t, ht, hstep⟩
    exact ⟨t, ht, run_cons.mpr ⟨u, hstep, rfl⟩⟩

theorem run_split :
    run step s (first ++ event :: second) = some u <->
      exists t r, run step s first = some t ∧ step t event = some r ∧
        run step r second = some u := by
  rw [run_append_iff]
  constructor
  · rintro ⟨t, ht, hrest⟩
    rcases run_cons.mp hrest with ⟨r, hr, hsecond⟩
    exact ⟨t, r, ht, hr, hsecond⟩
  · rintro ⟨t, r, ht, hr, hsecond⟩
    exact ⟨t, ht, run_cons.mpr ⟨r, hr, hsecond⟩⟩

theorem run_after (h : run step s (first ++ event :: second) = some u)
    (ht : run step s first = some t) (hr : step t event = some r) :
    run step r second = some u := by
  rcases run_split.mp h with ⟨t', r', ht', hr', hsecond⟩
  cases ht.symm.trans ht'
  cases hr.symm.trans hr'
  exact hsecond

/-- What a step brings from the events before it to those after it is brought
from the beginning of a run to its end. -/
theorem run_extend {I : List Event -> State -> Prop}
    (hconcat : forall {front : List Event} {event : Event} {t u : State},
      run step s front = some t -> I front t -> step t event = some u ->
      I (front ++ [event]) u)
    (hfirst : run step s first = some t) (ht : I first t)
    (h : run step t second = some u) : I (first ++ second) u := by
  induction second generalizing first t with
  | nil =>
      cases h
      rw [List.append_nil]
      exact ht
  | cons event rest ih =>
      rcases run_cons.mp h with ⟨r, hr, hrest⟩
      rw [List.append_cons]
      exact ih (run_concat.mpr ⟨t, hfirst, hr⟩) (hconcat hfirst ht hr) hrest

@[elab_as_elim]
theorem run_history {I : List Event -> State -> Prop}
    (h : run step s events = some u) (hnil : I [] s)
    (hconcat : forall {front : List Event} {event : Event} {t u : State},
      run step s front = some t -> I front t -> step t event = some u ->
      I (front ++ [event]) u) :
    I events u :=
  run_extend hconcat (rfl : run step s [] = some s) hnil h

/-- What every step of the events of a run keeps, the run keeps. -/
@[elab_as_elim]
theorem run_keeps_of_mem {I : State -> Prop} (h : run step s events = some u)
    (hs : I s)
    (hstep : forall {t u : State} {event : Event},
      event ∈ events -> I t -> step t event = some u -> I u) :
    I u := by
  have hall : events ⊆ events -> I u := by
    refine run_history (I := fun front t => front ⊆ events -> I t) h
      (fun _ => hs) (fun _ ht hlast hfront => ?_)
    rcases List.append_subset.mp hfront with ⟨hbefore, hevent⟩
    exact hstep (hevent (List.mem_singleton_self _)) (ht hbefore) hlast
  exact hall (fun _ hmem => hmem)

@[elab_as_elim]
theorem run_keeps {I : State -> Prop} (h : run step s events = some u)
    (hs : I s)
    (hstep : forall {t u : State} {event : Event}, I t ->
      step t event = some u -> I u) : I u :=
  run_keeps_of_mem h hs (fun _ ht hlast => hstep ht hlast)

end SlotCluster
