import SlotCluster.Client.Step

/-!
# Runs of a client

What every step keeps holds after every run.  What holds after a run has held
since the start, or some last step has brought it about.
-/

namespace SlotCluster
namespace Client

variable {c q : Client} {events : List Event}

/-! ## New clients -/

structure Fresh (c : Client) : Prop where
  active : c.isActive = true
  registry : c.registry = []
  tasks : c.tasks = []
  sessions : c.sessions = []

theorem fresh_of_start {settings : Settings}
    (h : start settings = .ok c) : c.Fresh := by
  unfold start at h
  split at h
  · cases h
  · cases h
    exact ⟨rfl, rfl, rfl, rfl⟩

theorem Fresh.phase?_eq_none (hc : c.Fresh) (i : Nat) : c.phase? i = none := by
  rw [phase?, hc.tasks]
  rfl

theorem Fresh.session?_eq_none (hc : c.Fresh) (id : Nat) :
    c.session? id = none := by
  cases id with
  | zero => rfl
  | succ n =>
      show c.sessions[n]? = none
      rw [hc.sessions]
      rfl

/-! ## What holds from some client on -/

def Always (P : Client -> Prop) (c : Client) (events : List Event) : Prop :=
  forall first m, first <+: events -> c.run first = some m -> P m

/-- A step in a run after which a property holds that did not hold before, and
holds for good. -/
def Since (P : Client -> Prop) (c : Client) (events : List Event)
    (event : Event) (b : Client) : Prop :=
  exists before after r, events = before ++ event :: after ∧
    c.run before = some b ∧ ¬ P b ∧ b.step event = some r ∧ r.Always P after

variable {P : Client -> Prop}

theorem always_nil : c.Always P [] <-> P c := by
  constructor
  · intro h
    exact h [] c List.nil_prefix rfl
  · intro hc first m hfirst hm
    rw [List.prefix_nil.mp hfirst] at hm
    cases hm
    exact hc

theorem always_cons {event : Event} (hstep : c.step event = some q) :
    c.Always P (event :: events) <-> P c ∧ q.Always P events := by
  constructor
  · intro h
    refine ⟨h [] c List.nil_prefix rfl, fun first m hfirst hm => ?_⟩
    exact h (event :: first) m (List.cons_prefix_cons.mpr ⟨rfl, hfirst⟩)
      (run_cons.mpr ⟨q, hstep, hm⟩)
  · intro h first m hfirst hm
    cases first with
    | nil =>
        cases hm
        exact h.1
    | cons head tail =>
        rcases List.cons_prefix_cons.mp hfirst with ⟨rfl, htail⟩
        rcases run_cons.mp hm with ⟨r, hr, hm⟩
        rw [hstep] at hr
        cases hr
        exact h.2 tail m htail hm

theorem Always.start (h : c.Always P events) : P c :=
  h [] c List.nil_prefix rfl

theorem Always.finish (h : c.Always P events)
    (hrun : c.run events = some q) : P q :=
  h events q (List.prefix_refl events) hrun

theorem Always.after {before after : List Event} {event : Event} {b r : Client}
    (h : c.Always P (before ++ event :: after)) (hb : c.run before = some b)
    (hr : b.step event = some r) : r.Always P after := by
  intro first m hfirst hm
  refine h (before ++ event :: first) m ?_ (run_split.mpr ⟨b, r, hb, hr, hm⟩)
  exact (List.prefix_append_right_inj _).mpr
    (List.cons_prefix_cons.mpr ⟨rfl, hfirst⟩)

/-- What holds at the end has held all the time, or since some step. -/
theorem since_of_run (hrun : c.run events = some q) (hq : P q) :
    c.Always P events ∨ exists event b, c.Since P events event b := by
  induction events generalizing c with
  | nil =>
      cases hrun
      exact Or.inl (always_nil.mpr hq)
  | cons event rest ih =>
      rcases run_cons.mp hrun with ⟨r, hr, hrest⟩
      -- Either the property holds from the second client on, and then the first
      -- decides, or the step that brings it about comes later, and it does so
      -- in the longer run, too.
      rcases ih hrest with halways | ⟨last, b, before, after, s, rfl, hb, hlast⟩
      · by_cases hc : P c
        · exact Or.inl ((always_cons hr).mpr ⟨hc, halways⟩)
        · exact Or.inr ⟨event, c, [], rest, r, rfl, rfl, hc, hr, halways⟩
      · exact Or.inr
          ⟨last, b, event :: before, after, s, rfl,
            run_cons.mpr ⟨r, hr, hb⟩, hlast⟩

end Client
end SlotCluster
