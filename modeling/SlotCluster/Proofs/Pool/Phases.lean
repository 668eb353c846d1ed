import SlotCluster.Proofs.Pool.Outcomes

/-!
# The life of a call

How the phase of a call after a step follows on its phase before the step.  A
call that has its result keeps it, a call queues up in its first step or never,
and the link on which it waits for the answer to its credential is the one that
was opened for it.
-/

namespace SlotCluster
namespace Pool

variable {keyAt : Nat -> Target} {p q : Pool} {event : Event} {i : Nat}
  {t : Ticket}

inductive Follows (p q : Pool) : Option Phase -> Option Phase -> Prop where
  | stays (phase : Option Phase) : Follows p q phase phase
  | born {phase : Phase} (calm : phase.handshake? = none) :
      Follows p q none (some phase)
  | promoted {t : Ticket} :
      Follows p q (some (.queued t)) (some (.connecting t))
  | dialed {t : Ticket} (fresh : q.isLinkOpen p.links.length = true) :
      Follows p q (some (.connecting t))
        (some (.authenticating t p.links.length))
  | refused {t : Ticket} {l : Nat} {e : ClusterError} :
      Follows p q (some (.authenticating t l)) (some (.rejecting t l e))
  | concluded {old new : Phase} {t : Ticket} {h : Nat}
      (ticket : old.ticket? = some t) (verdict : Verdict p t h new) :
      Follows p q (some old) (some new)
  | failed {old : Phase} {t : Ticket} {e : ClusterError}
      (opening : old.opening? = some t) :
      Follows p q (some old) (some (.finished (.error e)))
  | closed {h : Nat} {e : ClusterError} :
      Follows p q (some (.discarding h e)) (some (.finished (.error e)))

theorem phase?_length (p : Pool) : p.phase? p.calls.length = none := by
  unfold phase?
  rw [List.getElem?_eq_none (Nat.le_refl _)]
  rfl

theorem phase?_of_begins {target : Target} (h : Begins p target q) (i : Nat) :
    q.phase? i = p.phase? i ∨ i = p.calls.length ∧
      exists new, q.phase? i = some new ∧ new.handshake? = none := by
  have hadded {new : Phase} (hcalm : new.handshake? = none)
      (hphase : q.phase? i =
        if i = p.calls.length then some new else p.phase? i) :
      q.phase? i = p.phase? i ∨ i = p.calls.length ∧
        exists new, q.phase? i = some new ∧ new.handshake? = none := by
    by_cases hi : i = p.calls.length
    · rw [if_pos hi] at hphase
      exact Or.inr ⟨hi, new, hphase, hcalm⟩
    · rw [if_neg hi] at hphase
      exact Or.inl hphase
  cases h with
  | shut closed => exact hadded rfl (phase?_addCall p target _ i)
  | unresolved unknown => exact hadded rfl (phase?_addCall p target _ i)
  | @found t free => exact hadded rfl (phase?_openCell p target t i)
  | @replaced t c h resolve entry filled dead =>
      exact hadded rfl (phase?_openCell (p.removeEntry t.key) target t i)
  | @waits t entry => exact hadded rfl (phase?_addCall p target (.queued t) i)
  | @shares t h _ entry knows done =>
      have hcalm : (Phase.finished (.ok h)).handshake? = none := rfl
      apply hadded hcalm
      by_cases hi : p.calls.length = i
      · rw [if_pos hi.symm, ← hi]
        exact done.phase
      · rw [if_neg (Ne.symm hi), done.others hi, phase?_addCall,
          if_neg (Ne.symm hi)]

theorem Concludes.ticket? {h : Nat} (hc : p.Concludes i t event h) :
    exists old, p.phase? i = some old ∧ old.ticket? = some t := by
  cases hc with
  | resume phase _ => exact ⟨_, phase, rfl⟩
  | linked phase _ => exact ⟨_, phase, rfl⟩
  | accepted phase => exact ⟨_, phase, rfl⟩

theorem follows_of_step (hs : Seated keyAt p) (hstep : p.step event = some q)
    (i : Nat) : Follows p q (p.phase? i) (q.phase? i) := by
  have hone {j : Nat} {old new : Phase} (hold : p.phase? j = some old)
      (hfollows : Follows p q (some old) (some new))
      (hphase : q.phase? i = if j = i then some new else p.phase? i) :
      Follows p q (p.phase? i) (q.phase? i) := by
    rw [hphase]
    by_cases hj : j = i
    · rw [if_pos hj, ← hj, hold]
      exact hfollows
    · rw [if_neg hj]
      exact Follows.stays _
  have hframe (hcalls : q.calls = p.calls) :
      Follows p q (p.phase? i) (q.phase? i) := by
    unfold phase?
    rw [hcalls]
    exact Follows.stays _
  cases deed_of_step hs hstep with
  | request begins =>
      rcases phase?_of_begins begins i with hsame | ⟨hi, new, hnew, hcalm⟩
      · rw [hsame]
        exact Follows.stays _
      · rw [hi, phase?_length, ← hi, hnew]
        exact Follows.born hcalm
  | @conclude _ j h t new _ concludes done =>
      rcases concludes.ticket? with ⟨old, hold, hticket⟩
      apply hone hold (Follows.concluded hticket done.verdict)
      by_cases hj : j = i
      · rw [if_pos hj, ← hj]
        exact done.phase
      · rw [if_neg hj]
        exact done.others hj
  | promote phase =>
      exact hone phase Follows.promoted (phase?_setPhase_of_some _ phase i)
  | @dial j t phase =>
      have hfresh : (p.dialLink j t).isLinkOpen p.links.length = true := by
        rw [isLinkOpen_dialLink, decide_eq_true rfl, Bool.or_true]
      exact hone phase (Follows.dialed hfresh) (phase?_dialLink phase i)
  | notLinked phase =>
      exact hone phase (Follows.failed rfl)
        (phase?_fail_of_opening hs _ phase rfl i)
  | @refuse j l t e phase =>
      have hphase : (p.closeLink l).phase? j = some (.authenticating t l) :=
        phase
      exact hone phase Follows.refused
        (phase?_setPhase_of_some (p := p.closeLink l) _ phase i)
  | rejected phase =>
      exact hone phase (Follows.failed rfl)
        (phase?_fail_of_opening hs _ phase rfl i)
  | finish phase =>
      exact hone phase Follows.closed (phase?_setPhase_of_some _ phase i)
  | clean sweeps calls => exact hframe calls
  | aside calls entries => exact hframe calls

/-! ## Steps and runs -/

theorem finished_of_step (hs : Seated keyAt p) (hstep : p.step event = some q)
    {result : Except ClusterError Nat}
    (hi : p.phase? i = some (.finished result)) :
    q.phase? i = some (.finished result) := by
  have hfollows := follows_of_step hs hstep i
  rw [hi] at hfollows
  generalize q.phase? i = new at hfollows
  cases hfollows with
  | stays _ => rfl
  | concluded ticket _ => cases ticket
  | failed opening => cases opening

theorem finished_of_run (hp : Sound p) {events : List Event}
    (hrun : p.run events = some q) {result : Except ClusterError Nat}
    (hi : p.phase? i = some (.finished result)) :
    q.phase? i = some (.finished result) := by
  refine hp.induction (I := fun p => p.phase? i = some (.finished result)) hi
    hrun (fun hp hi hr => ?_)
  rcases hp with ⟨keyAt, hs, _⟩
  exact finished_of_step hs hr hi

theorem unqueued_of_step (hs : Seated keyAt p) (hstep : p.step event = some q)
    {old : Phase} (hi : p.phase? i = some old)
    (hnot : forall t, old ≠ .queued t) :
    exists new, q.phase? i = some new ∧ forall t, new ≠ .queued t := by
  have hfollows := follows_of_step hs hstep i
  rw [hi] at hfollows
  generalize q.phase? i = new at hfollows
  cases hfollows with
  | stays _ => exact ⟨old, rfl, hnot⟩
  | promoted => exact ⟨_, rfl, nofun⟩
  | dialed _ => exact ⟨_, rfl, nofun⟩
  | refused => exact ⟨_, rfl, nofun⟩
  | concluded _ verdict =>
      refine ⟨_, rfl, ?_⟩
      intro t ht
      rw [ht] at verdict
      cases verdict
  | failed _ => exact ⟨_, rfl, nofun⟩
  | closed => exact ⟨_, rfl, nofun⟩

theorem unqueued_of_run (hp : Sound p) {events : List Event}
    (hrun : p.run events = some q) {old : Phase} (hi : p.phase? i = some old)
    (hnot : forall t, old ≠ .queued t) :
    exists new, q.phase? i = some new ∧ forall t, new ≠ .queued t := by
  refine hp.induction
    (I :=
      fun p => exists new, p.phase? i = some new ∧ forall t, new ≠ .queued t)
    ⟨old, hi, hnot⟩ hrun (fun hp hi hr => ?_)
  rcases hp with ⟨keyAt, hs, _⟩
  rcases hi with ⟨old, hold, hnot⟩
  exact unqueued_of_step hs hr hold hnot

/-- A call that waits for the answer to its credential after a step has waited
before it, or the link on which it waits has just been opened. -/
theorem handshake_of_step (hs : Seated keyAt p) (hstep : p.step event = some q)
    {l : Nat} (hi : q.phase? i = some (.authenticating t l)) :
    p.phase? i = some (.authenticating t l) ∨ q.isLinkOpen l = true := by
  have hfollows := follows_of_step hs hstep i
  rw [hi] at hfollows
  generalize hold : p.phase? i = old at hfollows
  cases hfollows with
  | stays _ => exact Or.inl rfl
  | born calm => cases calm
  | dialed fresh => exact Or.inr fresh
  | concluded _ verdict => cases verdict

end Pool
end SlotCluster
