import SlotCluster.Pool.Step

/-!
# Events that a pool takes

An event that a pool does not refuse has found the call or the cleanup that it
is about in the right phase.  `Taken` names that phase and the pool after the
event; whatever holds of every step is shown by its cases.
-/

namespace SlotCluster
namespace Pool

inductive Taken (p : Pool) : Event -> Pool -> Prop where
  | request (target : Target) : Taken p (.request target) (p.request target)
  | resume {i : Nat} {t : Ticket} {q : Pool}
      (phase : p.phase? i = some (.queued t))
      (resumed : p.resume i t = some q) : Taken p (.resume i) q
  | linked {i : Nat} {t : Ticket} (phase : p.phase? i = some (.connecting t)) :
      Taken p (.linked i) (p.linked i t)
  | notLinked {i : Nat} {t : Ticket} {error : ClusterError}
      (phase : p.phase? i = some (.connecting t)) :
      Taken p (.notLinked i error) (p.fail i t error)
  | accepted {i l : Nat} {t : Ticket}
      (phase : p.phase? i = some (.authenticating t l)) :
      Taken p (.accepted i) (p.accepted i t l)
  | refused {i l : Nat} {t : Ticket} {error : ClusterError}
      (phase : p.phase? i = some (.authenticating t l)) :
      Taken p (.refused i error) (p.refused i t l error)
  | rejected {i l : Nat} {t : Ticket} {error : ClusterError}
      (phase : p.phase? i = some (.rejecting t l error)) :
      Taken p (.closed i) (p.fail i t error)
  | discarded {i h : Nat} {error : ClusterError}
      (phase : p.phase? i = some (.discarding h error)) :
      Taken p (.closed i) (p.setPhase i (.finished (.error error)))
  | apply (table : Shared) : Taken p (.apply table) (p.apply table)
  | sweep (table : Table) : Taken p (.sweep table) (p.sweep table)
  | drain : Taken p .drain p.drain
  | cleaned {n : Nat} {c : Cleanup} (found : p.cleanups[n]? = some c) :
      Taken p (.cleaned n) (p.continueCleanup n c)
  | broke (l : Nat) :
      Taken p (.broke l)
        { p with
          links :=
            p.links.modify l (fun link => { link with isOpen := false }) }
  | closeHandle (n : Nat) : Taken p (.closeHandle n) (p.closeHandle n)
  | reordered {entries : List (Target × Nat)} (perm : entries.Perm p.entries)
      (leads : forall key, entry? { p with entries } key = p.entry? key) :
      Taken p (.reordered entries) { p with entries }

theorem reorder_eq_some {p q : Pool} {entries : List (Target × Nat)}
    (h : p.reorder entries = some q) :
    q = { p with entries } ∧ entries.Perm p.entries ∧
      forall key, entry? { p with entries } key = p.entry? key := by
  unfold reorder at h
  dsimp only at h
  split at h
  · rename_i hsame
    cases h
    simp only [Bool.and_eq_true, List.isPerm_iff, List.all_eq_true,
      decide_eq_true_eq] at hsame
    rcases hsame with ⟨hperm, hleads⟩
    refine ⟨rfl, hperm, fun key => ?_⟩
    by_cases hkey : exists e, e ∈ entries ∧ e.1 = key
    · rcases hkey with ⟨e, he, rfl⟩
      exact hleads e he
    -- A key without an entry leads nowhere, in any order.
    · have hnone (l : List (Target × Nat)) (hl : l.Perm entries) :
          l.find? (fun e => e.1 = key) = none := by
        rw [List.find?_eq_none]
        intro e he hfound
        exact hkey ⟨e, hl.mem_iff.mp he, of_decide_eq_true hfound⟩
      unfold entry?
      rw [hnone entries (List.Perm.refl _), hnone p.entries hperm.symm]
  · cases h

theorem taken_of_step {p q : Pool} {event : Event} (h : p.step event = some q) :
    Taken p event q := by
  cases event with
  | request target =>
      cases h
      exact Taken.request target
  | resume i =>
      simp only [step] at h
      split at h
      · rename_i t hphase
        exact Taken.resume hphase h
      · cases h
  | linked i =>
      simp only [step] at h
      split at h
      · rename_i t hphase
        cases h
        exact Taken.linked hphase
      · cases h
  | notLinked i error =>
      simp only [step] at h
      split at h
      · rename_i t hphase
        cases h
        exact Taken.notLinked hphase
      · cases h
  | accepted i =>
      simp only [step] at h
      split at h
      · rename_i t l hphase
        cases h
        exact Taken.accepted hphase
      · cases h
  | refused i error =>
      simp only [step] at h
      split at h
      · rename_i t l hphase
        cases h
        exact Taken.refused hphase
      · cases h
  | closed i =>
      simp only [step] at h
      split at h
      · rename_i t l error hphase
        cases h
        exact Taken.rejected hphase
      · rename_i n error hphase
        cases h
        exact Taken.discarded hphase
      · cases h
  | apply table =>
      cases h
      exact Taken.apply table
  | sweep table =>
      cases h
      exact Taken.sweep table
  | drain =>
      cases h
      exact Taken.drain
  | cleaned n =>
      simp only [step] at h
      split at h
      · rename_i c hfound
        split at h
        · cases h
          exact Taken.cleaned hfound
        · cases h
      · cases h
  | broke l =>
      simp only [step] at h
      split at h
      · cases h
        exact Taken.broke l
      · cases h
  | closeHandle n =>
      cases h
      exact Taken.closeHandle n
  | reordered entries =>
      rcases reorder_eq_some h with ⟨rfl, hperm, hleads⟩
      exact Taken.reordered hperm hleads

end Pool
end SlotCluster
