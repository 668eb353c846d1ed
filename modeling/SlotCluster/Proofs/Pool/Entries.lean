import SlotCluster.Proofs.Pool.Outcomes
import SlotCluster.Proofs.Pool.Tables

/-!
# Entries of a pool

Only a call brings an entry: the one of the key that its target has in the table
of that moment.  All other events leave the entries as they are or take some
away.  So a node without an entry that the table does not know gets none until
the pool has a table that knows it.
-/

namespace SlotCluster
namespace Pool

variable {p q : Pool} {i : Nat} {t : Ticket}

/-! ## What takes entries away -/

@[simp]
theorem entries_closeHandle (p : Pool) (h : Nat) :
    (p.closeHandle h).entries = p.entries := by
  rcases p.closeHandle_eq h with ⟨links, heq, _⟩
  rw [heq]

theorem Change.entries (h : Change p q) : q.entries.Sublist p.entries := by
  cases h with
  | setPhase i phase => exact List.Sublist.refl _
  | removeEntry key => exact List.filter_sublist
  | modifyCell c _ => exact List.Sublist.refl _
  | closeHandle h => rw [entries_closeHandle]

theorem Changes.entries (h : Changes p q) : q.entries.Sublist p.entries := by
  induction h with
  | refl => exact List.Sublist.refl _
  | tail _ last ih => exact last.entries.trans ih

theorem entries_linked (p : Pool) (i : Nat) (t : Ticket) :
    (p.linked i t).entries.Sublist p.entries := by
  unfold linked
  dsimp only
  split
  · exact List.Sublist.refl _
  · exact (changes_conclude _ i t _).entries

theorem entries_accepted (p : Pool) (i : Nat) (t : Ticket) (l : Nat) :
    (p.accepted i t l).entries.Sublist p.entries :=
  (changes_conclude _ i t _).entries

theorem entries_beginCleanup (p : Pool) (chores : List Chore) (evicted : Nat) :
    (p.beginCleanup chores evicted).entries.Sublist p.entries :=
  (tidied_runChores p chores).1.entries

theorem entries_sweep (p : Pool) (table : Table) :
    (p.sweep table).entries.Sublist
      (p.entries.filter (fun e => !e.1.isStale table)) :=
  entries_beginCleanup _ _ _

theorem entries_drain (p : Pool) : p.drain.entries.Sublist p.entries :=
  entries_beginCleanup _ _ _

theorem entries_continueCleanup (p : Pool) (n : Nat) (k : Cleanup) :
    (p.continueCleanup n k).entries.Sublist p.entries :=
  (tidied_runChores p k.chores).1.entries

/-! ## What brings an entry -/

theorem mem_entries_claimCell {key : Target} {e : Target × Nat}
    (h : e ∈ (p.claimCell key).1.entries) : e ∈ p.entries ∨ e.1 = key := by
  have hfresh {r : Pool} (hr : r.entries ⊆ p.entries)
      (he : e ∈ r.entries ++ [(key, r.cells.length)]) :
      e ∈ p.entries ∨ e.1 = key := by
    rcases List.mem_append.mp he with hold | hnew
    · exact Or.inl (hr hold)
    · rw [List.mem_singleton.mp hnew]
      exact Or.inr rfl
  unfold claimCell at h
  split at h
  · exact hfresh (List.Subset.refl _) h
  · split at h
    · split at h
      · exact Or.inl h
      · exact hfresh (r := p.removeEntry key) (List.filter_subset_self _) h
    · exact Or.inl h

/-- A call for a target brings the entry of its key. -/
inductive Brings (p : Pool) (key : Target) : Event -> Prop where
  | request {target : Target} {endpoint : Endpoint}
      (openPool : p.isClosed = false)
      (resolved : target.resolve p.table.table p.fallback =
        .ok (key, endpoint)) : Brings p key (.request target)

theorem entries_of_step {event : Event} (h : p.step event = some q)
    {e : Target × Nat} (he : e ∈ q.entries) :
    e ∈ p.entries ∨ p.Brings e.1 event := by
  cases taken_of_step h with
  | request target =>
      unfold request at he
      split at he
      · exact Or.inl he
      · rename_i hopen
        split at he
        · exact Or.inl he
        · rename_i key endpoint hresolve
          rcases mem_entries_claimCell
            ((changes_enter (addCall _ _ _) _ _).entries.subset he) with
            hold | rfl
          · exact Or.inl hold
          · exact Or.inr (Brings.request (Bool.eq_false_iff.mpr hopen) hresolve)
  | resume _ resumed =>
      exact Or.inl ((changes_resume resumed).entries.subset he)
  | linked _ => exact Or.inl ((entries_linked p _ _).subset he)
  | notLinked _ => exact Or.inl ((changes_fail p _ _ _).entries.subset he)
  | accepted _ => exact Or.inl ((entries_accepted p _ _ _).subset he)
  | refused _ => exact Or.inl he
  | rejected _ => exact Or.inl ((changes_fail p _ _ _).entries.subset he)
  | discarded _ => exact Or.inl he
  | apply table => exact Or.inl he
  | sweep table =>
      exact Or.inl (List.mem_of_mem_filter ((entries_sweep p table).subset he))
  | drain => exact Or.inl ((entries_drain p).subset he)
  | cleaned _ => exact Or.inl ((entries_continueCleanup p _ _).subset he)
  | broke l => exact Or.inl he
  | closeHandle n =>
      rw [entries_closeHandle] at he
      exact Or.inl he
  | reordered perm leads => exact Or.inl (perm.mem_iff.mp he)

/-! ## Nodes without an entry -/

structure Absent (n : String) (p : Pool) : Prop where
  unknown : p.table.table.contains n = false
  free : forall {e : Target × Nat}, e ∈ p.entries -> e.1 ≠ .node n

namespace Absent

variable {n : String}

theorem step {event : Event} (hp : Absent n p) (h : p.step event = some q)
    (hnews : forall u, event.table? = some u -> u.table.contains n = false) :
    Absent n q where
  unknown := by
    rw [table_of_step h]
    cases hu : event.table? with
    | none => exact hp.unknown
    | some u => exact hnews u hu
  free := by
    intro e he hkey
    rcases entries_of_step h he with hold | hbrings
    · exact hp.free hold hkey
    · cases hbrings with
      | request _ resolved =>
          have hknown := knows_of_resolve resolved n hkey
          rw [hp.unknown] at hknown
          cases hknown

theorem run {events : List Event} (hp : Absent n p) (h : p.run events = some q)
    (hnews : forall u, .apply u ∈ events -> u.table.contains n = false) :
    Absent n q := by
  refine run_keeps_of_mem h hp ?_
  intro r s event hmem hr hstep
  apply hr.step hstep
  intro u hu
  cases event with
  | apply table =>
      cases hu
      exact hnews u hmem
  | _ => cases hu

theorem of_sweep {table : Table} (hunknown : p.table.table.contains n = false)
    (habsent : table.contains n = false) : Absent n (p.sweep table) where
  unknown := by
    rw [table_sweep]
    exact hunknown
  free := by
    intro e he hkey
    have hkept := (List.mem_filter.mp ((entries_sweep p table).subset he)).2
    simp [hkey, Target.isStale, habsent] at hkept

end Absent

end Pool
end SlotCluster
