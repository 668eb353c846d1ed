import Mathlib.Logic.Relation
import SlotCluster.Pool.Step

/-!
# Changes that calls make

A call that looks at its cell changes little: the phase of a call, an entry that
goes away, the owner and the queue of a cell, and a connection that closes.  A
call that begins brings itself and perhaps a new cell as well.  So whatever is
kept by these few changes is kept by calls, whichever way they take.

The changes say nothing about when they are made, unlike the moves of a pool, so
they are there in every pool.
-/

namespace SlotCluster
namespace Pool

variable {p q : Pool} {t : Ticket}

/-- A change of what is there. -/
inductive Change : Pool -> Pool -> Prop where
  | setPhase (p : Pool) (i : Nat) (phase : Phase) :
      Change p (p.setPhase i phase)
  | removeEntry (p : Pool) (key : Target) : Change p (p.removeEntry key)
  | modifyCell (p : Pool) (c : Nat) {f : Cell -> Cell}
      (same : forall cell, (f cell).handle = cell.handle) :
      Change p (p.modifyCell c f)
  | closeHandle (p : Pool) (h : Nat) : Change p (p.closeHandle h)

abbrev Changes : Pool -> Pool -> Prop :=
  Relation.ReflTransGen Change

/-- A change, or something new. -/
inductive Edit : Pool -> Pool -> Prop where
  | change {p q : Pool} (change : Change p q) : Edit p q
  | addCall (p : Pool) (target : Target) (phase : Phase) :
      Edit p (p.addCall target phase)
  | addCell (p : Pool) (key : Target) :
      Edit p { p with
        entries := p.entries ++ [(key, p.cells.length)]
        cells := p.cells ++ [{}] }

abbrev Edits : Pool -> Pool -> Prop :=
  Relation.ReflTransGen Edit

theorem Changes.edits (h : Changes p q) : Edits p q :=
  Relation.ReflTransGen.mono (fun _ _ => Edit.change) _ _ h

/-! ## Calls at their cells -/

theorem changes_discard (p : Pool) (i h : Nat) (error : ClusterError) :
    Changes p (p.discard i h error) :=
  Relation.ReflTransGen.head (Change.closeHandle p h)
    (Relation.ReflTransGen.single (Change.setPhase _ i _))

theorem changes_conclude (p : Pool) (i : Nat) (t : Ticket) (h : Nat) :
    Changes p (p.conclude i t h) := by
  unfold conclude
  split
  · exact changes_discard p i h _
  · split
    · split
      · exact Relation.ReflTransGen.head (Change.removeEntry p _)
          (changes_discard _ i h _)
      · exact Relation.ReflTransGen.single (Change.setPhase p i _)
    · exact Relation.ReflTransGen.single (Change.setPhase p i _)

theorem changes_enter (p : Pool) (i : Nat) (t : Ticket) :
    Changes p (p.enter i t) := by
  unfold enter
  split
  · exact changes_conclude p i t _
  · have howned :
        Changes p (p.modifyCell t.cell (fun c => { c with owner := some i })) :=
      Relation.ReflTransGen.single (Change.modifyCell p t.cell (fun _ => rfl))
    exact howned.tail (Change.setPhase _ i _)
  · exact Relation.ReflTransGen.single
      (Change.modifyCell p t.cell (fun _ => rfl))

theorem changes_resume {i : Nat} (h : p.resume i t = some q) :
    Changes p q := by
  unfold resume at h
  split at h
  · rw [← Option.some.inj h]
    exact changes_conclude p i t _
  · split at h
    · rw [← Option.some.inj h]
      exact Relation.ReflTransGen.single (Change.setPhase p i _)
    · cases h
  · cases h

theorem changes_fail (p : Pool) (i : Nat) (t : Ticket) (error : ClusterError) :
    Changes p (p.fail i t error) := by
  have hpassed :
      Changes p (p.modifyCell t.cell
        (fun c => { c with owner := c.queue.head?, queue := c.queue.tail })) :=
    Relation.ReflTransGen.single (Change.modifyCell p t.cell (fun _ => rfl))
  unfold fail
  dsimp only
  split
  · exact (hpassed.tail (Change.removeEntry _ _)).tail (Change.setPhase _ i _)
  · exact hpassed.tail (Change.setPhase _ i _)

/-! ## Calls that begin -/

theorem edits_claimCell (p : Pool) (key : Target) :
    Edits p (p.claimCell key).1 := by
  unfold claimCell
  split
  · exact Relation.ReflTransGen.single (Edit.addCell p key)
  · split
    · split
      · exact Relation.ReflTransGen.refl
      · exact Relation.ReflTransGen.head
          (Edit.change (Change.removeEntry p key))
          (Relation.ReflTransGen.single (Edit.addCell _ key))
    · exact Relation.ReflTransGen.refl

theorem edits_request (p : Pool) (target : Target) :
    Edits p (p.request target) := by
  unfold request
  split
  · exact Relation.ReflTransGen.single (Edit.addCall p target _)
  · split
    · exact Relation.ReflTransGen.single (Edit.addCall p target _)
    · rename_i key endpoint _
      have hcalled :
          Edits p ((p.claimCell key).1.addCall target
            (.queued ⟨key, endpoint, (p.claimCell key).2⟩)) :=
        (edits_claimCell p key).tail (Edit.addCall _ target _)
      exact hcalled.trans (changes_enter _ _ _).edits

end Pool
end SlotCluster
