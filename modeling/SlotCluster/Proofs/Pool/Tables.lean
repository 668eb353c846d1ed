import SlotCluster.Proofs.Pool.Changes
import SlotCluster.Proofs.Pool.Chores
import SlotCluster.Proofs.Pool.Inversion

/-!
# The table of a pool

A pool has the table that was applied to it last, whatever else has happened to
it.
-/

namespace SlotCluster
namespace Pool

@[simp]
theorem table_closeHandle (p : Pool) (h : Nat) :
    (p.closeHandle h).table = p.table := by
  rcases p.closeHandle_eq h with ⟨links, heq, _⟩
  rw [heq]

theorem Edit.table {p q : Pool} (h : Edit p q) : q.table = p.table := by
  cases h with
  | change change =>
      cases change with
      | setPhase i phase => rfl
      | removeEntry key => rfl
      | modifyCell c _ => rfl
      | closeHandle h => exact table_closeHandle p h
  | addCall target phase => rfl
  | addCell key => rfl

theorem Edits.table {p q : Pool} (h : Edits p q) : q.table = p.table := by
  induction h with
  | refl => rfl
  | tail _ last ih => exact last.table.trans ih

@[simp]
theorem table_conclude (p : Pool) (i : Nat) (t : Ticket) (h : Nat) :
    (p.conclude i t h).table = p.table :=
  (changes_conclude p i t h).edits.table

@[simp]
theorem table_request (p : Pool) (target : Target) :
    (p.request target).table = p.table :=
  (edits_request p target).table

@[simp]
theorem table_linked (p : Pool) (i : Nat) (t : Ticket) :
    (p.linked i t).table = p.table := by
  unfold linked
  dsimp only
  split
  · rfl
  · exact table_conclude _ i t _

@[simp]
theorem table_beginCleanup (p : Pool) (chores : List Chore) (evicted : Nat) :
    (p.beginCleanup chores evicted).table = p.table := by
  show (p.runChores chores).1.table = p.table
  rw [(tidied_runChores p chores).1.frame]

@[simp]
theorem table_continueCleanup (p : Pool) (n : Nat) (k : Cleanup) :
    (p.continueCleanup n k).table = p.table := by
  show (p.runChores k.chores).1.table = p.table
  rw [(tidied_runChores p k.chores).1.frame]

@[simp]
theorem table_sweep (p : Pool) (table : Table) :
    (p.sweep table).table = p.table :=
  table_beginCleanup _ _ _

@[simp]
theorem table_drain (p : Pool) : p.drain.table = p.table :=
  table_beginCleanup _ _ _

def Event.table? : Event -> Option Shared
  | .apply table => some table
  | _ => none

def Event.cleanup? : Event -> Option Nat
  | .cleaned n => some n
  | _ => none

theorem table_of_step {p q : Pool} {event : Event} (h : p.step event = some q) :
    q.table = event.table?.getD p.table := by
  cases taken_of_step h with
  | request target => exact table_request p target
  | resume _ resumed => exact (changes_resume resumed).edits.table
  | linked _ => exact table_linked p _ _
  | notLinked _ => exact (changes_fail p _ _ _).edits.table
  | accepted _ => exact table_conclude _ _ _ _
  | refused _ => rfl
  | rejected _ => exact (changes_fail p _ _ _).edits.table
  | discarded _ => rfl
  | apply table => rfl
  | sweep table => exact table_sweep p table
  | drain => exact table_drain p
  | cleaned _ => exact table_continueCleanup p _ _
  | broke l => rfl
  | closeHandle n => exact table_closeHandle p n
  | reordered perm leads => rfl

end Pool
end SlotCluster
