import SlotCluster.Proofs.Pool.Entries

/-!
# The tables that connections report

A connection copies the table of the pool when its opening ends, and a new table
is handed to the connections that are in the pool at that moment.  The copy and
the filling of the cell are one step, so no table slips in between: whatever the
order of openings and new tables, a connection in the pool reports the table of
the pool.
-/

namespace SlotCluster
namespace Pool

variable {p q : Pool} {event : Event}

def Informed (p : Pool) : Prop :=
  forall (e : Target × Nat) (h : Nat), e ∈ p.entries ->
    p.cellHandle? e.2 = some h ->
    exists handle, p.handles[h]? = some handle ∧ handle.table = p.table

namespace Informed

theorem start (table : Shared) (fallback : Endpoint) :
    Informed { table, fallback } := by
  intro e h he
  cases he

theorem keep (hp : Informed p) (hentries : q.entries ⊆ p.entries)
    (htable : q.table = p.table)
    (hcells : forall c, q.cellHandle? c = p.cellHandle? c)
    (hhandles : q.handles = p.handles) : Informed q := by
  intro e h he hh
  rw [hcells] at hh
  rw [hhandles, htable]
  exact hp e h (hentries he) hh

theorem setPhase (hp : Informed p) (i : Nat) (phase : Phase) :
    Informed (p.setPhase i phase) :=
  hp

theorem addCall (hp : Informed p) (target : Target) (phase : Phase) :
    Informed (p.addCall target phase) :=
  hp

theorem removeEntry (hp : Informed p) (key : Target) :
    Informed (p.removeEntry key) :=
  hp.keep (List.filter_subset_self _) rfl (fun _ => rfl) rfl

theorem modifyCell (hp : Informed p) (c : Nat) {f : Cell -> Cell}
    (hf : forall cell, (f cell).handle = cell.handle) :
    Informed (p.modifyCell c f) := by
  exact hp.keep (List.Subset.refl _) rfl (cellHandle?_modifyCell p c hf) rfl

theorem closeHandle (hp : Informed p) (n : Nat) :
    Informed (p.closeHandle n) := by
  rcases closeHandle_eq p n with ⟨links, heq, _⟩
  rw [heq]
  exact hp

/-!
## Calls

A connection that is put into its cell reports the table of this moment.
-/

theorem fresh (hp : Informed p) (key : Target) :
    Informed { p with
      entries := p.entries ++ [(key, p.cells.length)]
      cells := p.cells ++ [{}] } := by
  intro e h he hh
  rcases cellHandle?_eq_some.mp hh with ⟨cell, hcell, hfilled⟩
  change (p.cells ++ [({} : Cell)])[e.2]? = some cell at hcell
  have hold : p.cells[e.2]? = some cell := by
    by_cases hlt : e.2 < p.cells.length
    · rwa [List.getElem?_append_left hlt] at hcell
    · rw [List.getElem?_append_right (Nat.le_of_not_lt hlt)] at hcell
      rw [List.mem_singleton.mp (List.mem_of_getElem? hcell)] at hfilled
      cases hfilled
  rcases List.mem_append.mp he with hmem | hmem
  · exact hp e h hmem (cellHandle?_eq_some.mpr ⟨cell, hold, hfilled⟩)
  · rw [List.mem_singleton.mp hmem,
      List.getElem?_eq_none (Nat.le_refl _)] at hold
    cases hold

theorem edit (hp : Informed p) (h : Edit p q) : Informed q := by
  cases h with
  | change change =>
      cases change with
      | setPhase i phase => exact hp
      | removeEntry key => exact hp.removeEntry key
      | modifyCell c same => exact hp.modifyCell c same
      | closeHandle n => exact hp.closeHandle n
  | addCall target phase => exact hp
  | addCell key => exact hp.fresh key

theorem edits (hp : Informed p) (h : Edits p q) : Informed q := by
  induction h with
  | refl => exact hp
  | tail _ last ih => exact ih.edit last

theorem establish (hp : Informed p) (i : Nat) (t : Ticket) (link : Nat) :
    Informed (p.establish i t link) := by
  refine edits ?_ (changes_conclude _ i t p.handles.length).edits
  intro e h he hh
  rcases cellHandle?_eq_some.mp hh with ⟨cell, hcell, hfilled⟩
  change (p.cells.modify t.cell _)[e.2]? = some cell at hcell
  change exists handle, (p.handles ++ [_])[h]? = some handle ∧
    handle.table = p.table
  rw [List.getElem?_modify, Option.map_eq_map, Option.map_eq_some_iff] at hcell
  rcases hcell with ⟨old, hold, hnew⟩
  by_cases hat : t.cell = e.2
  · rw [if_pos hat] at hnew
    rw [← hnew, Option.some.injEq] at hfilled
    rw [← hfilled, List.getElem?_concat_length]
    exact ⟨_, rfl, rfl⟩
  · rw [if_neg hat] at hnew
    rw [← hnew] at hfilled
    rcases hp e h he (cellHandle?_eq_some.mpr ⟨old, hold, hfilled⟩) with
      ⟨handle, hhandle, htable⟩
    rw [List.getElem?_append_left (List.getElem?_eq_some_iff.mp hhandle).1]
    exact ⟨handle, hhandle, htable⟩

theorem linked (hp : Informed p) (i : Nat) (t : Ticket) :
    Informed (p.linked i t) := by
  unfold Pool.linked
  dsimp only
  split
  · exact hp
  · exact establish
      (p :=
        { p with links := p.links ++ [{ endpoint := t.endpoint }] }) hp i t _

/-! ## Tables and cleanups -/

theorem apply (hp : Informed p) (table : Shared) :
    Informed (p.apply table) := by
  intro e h he hh
  rcases hp e h he hh with ⟨handle, hhandle, _⟩
  have hreached :
      (p.entries.map Prod.snd).any
        (fun c => decide (p.cellHandle? c = some h)) = true := by
    rw [List.any_eq_true]
    exact ⟨e.2, List.mem_map_of_mem he, decide_eq_true hh⟩
  exists { handle with table }
  constructor
  · unfold Pool.apply informCells
    simp only [List.getElem?_mapIdx, hhandle, Option.map_some,
      Option.some.injEq]
    exact if_pos hreached
  · rfl

theorem runChores (hp : Informed p) (chores : List Chore) :
    Informed (p.runChores chores).1 := by
  have htidied := (tidied_runChores p chores).1
  apply hp.keep htidied.entries.subset
  · rw [htidied.frame]
  · exact htidied.cellHandle?_eq
  · rw [htidied.frame]

theorem step (hp : Informed p) (h : p.step event = some q) : Informed q := by
  cases taken_of_step h with
  | request target => exact hp.edits (edits_request p target)
  | resume _ resumed => exact hp.edits (changes_resume resumed).edits
  | linked _ => exact hp.linked _ _
  | notLinked _ => exact hp.edits (changes_fail p _ _ _).edits
  | @accepted i l t _ =>
      exact establish (p := { p with
        links :=
          p.links.modify l
            (fun link => { link with isAuthenticated := true }) }) hp i t l
  | refused _ => exact hp
  | rejected _ => exact hp.edits (changes_fail p _ _ _).edits
  | discarded _ => exact hp
  | apply table => exact hp.apply table
  | sweep table =>
      have hswept :
          Informed { p with
            entries := p.entries.filter (fun e => !e.1.isStale table) } :=
        hp.keep (List.filter_subset_self _) rfl (fun _ => rfl) rfl
      exact hswept.runChores _
  | drain =>
      have hclosed : Informed { p with isClosed := true } := hp
      exact hclosed.runChores _
  | cleaned _ => exact hp.runChores _
  | broke l => exact hp
  | closeHandle n => exact hp.closeHandle n
  | reordered perm leads => exact hp.keep perm.subset rfl (fun _ => rfl) rfl

theorem run {events : List Event} (hp : Informed p)
    (h : p.run events = some q) : Informed q :=
  run_keeps h hp (fun hr hstep => hr.step hstep)

end Informed

/-! ## Runs -/

/-- The table that was applied last in a run, or the one from before it. -/
def lastTable (table : Shared) (events : List Event) : Shared :=
  (events.filterMap Event.table?).getLast?.getD table

theorem table_eq_lastTable {events : List Event} (h : p.run events = some q) :
    q.table = lastTable p.table events := by
  induction events generalizing p with
  | nil =>
      cases h
      rfl
  | cons event rest ih =>
      rcases run_cons.mp h with ⟨r, hr, hrest⟩
      rw [ih hrest, table_of_step hr]
      unfold lastTable
      rw [List.filterMap_cons]
      cases event.table? with
      | none => rfl
      | some table =>
          simp only [Option.getD_some, List.getLast?_cons]

/-- After any run the pool has the table that was applied last, and every
connection in it reports that very table, no matter when its opening began. -/
theorem table_of_pooled {table : Shared} {fallback : Endpoint}
    {events : List Event} {p : Pool}
    (hrun : run { table, fallback } events = some p) :
    p.table = lastTable table events ∧
      forall {key : Target} {c h : Nat}, p.entry? key = some c ->
        p.cellHandle? c = some h ->
        exists handle,
          p.handles[h]? = some handle ∧ handle.table = p.table := by
  constructor
  · exact table_eq_lastTable hrun
  · intro key c h hentry hfilled
    have hinformed : Informed p := (Informed.start table fallback).run hrun
    rcases Option.map_eq_some_iff.mp hentry with ⟨e, hfind, hcell⟩
    exact hinformed e h (List.mem_of_find?_eq_some hfind) (hcell ▸ hfilled)

/-- An opening that began before a new table and ended after it. -/
theorem table_of_pooled_overtaken :
    exists p handle, run { table := default, fallback := .atAddress "h" 1 }
        [.request (.address "d" 2), .apply ⟨1, default⟩, .linked 0] = some p ∧
      p.handles[0]? = some handle ∧ p.table.stamp = 1 ∧
        handle.table = p.table := by
  have hrun : run { table := default, fallback := .atAddress "h" 1 }
      [.request (.address "d" 2), .apply ⟨1, default⟩, .linked 0] = some _ :=
    rfl
  rcases @(table_of_pooled hrun).2 (.address "d" 2) 0 0 rfl rfl with
    ⟨handle, hhandle, htable⟩
  exact ⟨_, handle, hrun, hhandle, rfl, htable⟩

end Pool
end SlotCluster
