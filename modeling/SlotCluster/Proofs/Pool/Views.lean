import Mathlib.Data.List.Basic
import SlotCluster.Pool.Step

/-!
# Views of a pool

What each change of a pool does to what can be seen of it: the phase of every
call, the content of every cell, the cell of every key, and which links are
open.  Later modules reason about these views and never open the changes
themselves.
-/

namespace SlotCluster
namespace Pool

/-!
## Phases

A call has a ticket until it has got its connection, and some phases tell of
more: that the call is opening a connection, or on which link it waits for the
answer to its credential.
-/

@[simp]
theorem phase?_setPhase (p : Pool) (i j : Nat) (phase : Phase) :
    (p.setPhase i phase).phase? j =
      if i = j then (p.phase? j).map (fun _ => phase) else p.phase? j := by
  unfold setPhase phase?
  by_cases h : i = j
  · subst h
    cases hcall : p.calls[i]? <;> simp [hcall]
  · simp [h]

theorem phase?_setPhase_of_some {p : Pool} {i : Nat} {old : Phase}
    (phase : Phase) (h : p.phase? i = some old) (j : Nat) :
    (p.setPhase i phase).phase? j =
      if i = j then some phase else p.phase? j := by
  rw [phase?_setPhase]
  by_cases hij : i = j
  · subst hij
    rw [if_pos rfl, if_pos rfl, h]
    rfl
  · rw [if_neg hij, if_neg hij]

theorem phase?_setPhase_self {p : Pool} {i : Nat} {old : Phase} (phase : Phase)
    (h : p.phase? i = some old) :
    (p.setPhase i phase).phase? i = some phase := by
  rw [phase?_setPhase_of_some phase h, if_pos rfl]

theorem phase?_setPhase_of_ne (p : Pool) {i j : Nat} (phase : Phase)
    (h : i ≠ j) : (p.setPhase i phase).phase? j = p.phase? j := by
  simp [h]

@[simp]
theorem phase?_addCall (p : Pool) (target : Target) (phase : Phase) (i : Nat) :
    (p.addCall target phase).phase? i =
      if i = p.calls.length then some phase else p.phase? i := by
  unfold addCall phase?
  by_cases h : i = p.calls.length
  · subst h
    simp
  · by_cases hlt : i < p.calls.length
    · simp [h, List.getElem?_append_left hlt]
    · have hlast : ¬ i < (p.calls ++ [(⟨target, phase⟩ : Call)]).length := by
        simp only [List.length_append, List.length_singleton]
        omega
      simp only [h, if_false]
      rw [List.getElem?_eq_none (by omega), List.getElem?_eq_none (by omega)]

theorem phase?_lt {p : Pool} {i : Nat} {phase : Phase}
    (h : p.phase? i = some phase) : i < p.calls.length := by
  unfold phase? at h
  rcases Option.map_eq_some_iff.mp h with ⟨call, hcall, _⟩
  exact (List.getElem?_eq_some_iff.mp hcall).1

def Phase.ticket? : Phase -> Option Ticket
  | .queued ticket => some ticket
  | .connecting ticket => some ticket
  | .authenticating ticket _ => some ticket
  | .rejecting ticket _ _ => some ticket
  | .discarding _ _ => none
  | .finished _ => none

def Phase.opening? : Phase -> Option Ticket
  | .connecting ticket => some ticket
  | .authenticating ticket _ => some ticket
  | .rejecting ticket _ _ => some ticket
  | _ => none

def Phase.handshake? : Phase -> Option Nat
  | .authenticating _ link => some link
  | _ => none

def view {α : Type} (p : Pool) (part : Phase -> Option α)
    (call : Nat) : Option α :=
  (p.phase? call).bind part

theorem Phase.ticket?_of_opening? {phase : Phase} {t : Ticket}
    (h : phase.opening? = some t) : phase.ticket? = some t := by
  cases phase with
  | queued _ => cases h
  | connecting _ => exact h
  | authenticating _ _ => exact h
  | rejecting _ _ _ => exact h
  | discarding _ _ => cases h
  | finished _ => cases h

theorem view_of_phase? {α : Type} {p : Pool} {i : Nat} {phase : Phase}
    (part : Phase -> Option α) (h : p.phase? i = some phase) :
    p.view part i = part phase := by
  simp [view, h]

theorem view_eq_some {α : Type} {p : Pool} {part : Phase -> Option α} {i : Nat}
    {a : α} :
    p.view part i = some a <->
      exists phase, p.phase? i = some phase ∧ part phase = some a :=
  Option.bind_eq_some_iff

theorem view_lt {α : Type} {p : Pool} {part : Phase -> Option α} {i : Nat}
    {a : α} (h : p.view part i = some a) : i < p.calls.length := by
  rcases view_eq_some.mp h with ⟨phase, hphase, _⟩
  exact phase?_lt hphase

theorem ticket?_of_opening? {p : Pool} {i : Nat} {t : Ticket}
    (h : p.view Phase.opening? i = some t) :
    p.view Phase.ticket? i = some t := by
  rcases view_eq_some.mp h with ⟨phase, hphase, hopening⟩
  rw [view_of_phase? _ hphase]
  exact Phase.ticket?_of_opening? hopening

theorem view_setPhase {α : Type} {p : Pool} {i : Nat} {old : Phase}
    (part : Phase -> Option α) (hi : p.phase? i = some old) (phase : Phase)
    (j : Nat) :
    (p.setPhase i phase).view part j =
      if i = j then part phase else p.view part j := by
  unfold view
  rw [phase?_setPhase_of_some phase hi]
  by_cases h : i = j <;> simp [h]

@[simp]
theorem view_addCall {α : Type} (p : Pool) (part : Phase -> Option α)
    (target : Target) (phase : Phase) (i : Nat) :
    (p.addCall target phase).view part i =
      if i = p.calls.length then part phase else p.view part i := by
  unfold view
  rw [phase?_addCall]
  by_cases h : i = p.calls.length <;> simp [h]

/-! ## Cells -/

@[simp]
theorem cells_modifyCell (p : Pool) (c d : Nat) (f : Cell -> Cell) :
    (p.modifyCell c f).cells[d]? =
      if c = d then (p.cells[d]?).map f else p.cells[d]? := by
  unfold modifyCell
  by_cases h : c = d
  · subst h
    simp
  · simp [h]

theorem cellHandle?_eq_some {p : Pool} {c h : Nat} :
    p.cellHandle? c = some h <->
      exists cell, p.cells[c]? = some cell ∧ cell.handle = some h := by
  unfold cellHandle?
  exact Option.bind_eq_some_iff

theorem cellHandle?_lt {p : Pool} {c h : Nat} (hc : p.cellHandle? c = some h) :
    c < p.cells.length := by
  rcases cellHandle?_eq_some.mp hc with ⟨cell, hcell, _⟩
  exact (List.getElem?_eq_some_iff.mp hcell).1

theorem cellHandle?_modifyCell (p : Pool) (c : Nat) {f : Cell -> Cell}
    (hf : forall cell, (f cell).handle = cell.handle) (d : Nat) :
    (p.modifyCell c f).cellHandle? d = p.cellHandle? d := by
  unfold cellHandle?
  rw [cells_modifyCell]
  by_cases hc : c = d
  · rw [if_pos hc]
    cases p.cells[d]? with
    | none => rfl
    | some cell => exact hf cell
  · rw [if_neg hc]

/-! ## Entries -/

theorem entry?_eq_some {p : Pool} (hnodup : (p.entries.map Prod.fst).Nodup)
    {key : Target} {c : Nat} :
    p.entry? key = some c <-> (key, c) ∈ p.entries := by
  unfold entry?
  constructor
  · intro h
    rcases Option.map_eq_some_iff.mp h with ⟨e, hfind, hc⟩
    have hkey : e.1 = key := by simpa using List.find?_some hfind
    have hmem := List.mem_of_find?_eq_some hfind
    rw [← hkey, ← hc]
    exact hmem
  · intro h
    have hfind : p.entries.find? (fun e => e.1 = key) = some (key, c) := by
      generalize p.entries = entries at hnodup h
      induction entries with
      | nil => cases h
      | cons e rest ih =>
          rw [List.map_cons, List.nodup_cons] at hnodup
          rcases List.mem_cons.mp h with hhead | htail
          · rw [← hhead]
            simp
          · have hne : e.1 ≠ key := by
              intro heq
              exact hnodup.1 (List.mem_map.mpr ⟨(key, c), htail, heq.symm⟩)
            rw [List.find?_cons_of_neg (by simpa using hne)]
            exact ih hnodup.2 htail
    rw [hfind]
    rfl

@[simp]
theorem entry?_removeEntry (p : Pool) (key other : Target) :
    Pool.entry? (p.removeEntry key) other =
      if key = other then none else p.entry? other := by
  unfold entry? removeEntry
  rw [List.find?_filter]
  by_cases h : key = other
  · subst h
    rw [if_pos rfl, List.find?_eq_none.mpr]
    · rfl
    · intro e _
      simp
  · rw [if_neg h]
    congr 2
    funext e
    by_cases he : e.1 = other
    · simp [he, Ne.symm h]
    · simp [he]

/-! ## Links -/

theorem isLinkOpen_iff {p : Pool} {l : Nat} :
    p.isLinkOpen l = true <->
      exists link, p.links[l]? = some link ∧ link.isOpen = true := by
  unfold isLinkOpen
  rw [Option.any_eq_true]

@[simp]
theorem isLinkOpen_closeLink (p : Pool) (l m : Nat) :
    (p.closeLink l).isLinkOpen m = (p.isLinkOpen m && decide (l ≠ m)) := by
  unfold isLinkOpen closeLink
  by_cases h : l = m
  · subst h
    cases hlink : p.links[l]? <;> simp [hlink]
  · simp [h]

@[simp]
theorem isLinkOpen_closeHandle (p : Pool) (h m : Nat) :
    (p.closeHandle h).isLinkOpen m =
      (p.isLinkOpen m &&
        decide ((p.handles[h]?).map Handle.link ≠ some m)) := by
  unfold closeHandle
  cases hh : p.handles[h]? with
  | none => simp
  | some handle =>
      rw [isLinkOpen_closeLink]
      simp

theorem closeHandle_eq (p : Pool) (h : Nat) :
    exists links, p.closeHandle h = { p with links } ∧
      links.length = p.links.length := by
  unfold closeHandle
  cases p.handles[h]? with
  | none => exact ⟨p.links, rfl, rfl⟩
  | some handle => exact ⟨_, rfl, List.length_modify ..⟩

theorem isOpen_iff {p : Pool} {h : Nat} :
    p.isOpen h = true <->
      exists handle,
        p.handles[h]? = some handle ∧ p.isLinkOpen handle.link = true := by
  unfold isOpen
  rw [Option.any_eq_true]

/-! ## Handles -/

def wire? (p : Pool) (h : Nat) : Option (Target × Nat) :=
  (p.handles[h]?).map (fun handle => (handle.target, handle.link))

theorem wire?_eq_some {p : Pool} {h l : Nat} {key : Target} :
    p.wire? h = some (key, l) <->
      exists handle, p.handles[h]? = some handle ∧ handle.target = key ∧
        handle.link = l := by
  unfold wire?
  simp [Option.map_eq_some_iff]

theorem wire?_lt {p : Pool} {h l : Nat} {key : Target}
    (hwire : p.wire? h = some (key, l)) : h < p.handles.length := by
  rcases wire?_eq_some.mp hwire with ⟨handle, hhandle, _⟩
  exact (List.getElem?_eq_some_iff.mp hhandle).1

theorem isOpen_iff_wire {p : Pool} {h : Nat} :
    p.isOpen h = true <->
      exists key l, p.wire? h = some (key, l) ∧ p.isLinkOpen l = true := by
  rw [isOpen_iff]
  constructor
  · intro hopen
    rcases hopen with ⟨handle, hhandle, hlink⟩
    exact ⟨handle.target, handle.link,
      wire?_eq_some.mpr ⟨handle, hhandle, rfl, rfl⟩, hlink⟩
  · intro hopen
    rcases hopen with ⟨key, l, hwire, hlink⟩
    rcases wire?_eq_some.mp hwire with ⟨handle, hhandle, _, hl⟩
    exact ⟨handle, hhandle, hl ▸ hlink⟩

@[simp]
theorem wire?_informCells (p : Pool) (table : Shared) (cells : List Nat)
    (h : Nat) : (p.informCells table cells).wire? h = p.wire? h := by
  unfold wire? informCells
  simp only [List.getElem?_mapIdx, Option.map_map]
  congr 1
  funext handle
  simp only [Function.comp]
  by_cases hreached :
    cells.any (fun cell => decide (p.cellHandle? cell = some h)) = true
  · rw [if_pos hreached]
  · rw [if_neg hreached]

/-! ## New cells -/

def openCell (p : Pool) (target : Target) (t : Ticket) : Pool :=
  { p with
    entries := p.entries ++ [(t.key, t.cell)]
    cells := p.cells ++ [{ owner := some p.calls.length }]
    calls := p.calls ++ [⟨target, .connecting t⟩] }

theorem entry?_openCell {p : Pool} (target : Target) {t : Ticket}
    (hfree : p.entry? t.key = none) (key : Target) :
    Pool.entry? (p.openCell target t) key =
      if t.key = key then some t.cell else p.entry? key := by
  unfold entry? openCell at *
  rw [List.find?_append]
  by_cases h : t.key = key
  · rw [if_pos h, ← h, Option.map_eq_none_iff.mp hfree]
    simp
  · rw [if_neg h]
    cases p.entries.find? (fun e => e.1 = key) <;> simp [h]

@[simp]
theorem cells_openCell (p : Pool) (target : Target) (t : Ticket) (c : Nat) :
    (p.openCell target t).cells[c]? =
      if c = p.cells.length then some { owner := some p.calls.length }
      else p.cells[c]? := by
  change (p.cells ++ [({ owner := some p.calls.length } : Cell)])[c]? = _
  by_cases h : c = p.cells.length
  · rw [if_pos h, h, List.getElem?_concat_length]
  · rw [if_neg h]
    by_cases hlt : c < p.cells.length
    · rw [List.getElem?_append_left hlt]
    · rw [List.getElem?_eq_none (l := p.cells) (by omega),
        List.getElem?_eq_none]
      rw [List.length_append, List.length_singleton]
      omega

@[simp]
theorem cellHandle?_openCell (p : Pool) (target : Target) (t : Ticket)
    (c : Nat) : (p.openCell target t).cellHandle? c = p.cellHandle? c := by
  unfold cellHandle?
  rw [cells_openCell]
  by_cases h : c = p.cells.length
  · rw [if_pos h, List.getElem?_eq_none (Nat.le_of_eq h.symm)]
    rfl
  · rw [if_neg h]

@[simp]
theorem phase?_openCell (p : Pool) (target : Target) (t : Ticket) (i : Nat) :
    (p.openCell target t).phase? i =
      if i = p.calls.length then some (.connecting t) else p.phase? i :=
  phase?_addCall p target (.connecting t) i

@[simp]
theorem view_openCell {α : Type} (p : Pool) (part : Phase -> Option α)
    (target : Target) (t : Ticket) (i : Nat) :
    (p.openCell target t).view part i =
      if i = p.calls.length then part (.connecting t) else p.view part i :=
  view_addCall p part target (.connecting t) i

/-!
## New links and handles

A call sends its credential on the link that it has got.  When the link is put
into the cell, the call is one of those that wait there.
-/

def dialLink (p : Pool) (i : Nat) (t : Ticket) : Pool :=
  setPhase { p with links := p.links ++ [{ endpoint := t.endpoint }] } i
    (.authenticating t p.links.length)

/-- The pool after a call has put its link into its cell, where it now is one of
those that wait. -/
def fillCell (p : Pool) (i : Nat) (t : Ticket) (l : Nat) : Pool :=
  setPhase
    { p with
      handles := p.handles ++ [⟨t.key, t.endpoint, l, p.table⟩]
      cells :=
        p.cells.modify t.cell (fun _ => { handle := some p.handles.length }) } i
    (.queued t)

theorem phase?_dialLink {p : Pool} {i : Nat} {t : Ticket}
    (hi : p.phase? i = some (.connecting t)) (j : Nat) :
    (p.dialLink i t).phase? j =
      if i = j then some (.authenticating t p.links.length) else p.phase? j :=
  phase?_setPhase_of_some
    (p := { p with links := p.links ++ [{ endpoint := t.endpoint }] }) _ hi j

theorem view_dialLink {α : Type} {p : Pool} {i : Nat} {t : Ticket}
    (part : Phase -> Option α) (hi : p.phase? i = some (.connecting t))
    (j : Nat) :
    (p.dialLink i t).view part j =
      if i = j then part (.authenticating t p.links.length)
      else p.view part j := by
  unfold view
  rw [phase?_dialLink hi]
  by_cases h : i = j <;> simp [h]

@[simp]
theorem isLinkOpen_dialLink (p : Pool) (i l : Nat) (t : Ticket) :
    (p.dialLink i t).isLinkOpen l =
      (p.isLinkOpen l || decide (l = p.links.length)) := by
  change ((p.links ++ [_])[l]?).any Link.isOpen = _
  by_cases h : l = p.links.length
  · subst h
    simp
  · by_cases hlt : l < p.links.length
    · rw [List.getElem?_append_left hlt]
      simp [isLinkOpen, h]
    · rw [List.getElem?_eq_none (by simp; omega)]
      simp [isLinkOpen, h, List.getElem?_eq_none (Nat.le_of_not_lt hlt)]

theorem phase?_fillCell {p : Pool} {i l : Nat} {t : Ticket}
    (hi : p.phase? i = some (.authenticating t l)) (j : Nat) :
    (p.fillCell i t l).phase? j =
      if i = j then some (.queued t) else p.phase? j :=
  phase?_setPhase_of_some (p := { p with handles := _, cells := _ }) _ hi j

theorem view_fillCell {α : Type} {p : Pool} {i l : Nat} {t : Ticket}
    (part : Phase -> Option α) (hi : p.phase? i = some (.authenticating t l))
    (j : Nat) :
    (p.fillCell i t l).view part j =
      if i = j then part (.queued t) else p.view part j := by
  unfold view
  rw [phase?_fillCell hi]
  by_cases h : i = j <;> simp [h]

theorem cells_fillCell {p : Pool} {t : Ticket} {cell : Cell} (i l : Nat)
    (hcell : p.cells[t.cell]? = some cell) (c : Nat) :
    (p.fillCell i t l).cells[c]? =
      if t.cell = c then some { handle := some p.handles.length }
      else p.cells[c]? := by
  change (p.cells.modify t.cell _)[c]? = _
  by_cases hc : t.cell = c
  · subst hc
    simp [hcell]
  · simp [hc]

theorem cellHandle?_fillCell {p : Pool} {t : Ticket} {cell : Cell} (i l : Nat)
    (hcell : p.cells[t.cell]? = some cell) (c : Nat) :
    (p.fillCell i t l).cellHandle? c =
      if t.cell = c then some p.handles.length else p.cellHandle? c := by
  unfold cellHandle?
  rw [cells_fillCell i l hcell]
  by_cases hc : t.cell = c <;> simp [hc]

@[simp]
theorem wire?_fillCell (p : Pool) (i : Nat) (t : Ticket) (l h : Nat) :
    (p.fillCell i t l).wire? h =
      if h = p.handles.length then some (t.key, l) else p.wire? h := by
  change ((p.handles ++ [_])[h]?).map _ = _
  by_cases hh : h = p.handles.length
  · subst hh
    simp
  · rw [if_neg hh, List.getElem?_append]
    by_cases hlt : h < p.handles.length
    · rw [if_pos hlt]
      rfl
    · rw [if_neg hlt, List.getElem?_eq_none (by simp; omega)]
      simp [wire?, List.getElem?_eq_none (Nat.le_of_not_lt hlt)]

end Pool
end SlotCluster
