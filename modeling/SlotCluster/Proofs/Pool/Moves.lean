import Mathlib.Data.List.Basic
import Mathlib.Logic.Relation
import SlotCluster.Proofs.Pool.Views

/-!
# Moves of a pool

A step of a pool is made of a few kinds of small changes, and most steps of
calls are chains of them.  Every move here names what has to hold for it, so an
invariant is proved once for each kind of move and then holds after every step
made of moves.

The steps that are not chains of moves are those that may take an entry away
from a cell in which somebody is still interested: the failure of an owner and
the cleanups.
-/

namespace SlotCluster
namespace Pool

def Manned (p : Pool) : Prop :=
  forall {key : Target} {c : Nat}, p.entry? key = some c ->
    exists cell,
      p.cells[c]? = some cell ∧ (cell.handle ≠ none ∨ cell.owner ≠ none)

inductive Move : Pool -> Pool -> Prop where
  /-- A call ends as it begins. -/
  | refuse {p : Pool} (target : Target) (result : Except ClusterError Nat) :
      Move p (p.addCall target (.finished result))
  /-- A call begins at a cell with a connection. -/
  | arrive {p : Pool} {t : Ticket} (target : Target)
      (entry : p.entry? t.key = some t.cell)
      (filled : (p.cellHandle? t.cell).isSome) :
      Move p (p.addCall target (.queued t))
  /-- A call begins at a cell that somebody else owns. -/
  | wait {p : Pool} {t : Ticket} {cell : Cell} {owner : Nat} (target : Target)
      (entry : p.entry? t.key = some t.cell)
      (found : p.cells[t.cell]? = some cell)
      (empty : cell.handle = none)
      (owned : cell.owner = some owner) :
      Move p ((p.addCall target (.queued t)).modifyCell t.cell
        (fun c => { c with queue := c.queue ++ [p.calls.length] }))
  /-- A call begins with a new cell, which it owns. -/
  | found {p : Pool} {t : Ticket} (target : Target)
      (openPool : p.isClosed = false)
      (new : t.cell = p.cells.length)
      (free : p.entry? t.key = none) :
      Move p (p.openCell target t)
  /-- The entry of a connection that has closed is removed. -/
  | forget {p : Pool} {key : Target} {c h : Nat}
      (entry : p.entry? key = some c)
      (filled : p.cellHandle? c = some h)
      (dead : p.isOpen h = false) :
      Move p (p.removeEntry key)
  /-- A call hands out the connection of its cell. -/
  | take {p : Pool} {i : Nat} {t : Ticket} {h : Nat}
      (phase : p.phase? i = some (.queued t))
      (filled : p.cellHandle? t.cell = some h)
      (entry : p.entry? t.key = some t.cell)
      (openPool : p.isClosed = false) :
      Move p (p.setPhase i (.finished (.ok h)))
  /-- A call closes the connection of its cell. -/
  | discard {p : Pool} {i : Nat} {t : Ticket} {h : Nat} (error : ClusterError)
      (phase : p.phase? i = some (.queued t))
      (filled : p.cellHandle? t.cell = some h) :
      Move p (p.discard i h error)
  /-- A call that has become the owner of its cell asks for a link. -/
  | promote {p : Pool} {i : Nat} {t : Ticket} {cell : Cell}
      (phase : p.phase? i = some (.queued t))
      (found : p.cells[t.cell]? = some cell)
      (owned : cell.owner = some i) :
      Move p (p.setPhase i (.connecting t))
  /-- A link has been opened. -/
  | dial {p : Pool} {i : Nat} {t : Ticket}
      (phase : p.phase? i = some (.connecting t)) :
      Move p (p.dialLink i t)
  /-- The owner of a cell fills it. -/
  | fill {p : Pool} {i : Nat} {t : Ticket} {l : Nat}
      (phase : p.phase? i = some (.authenticating t l)) :
      Move p (p.fillCell i t l)
  /-- The owner of a cell has closed a link that was refused. -/
  | reject {p : Pool} {i : Nat} {t : Ticket} {l : Nat} (error : ClusterError)
      (phase : p.phase? i = some (.authenticating t l))
      (closed : p.isLinkOpen l = false) :
      Move p (p.setPhase i (.rejecting t l error))
  /-- A call ends after the close it has waited for. -/
  | finish {p : Pool} {i h : Nat} {error : ClusterError}
      (phase : p.phase? i = some (.discarding h error)) :
      Move p (p.setPhase i (.finished (.error error)))
  /-- Links change, but none of them opens. -/
  | relink {p : Pool} (links : List Link)
      (length : links.length = p.links.length)
      (closing : forall l, isLinkOpen { p with links } l = true ->
        p.isLinkOpen l = true) : Move p { p with links }
  /-- The pool and its handles get another table. -/
  | inform {p : Pool} (table : Shared) (cells : List Nat) :
      Move p (informCells { p with table } table cells)
  /-- The entries are found in another order. -/
  | reorder {p : Pool} {entries : List (Target × Nat)}
      (perm : entries.Perm p.entries)
      (leads : forall key, entry? { p with entries } key = p.entry? key) :
      Move p { p with entries }

abbrev Moves : Pool -> Pool -> Prop :=
  Relation.ReflTransGen Move

/-!
## The last word on a phase

What a call does with its connection does not depend on its phase, and it ends
with a new phase.
-/

theorem setPhase_setPhase (p : Pool) (i : Nat) (first second : Phase) :
    (p.setPhase i first).setPhase i second = p.setPhase i second := by
  unfold setPhase
  simp only [List.modify_modify_eq]
  rfl

theorem closeHandle_setPhase (p : Pool) (i h : Nat) (phase : Phase) :
    (p.setPhase i phase).closeHandle h =
      (p.closeHandle h).setPhase i phase := by
  have hhandles : (p.setPhase i phase).handles = p.handles := rfl
  unfold closeHandle
  rw [hhandles]
  cases p.handles[h]? <;> rfl

theorem discard_setPhase (p : Pool) (i h : Nat) (phase : Phase)
    (error : ClusterError) :
    (p.setPhase i phase).discard i h error = p.discard i h error := by
  unfold discard
  rw [closeHandle_setPhase, setPhase_setPhase]

theorem discard_removeEntry (p : Pool) (i h : Nat) (key : Target)
    (error : ClusterError) :
    (p.removeEntry key).discard i h error =
      (p.discard i h error).removeEntry key := by
  have hhandles : (p.removeEntry key).handles = p.handles := rfl
  unfold discard closeHandle
  rw [hhandles]
  cases p.handles[h]? <;> rfl

theorem conclude_setPhase (p : Pool) (i h : Nat) (t : Ticket) (phase : Phase) :
    (p.setPhase i phase).conclude i t h = p.conclude i t h := by
  unfold conclude
  rw [discard_setPhase]
  have hremove : (p.setPhase i phase).removeEntry t.key =
      (p.removeEntry t.key).setPhase i phase := rfl
  rw [hremove]
  simp only [discard_setPhase, setPhase_setPhase]
  rfl

theorem establish_setPhase (p : Pool) (i l : Nat) (t : Ticket) (phase : Phase) :
    (p.setPhase i phase).establish i t l = p.establish i t l :=
  conclude_setPhase
    { p with
      handles := p.handles ++ [⟨t.key, t.endpoint, l, p.table⟩]
      cells :=
        p.cells.modify t.cell (fun _ => { handle := some p.handles.length }) }
    i p.handles.length t phase

@[simp]
theorem phase?_closeHandle (p : Pool) (h i : Nat) :
    (p.closeHandle h).phase? i = p.phase? i := by
  rcases closeHandle_eq p h with ⟨links, heq, _⟩
  rw [heq]
  rfl

/-!
## Calls at cells with a connection
-/

theorem isOpen_discard (p : Pool) (i h : Nat) (error : ClusterError) :
    (p.discard i h error).isOpen h = false := by
  rw [Bool.eq_false_iff]
  intro hopen
  rcases isOpen_iff.mp hopen with ⟨handle, hhandle, hlink⟩
  have hsame : (p.discard i h error).handles = p.handles := by
    rcases closeHandle_eq p h with ⟨links, heq, _⟩
    unfold discard
    rw [heq]
    rfl
  have hlink' : (p.closeHandle h).isLinkOpen handle.link = true := hlink
  rw [hsame] at hhandle
  rw [isLinkOpen_closeHandle, hhandle] at hlink'
  simp at hlink'

theorem moves_conclude {p : Pool} {i h : Nat} {t : Ticket}
    (hphase : p.phase? i = some (.queued t))
    (hfilled : p.cellHandle? t.cell = some h) :
    Moves p (p.conclude i t h) := by
  unfold conclude
  by_cases hgone : (p.entry? t.key ≠ some t.cell || p.isClosed) = true
  · rw [if_pos hgone]
    exact Relation.ReflTransGen.single (Move.discard _ hphase hfilled)
  · rw [if_neg hgone]
    simp only [ne_eq, Bool.or_eq_true, decide_eq_true_eq, not_or, not_not,
      Bool.not_eq_true] at hgone
    have htake : Moves p (p.setPhase i (.finished (.ok h))) :=
      Relation.ReflTransGen.single (Move.take hphase hfilled hgone.1 hgone.2)
    cases hkey : t.key with
    | address host port => exact htake
    | node id =>
        by_cases hstale : Target.isStale p.table.table (.node id) = true
        · simp only [hstale, if_true]
          rw [discard_removeEntry, ← hkey]
          apply Relation.ReflTransGen.tail
            (Relation.ReflTransGen.single
              (Move.discard (.unknownNode id) hphase hfilled))
          rcases closeHandle_eq p h with ⟨links, heq, _⟩
          apply Move.forget (c := t.cell) (h := h)
          · unfold discard
            rw [heq]
            exact hgone.1
          · unfold discard
            rw [heq]
            exact hfilled
          · exact isOpen_discard p i h _
        · simp only [hstale]
          exact htake

theorem moves_resume {p q : Pool} {i : Nat} {t : Ticket}
    (hphase : p.phase? i = some (.queued t))
    (h : p.resume i t = some q) : Moves p q := by
  unfold resume at h
  cases hcell : p.cells[t.cell]? with
  | none => simp [hcell] at h
  | some cell =>
      rcases cell with ⟨handle, owner, queue⟩
      cases handle with
      | some n =>
          simp only [hcell, Option.some.injEq] at h
          subst h
          exact moves_conclude hphase (cellHandle?_eq_some.mpr ⟨_, hcell, rfl⟩)
      | none =>
          simp only [hcell] at h
          by_cases howner : owner = some i
          · rw [if_pos howner, Option.some.injEq] at h
            subst h
            exact Relation.ReflTransGen.single
              (Move.promote hphase hcell howner)
          · rw [if_neg howner] at h
            cases h

/-!
## Calls that open a connection
-/

theorem moves_establish {p : Pool} {i l : Nat} {t : Ticket} {cell : Cell}
    (hphase : p.phase? i = some (.authenticating t l))
    (hcell : p.cells[t.cell]? = some cell) :
    Moves p (p.establish i t l) := by
  apply Relation.ReflTransGen.head (Move.fill hphase)
  have hconclude := conclude_setPhase
    { p with
      handles := p.handles ++ [⟨t.key, t.endpoint, l, p.table⟩]
      cells :=
        p.cells.modify t.cell (fun _ => { handle := some p.handles.length }) }
    i p.handles.length t (.queued t)
  show Moves _ (conclude _ i t p.handles.length)
  rw [← hconclude]
  apply moves_conclude
  · exact phase?_setPhase_self (p := { p with
      handles := p.handles ++ [⟨t.key, t.endpoint, l, p.table⟩]
      cells :=
        p.cells.modify t.cell (fun _ => { handle := some p.handles.length }) })
          (.queued t) hphase
  · rw [cellHandle?_eq_some]
    exists { handle := some p.handles.length }
    constructor
    · show (p.cells.modify t.cell _)[t.cell]? = _
      simp [hcell]
    · rfl

theorem moves_linked {p : Pool} {i : Nat} {t : Ticket} {cell : Cell}
    (hphase : p.phase? i = some (.connecting t))
    (hcell : p.cells[t.cell]? = some cell) :
    Moves p (p.linked i t) := by
  unfold linked
  cases t.endpoint.credential with
  | some password => exact Relation.ReflTransGen.single (Move.dial hphase)
  | none =>
      apply Relation.ReflTransGen.head (Move.dial hphase)
      simp only
      rw [← establish_setPhase _ i p.links.length t
        (.authenticating t p.links.length)]
      have hasked :
          phase? { p with links := p.links ++ [{ endpoint := t.endpoint }] } i =
            some (.connecting t) :=
        hphase
      exact moves_establish
        (phase?_setPhase_self (.authenticating t p.links.length) hasked) hcell

theorem relink_modify (p : Pool) (l : Nat) {f : Link -> Link}
    (hf : forall link, (f link).isOpen = true -> link.isOpen = true) :
    Move p { p with links := p.links.modify l f } := by
  apply Move.relink
  · exact List.length_modify ..
  · intro m hm
    rcases isLinkOpen_iff.mp hm with ⟨link, hlink, hopen⟩
    rw [List.getElem?_modify, Option.map_eq_map,
      Option.map_eq_some_iff] at hlink
    rcases hlink with ⟨old, hold, hnew⟩
    rw [isLinkOpen_iff]
    exists old, hold
    rw [← hnew] at hopen
    by_cases h : l = m
    · rw [if_pos h] at hopen
      exact hf old hopen
    · rw [if_neg h] at hopen
      exact hopen

theorem moves_accepted {p : Pool} {i l : Nat} {t : Ticket} {cell : Cell}
    (hphase : p.phase? i = some (.authenticating t l))
    (hcell : p.cells[t.cell]? = some cell) :
    Moves p (p.accepted i t l) := by
  unfold accepted
  apply Relation.ReflTransGen.head
    (relink_modify p l (f := fun link => { link with isAuthenticated := true })
      (fun _ h => h))
  exact moves_establish hphase hcell

theorem relink_closeLink (p : Pool) (l : Nat) : Move p (p.closeLink l) :=
  relink_modify p l
    (f :=
      fun link => { link with isOpen := false, closings := link.closings + 1 })
    (fun _ h => by cases h)

theorem moves_closeHandle (p : Pool) (h : Nat) : Moves p (p.closeHandle h) := by
  unfold closeHandle
  cases p.handles[h]? with
  | none => exact Relation.ReflTransGen.refl
  | some handle =>
      exact Relation.ReflTransGen.single (relink_closeLink p handle.link)

theorem moves_refused {p : Pool} {i l : Nat} {t : Ticket} (error : ClusterError)
    (hphase : p.phase? i = some (.authenticating t l)) :
    Moves p (p.refused i t l error) := by
  apply Relation.ReflTransGen.tail
    (Relation.ReflTransGen.single (relink_closeLink p l))
  apply Move.reject
  · exact hphase
  · rw [isLinkOpen_closeLink]
    simp

/-!
## Calls that begin
-/

theorem modify_last {α : Type} (items : List α) (a : α) (f : α -> α) :
    (items ++ [a]).modify items.length f = items ++ [f a] := by
  induction items with
  | nil => rfl
  | cons b rest ih => simpa using ih

theorem enter_openCell (p : Pool) (target key : Target) (endpoint : Endpoint) :
    (({ p with
      entries := p.entries ++ [(key, p.cells.length)]
      cells := p.cells ++ [{}] } : Pool).addCall
        target (.queued ⟨key, endpoint, p.cells.length⟩)).enter p.calls.length
        ⟨key, endpoint, p.cells.length⟩ =
      p.openCell target ⟨key, endpoint, p.cells.length⟩ := by
  have hcell :
      (p.cells ++ [({} : Cell)])[p.cells.length]? = some ⟨none, none, []⟩ :=
    List.getElem?_concat_length
  unfold enter addCall
  simp only [hcell]
  unfold openCell modifyCell setPhase
  simp only [modify_last]

theorem request_of_free {p : Pool} {target key : Target} {endpoint : Endpoint}
    (hopen : p.isClosed = false)
    (hresolve : target.resolve p.table.table p.fallback = .ok (key, endpoint))
    (hfree : p.entry? key = none) :
    p.request target = p.openCell target ⟨key, endpoint, p.cells.length⟩ := by
  have hclaim : p.claimCell key =
      ({ p with
        entries := p.entries ++ [(key, p.cells.length)], cells := p.cells ++
        [{}] }, p.cells.length) := by
    unfold claimCell
    simp only [hfree]
  unfold request
  rw [hopen, hresolve]
  simp only [Bool.false_eq_true, if_false, hclaim]
  exact enter_openCell p target key endpoint

theorem request_of_dead {p : Pool} {target key : Target} {endpoint : Endpoint}
    {c h : Nat} (hopen : p.isClosed = false)
    (hresolve : target.resolve p.table.table p.fallback = .ok (key, endpoint))
    (hentry : p.entry? key = some c) (hfilled : p.cellHandle? c = some h)
    (hdead : p.isOpen h = false) :
    p.request target =
      (p.removeEntry key).openCell target ⟨key, endpoint, p.cells.length⟩ := by
  have hclaim : p.claimCell key =
      ({ p.removeEntry key with
          entries := (p.removeEntry key).entries ++ [(key, p.cells.length)]
          cells := p.cells ++ [{}] },
        p.cells.length) := by
    unfold claimCell
    simp only [hentry, hfilled, hdead]
    rfl
  unfold request
  rw [hopen, hresolve]
  simp only [Bool.false_eq_true, if_false, hclaim]
  exact enter_openCell (p.removeEntry key) target key endpoint

theorem request_of_claim {p : Pool} {target key : Target} {endpoint : Endpoint}
    {c : Nat} (hopen : p.isClosed = false)
    (hresolve : target.resolve p.table.table p.fallback = .ok (key, endpoint))
    (hclaim : p.claimCell key = (p, c)) :
    p.request target =
      (p.addCall target (.queued ⟨key, endpoint, c⟩)).enter p.calls.length
        ⟨key, endpoint, c⟩ := by
  unfold request
  rw [hopen, hresolve]
  simp only [Bool.false_eq_true, if_false, hclaim]

theorem request_of_live {p : Pool} {target key : Target} {endpoint : Endpoint}
    {c h : Nat} (hopen : p.isClosed = false)
    (hresolve : target.resolve p.table.table p.fallback = .ok (key, endpoint))
    (hentry : p.entry? key = some c) (hfilled : p.cellHandle? c = some h)
    (hlive : p.isOpen h = true) :
    p.request target =
      (p.addCall target (.queued ⟨key, endpoint, c⟩)).conclude p.calls.length
        ⟨key, endpoint, c⟩ h := by
  have hclaim : p.claimCell key = (p, c) := by
    unfold claimCell
    simp only [hentry, hfilled, hlive, if_true]
  rw [request_of_claim hopen hresolve hclaim]
  rcases cellHandle?_eq_some.mp hfilled with ⟨cell, hcell, hhandle⟩
  have hcell' : (p.addCall target (.queued ⟨key, endpoint, c⟩)).cells[c]? =
      some ⟨some h, cell.owner, cell.queue⟩ := by
    rw [← hhandle]
    exact hcell
  unfold enter
  simp only [hcell']

theorem request_of_owned {p : Pool} {target key : Target} {endpoint : Endpoint}
    {c owner : Nat} {cell : Cell} (hopen : p.isClosed = false)
    (hresolve : target.resolve p.table.table p.fallback = .ok (key, endpoint))
    (hentry : p.entry? key = some c) (hcell : p.cells[c]? = some cell)
    (hhandle : cell.handle = none) (howner : cell.owner = some owner) :
    p.request target =
      (p.addCall target (.queued ⟨key, endpoint, c⟩)).modifyCell c
        (fun cell =>
          { cell with queue := cell.queue ++ [p.calls.length] }) := by
  have hempty : p.cellHandle? c = none := by
    unfold cellHandle?
    simp [hcell, hhandle]
  have hclaim : p.claimCell key = (p, c) := by
    unfold claimCell
    simp only [hentry, hempty]
  rw [request_of_claim hopen hresolve hclaim]
  have hcell' : (p.addCall target (.queued ⟨key, endpoint, c⟩)).cells[c]? =
      some ⟨none, some owner, cell.queue⟩ := by
    rw [← hhandle, ← howner]
    exact hcell
  unfold enter
  simp only [hcell']

/-- What a call does when it begins, in a pool whose cells with entries have a
connection or an owner. -/
inductive Requested (p : Pool) (target : Target) : Pool -> Prop where
  | shut (closed : p.isClosed = true) :
      Requested p target (p.addCall target (.finished (.error .shutdown)))
  | unresolved {e : ClusterError}
      (openPool : p.isClosed = false)
      (unknown : target.resolve p.table.table p.fallback = .error e) :
      Requested p target (p.addCall target (.finished (.error e)))
  | found {key : Target} {endpoint : Endpoint}
      (openPool : p.isClosed = false)
      (resolve : target.resolve p.table.table p.fallback = .ok (key, endpoint))
      (free : p.entry? key = none) :
      Requested p target
        (p.openCell target ⟨key, endpoint, p.cells.length⟩)
  | replaced {key : Target} {endpoint : Endpoint} {c h : Nat}
      (openPool : p.isClosed = false)
      (resolve : target.resolve p.table.table p.fallback = .ok (key, endpoint))
      (entry : p.entry? key = some c)
      (filled : p.cellHandle? c = some h)
      (dead : p.isOpen h = false) :
      Requested p target
        ((p.removeEntry key).openCell target ⟨key, endpoint, p.cells.length⟩)
  | waits {key : Target} {endpoint : Endpoint} {c owner : Nat} {cell : Cell}
      (openPool : p.isClosed = false)
      (resolve : target.resolve p.table.table p.fallback = .ok (key, endpoint))
      (entry : p.entry? key = some c)
      (found : p.cells[c]? = some cell)
      (empty : cell.handle = none)
      (owned : cell.owner = some owner) :
      Requested p target
        ((p.addCall target (.queued ⟨key, endpoint, c⟩)).modifyCell c
          (fun cell => { cell with queue := cell.queue ++ [p.calls.length] }))
  | shares {key : Target} {endpoint : Endpoint} {c h : Nat}
      (openPool : p.isClosed = false)
      (resolve : target.resolve p.table.table p.fallback = .ok (key, endpoint))
      (entry : p.entry? key = some c)
      (filled : p.cellHandle? c = some h)
      (live : p.isOpen h = true) :
      Requested p target
        ((p.addCall target (.queued ⟨key, endpoint, c⟩)).conclude
          p.calls.length ⟨key, endpoint, c⟩ h)

theorem requested_of_entry {p : Pool} {target key : Target}
    {endpoint : Endpoint} {c : Nat} (hmanned : p.Manned)
    (hopen : p.isClosed = false)
    (hresolve : target.resolve p.table.table p.fallback = .ok (key, endpoint))
    (hentry : p.entry? key = some c) :
    Requested p target (p.request target) := by
  rcases hmanned hentry with ⟨cell, hcell, hinterest⟩
  cases hhandle : cell.handle with
  | some h =>
      have hfilled : p.cellHandle? c = some h :=
        cellHandle?_eq_some.mpr ⟨cell, hcell, hhandle⟩
      cases hlive : p.isOpen h with
      | false =>
          rw [request_of_dead hopen hresolve hentry hfilled hlive]
          exact Requested.replaced hopen hresolve hentry hfilled hlive
      | true =>
          rw [request_of_live hopen hresolve hentry hfilled hlive]
          exact Requested.shares hopen hresolve hentry hfilled hlive
  | none =>
      rcases Option.ne_none_iff_exists'.mp
        (hinterest.resolve_left (fun h => h hhandle)) with ⟨owner, howner⟩
      rw [request_of_owned hopen hresolve hentry hcell hhandle howner]
      exact Requested.waits hopen hresolve hentry hcell hhandle howner

theorem requested {p : Pool} (target : Target) (hmanned : p.Manned) :
    Requested p target (p.request target) := by
  cases hclosed : p.isClosed with
  | true =>
      unfold request
      rw [hclosed]
      exact Requested.shut hclosed
  | false =>
      cases hresolve : target.resolve p.table.table p.fallback with
      | error e =>
          unfold request
          rw [hclosed, hresolve]
          exact Requested.unresolved hclosed hresolve
      | ok resolved =>
          rcases resolved with ⟨key, endpoint⟩
          cases hentry : p.entry? key with
          | none =>
              rw [request_of_free hclosed hresolve hentry]
              exact Requested.found hclosed hresolve hentry
          | some c => exact requested_of_entry hmanned hclosed hresolve hentry

theorem moves_request {p : Pool} (target : Target) (hmanned : p.Manned) :
    Moves p (p.request target) := by
  have hrequested := requested target hmanned
  generalize p.request target = q at hrequested
  cases hrequested with
  | shut _ => exact Relation.ReflTransGen.single (Move.refuse target _)
  | unresolved _ _ => exact Relation.ReflTransGen.single (Move.refuse target _)
  | found openPool _ free =>
      exact Relation.ReflTransGen.single (Move.found target openPool rfl free)
  | replaced openPool _ entry filled dead =>
      apply Relation.ReflTransGen.head (Move.forget entry filled dead)
      apply Relation.ReflTransGen.single
      apply Move.found target
      · exact openPool
      · rfl
      · simp
  | @waits key endpoint c _ _ _ _ entry found empty owned =>
      exact Relation.ReflTransGen.single
        (Move.wait (t := ⟨key, endpoint, c⟩) target entry found empty owned)
  | @shares key endpoint c _ _ _ entry filled _ =>
      apply Relation.ReflTransGen.head
        (Move.arrive (t := ⟨key, endpoint, c⟩) target entry (by simp [filled]))
      apply moves_conclude
      · simp
      · exact filled

/-!
## Owners that fail

A failing owner takes the entry away that leads to its cell, and nothing else,
and passes the cell on to the first call of the queue.
-/

def forsake (p : Pool) (t : Ticket) : Pool :=
  if p.entry? t.key = some t.cell then p.removeEntry t.key else p

theorem entry?_forsake (p : Pool) (t : Ticket) (key : Target) :
    Pool.entry? (p.forsake t) key =
      if t.key = key ∧ p.entry? key = some t.cell then none
      else p.entry? key := by
  unfold forsake
  by_cases hentry : p.entry? t.key = some t.cell
  · rw [if_pos hentry, entry?_removeEntry]
    by_cases hkey : t.key = key
    · subst hkey
      simp [hentry]
    · simp [hkey]
  · rw [if_neg hentry, if_neg]
    intro h
    exact hentry (h.1 ▸ h.2)

theorem forsake_eq (p : Pool) (t : Ticket) :
    exists entries, p.forsake t = { p with entries } ∧
      entries.Sublist p.entries := by
  unfold forsake
  by_cases hentry : p.entry? t.key = some t.cell
  · rw [if_pos hentry]
    exact ⟨_, rfl, List.filter_sublist⟩
  · rw [if_neg hentry]
    exact ⟨p.entries, rfl, List.Sublist.refl _⟩

def Cell.passOn (cell : Cell) : Cell :=
  { cell with owner := cell.queue.head?, queue := cell.queue.tail }

/-- The failing owner of an empty cell removes the entry, passes the cell on and
ends. -/
theorem fail_eq {p : Pool} {t : Ticket} (i : Nat) (error : ClusterError)
    (hempty : p.cellHandle? t.cell = none) :
    p.fail i t error = ((p.forsake t).modifyCell t.cell Cell.passOn).setPhase i
      (.finished (.error error)) := by
  have hstill : (p.modifyCell t.cell Cell.passOn).cellHandle? t.cell = none :=
    (cellHandle?_modifyCell p t.cell (f := Cell.passOn)
      (fun _ => rfl) t.cell).trans hempty
  unfold fail forsake
  change setPhase
      (if (decide (p.entry? t.key = some t.cell) &&
        ((p.modifyCell t.cell Cell.passOn).cellHandle? t.cell).isNone) =
          true then
      (p.modifyCell t.cell Cell.passOn).removeEntry t.key
    else
      p.modifyCell t.cell Cell.passOn) i _ = _
  rw [hstill]
  by_cases h : p.entry? t.key = some t.cell
  · simp only [h, decide_true, Option.isNone_none, Bool.and_self, if_true]
    rfl
  · simp only [h, decide_false, Bool.false_and, Bool.false_eq_true, if_false]

theorem entry?_fail {p : Pool} {t : Ticket} (i : Nat) (error : ClusterError)
    (hempty : p.cellHandle? t.cell = none) (key : Target) :
    Pool.entry? (p.fail i t error) key =
      if t.key = key ∧ p.entry? key = some t.cell then none
      else p.entry? key := by
  rw [fail_eq i error hempty]
  exact entry?_forsake p t key

theorem phase?_fail {p : Pool} {t : Ticket} {i : Nat} {old : Phase}
    (error : ClusterError) (hempty : p.cellHandle? t.cell = none)
    (hi : p.phase? i = some old) (j : Nat) :
    (p.fail i t error).phase? j =
      if i = j then some (.finished (.error error)) else p.phase? j := by
  rcases forsake_eq p t with ⟨entries, heq, _⟩
  rw [fail_eq i error hempty, heq]
  exact phase?_setPhase_of_some
    (p := modifyCell { p with entries } t.cell Cell.passOn) _ hi j

theorem cells_fail {p : Pool} {t : Ticket} {cell : Cell} (i : Nat)
    (error : ClusterError) (hempty : p.cellHandle? t.cell = none)
    (hcell : p.cells[t.cell]? = some cell) (c : Nat) :
    (p.fail i t error).cells[c]? =
      if t.cell = c then some cell.passOn else p.cells[c]? := by
  rcases forsake_eq p t with ⟨entries, heq, _⟩
  rw [fail_eq i error hempty, heq]
  change (modifyCell { p with entries } t.cell Cell.passOn).cells[c]? = _
  rw [cells_modifyCell]
  by_cases hc : t.cell = c
  · subst hc
    rw [if_pos rfl, if_pos rfl]
    change (p.cells[t.cell]?).map _ = _
    rw [hcell]
    rfl
  · rw [if_neg hc, if_neg hc]

end Pool
end SlotCluster
