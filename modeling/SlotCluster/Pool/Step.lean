import SlotCluster.Pool.State
import SlotCluster.Run

/-!
# Steps of a connection pool

A pool moves in steps that nothing can interrupt: a step is what a call does
between two points at which it waits.  A step begins when somebody calls the
pool or when the outside answers what a call waits for, and it lasts until every
call waits again.  No call is given up midway: whoever has called the pool waits
for the end of the call.  Runs of a pool are sequences of such steps in any
order, so whatever holds after every step holds at every moment that others can
observe.

The entries of a pool are a map, which has no order of its own.  They are listed
in one, and it may change at any time; a sweep and the end of the pool take the
entries in the order in which they find them.

`Pool.step` refuses an event that nobody waits for.
-/

namespace SlotCluster
namespace Pool

/-! ## Calls -/

/-- The cell for a key.  A key without an entry gets a new cell, and so does a
key whose connection is no longer open. -/
def claimCell (p : Pool) (key : Target) : Pool × Nat :=
  let fresh (p : Pool) : Pool × Nat :=
    ({ p with
      entries := p.entries ++ [(key, p.cells.length)]
      cells := p.cells ++ [{}] }, p.cells.length)
  match p.entry? key with
  | none => fresh p
  | some cell =>
      match p.cellHandle? cell with
      | some handle =>
          if p.isOpen handle then (p, cell) else fresh (p.removeEntry key)
      | none => (p, cell)

/-- Close a connection that a call must not hand out. -/
def discard (p : Pool) (call handle : Nat) (error : ClusterError) : Pool :=
  (p.closeHandle handle).setPhase call (.discarding handle error)

def evictedError (ticket : Ticket) : ClusterError :=
  .connection ticket.endpoint.addr
    ("connection to " ++ ticket.key.render ++ " was evicted while opening")

/-- Let a call hand out the connection of its cell, if the entry is still there,
the pool is not closed and the table still knows the node. -/
def conclude (p : Pool) (call : Nat) (ticket : Ticket) (handle : Nat) : Pool :=
  if p.entry? ticket.key ≠ some ticket.cell || p.isClosed then
    p.discard call handle (evictedError ticket)
  else
    match ticket.key with
    | .node id =>
        if ticket.key.isStale p.table.table then
          (p.removeEntry ticket.key).discard call handle (.unknownNode id)
        else
          p.setPhase call (.finished (.ok handle))
    | .address _ _ => p.setPhase call (.finished (.ok handle))

/-- Let a call look at its cell: take the connection, become the owner, or queue
up. -/
def enter (p : Pool) (call : Nat) (ticket : Ticket) : Pool :=
  match p.cells[ticket.cell]? with
  | some ⟨some handle, _, _⟩ => p.conclude call ticket handle
  | some ⟨none, none, _⟩ =>
      (p.modifyCell ticket.cell
        (fun c => { c with owner := some call })).setPhase call
        (.connecting ticket)
  | _ =>
      p.modifyCell ticket.cell (fun c => { c with queue := c.queue ++ [call] })

def request (p : Pool) (target : Target) : Pool :=
  if p.isClosed then
    p.addCall target (.finished (.error .shutdown))
  else
    match target.resolve p.table.table p.fallback with
    | .error e => p.addCall target (.finished (.error e))
    | .ok (key, endpoint) =>
        let (p, cell) := p.claimCell key
        (p.addCall target (.queued ⟨key, endpoint, cell⟩)).enter p.calls.length
          ⟨key, endpoint, cell⟩

/-- Let a queued call go on, if its cell has a connection or the call has become
the owner. -/
def resume (p : Pool) (call : Nat) (ticket : Ticket) : Option Pool :=
  match p.cells[ticket.cell]? with
  | some ⟨some handle, _, _⟩ => some (p.conclude call ticket handle)
  | some ⟨none, owner, _⟩ =>
      if owner = some call then
        some (p.setPhase call (.connecting ticket))
      else
        none
  | none => none

/-- Let the owner of a cell fail.  The next call in the queue becomes the owner,
and the entry goes away if it still leads to the cell and the cell is empty. -/
def fail (p : Pool) (call : Nat) (ticket : Ticket)
    (error : ClusterError) : Pool :=
  let p :=
    p.modifyCell ticket.cell
      (fun c => { c with owner := c.queue.head?, queue := c.queue.tail })
  let p :=
    if p.entry? ticket.key = some ticket.cell &&
        (p.cellHandle? ticket.cell).isNone then
      p.removeEntry ticket.key
    else
      p
  p.setPhase call (.finished (.error error))

/-- Put an open link into the cell.  The new handle reports the table of this
moment. -/
def establish (p : Pool) (call : Nat) (ticket : Ticket) (link : Nat) : Pool :=
  let opened : Handle := ⟨ticket.key, ticket.endpoint, link, p.table⟩
  let filled : Cell := { handle := some p.handles.length }
  conclude
    { p with
      handles := p.handles ++ [opened]
      cells := p.cells.modify ticket.cell (fun _ => filled) }
    call ticket p.handles.length

/-- A link has been opened; the credential comes first, if there is one. -/
def linked (p : Pool) (call : Nat) (ticket : Ticket) : Pool :=
  let link := p.links.length
  let opened : Link := { endpoint := ticket.endpoint }
  let p : Pool := { p with links := p.links ++ [opened] }
  match ticket.endpoint.credential with
  | some _ => p.setPhase call (.authenticating ticket link)
  | none => p.establish call ticket link

/-- The node has accepted the credential. -/
def accepted (p : Pool) (call : Nat) (ticket : Ticket) (link : Nat) : Pool :=
  let links := p.links.modify link (fun l => { l with isAuthenticated := true })
  establish { p with links } call ticket link

/-- The credential handshake has failed; the link is closed first. -/
def refused (p : Pool) (call : Nat) (ticket : Ticket) (link : Nat)
    (error : ClusterError) : Pool :=
  (p.closeLink link).setPhase call
    (.rejecting ticket link (.ofHandshake ticket.endpoint error))

/-! ## Tables -/

def informCells (p : Pool) (table : Shared) (cells : List Nat) : Pool :=
  { p with
    handles := p.handles.mapIdx (fun i h =>
      if cells.any (fun cell => p.cellHandle? cell = some i) then
        { h with table }
      else
        h) }

/-- Make a table the table of the pool and of every connection in it. -/
def apply (p : Pool) (table : Shared) : Pool :=
  informCells { p with table } table (p.entries.map Prod.snd)

/-! ## Cleanups -/

/-- Remove the entry that a chore is about, if there is one, and name its
cell. -/
def takeChore (p : Pool) : Chore -> Pool × Option Nat
  | .cell cell => (p, some cell)
  | .key key => (p.removeEntry key, p.entry? key)

/-- Do chores up to the first connection that has to be closed.  Returns the
chores after it and its link. -/
def runChores (p : Pool) : List Chore -> Pool × List Chore × Option Nat
  | [] => (p, [], none)
  | chore :: rest =>
      let (p, cell) := p.takeChore chore
      match (cell.bind p.cellHandle?).bind
          (fun handle => p.handles[handle]?) with
      | some handle => (p.closeLink handle.link, rest, some handle.link)
      | none => runChores p rest

def beginCleanup (p : Pool) (chores : List Chore) (evicted : Nat) : Pool :=
  let (p, chores, closing) := p.runChores chores
  { p with cleanups := p.cleanups ++ [{ chores, closing, evicted }] }

def continueCleanup (p : Pool) (cleanup : Nat) (c : Cleanup) : Pool :=
  let (p, chores, closing) := p.runChores c.chores
  { p with cleanups := p.cleanups.set cleanup { c with chores, closing } }

/-- Remove the entries whose target a table does not know and close their
connections. -/
def sweep (p : Pool) (table : Table) : Pool :=
  let stale := p.entries.filter (fun e => e.1.isStale table)
  let entries := p.entries.filter (fun e => !e.1.isStale table)
  beginCleanup { p with entries } (stale.map (fun e => .cell e.2)) stale.length

def drain (p : Pool) : Pool :=
  beginCleanup { p with isClosed := true } (p.entries.map (fun e => .key e.1)) 0

/-! ## The order of the entries -/

/-- List the entries in another order.  Every key leads where it did. -/
def reorder (p : Pool) (entries : List (Target × Nat)) : Option Pool :=
  let q := { p with entries }
  if entries.isPerm p.entries &&
      entries.all (fun e => q.entry? e.1 = p.entry? e.1) then
    some q
  else
    none

/-! ## Events -/

/-- What can happen to a pool, from one point at which calls wait to the next.
No event gives a call up. -/
inductive Event where
  /-- Somebody asks for the connection to a target. -/
  | request (target : Target)
  /-- A queued call goes on. -/
  | resume (call : Nat)
  /-- The link that a call asked for is open. -/
  | linked (call : Nat)
  /-- The link that a call asked for cannot be opened. -/
  | notLinked (call : Nat) (error : ClusterError)
  /-- The node has accepted the credential. -/
  | accepted (call : Nat)
  /-- The credential handshake has failed. -/
  | refused (call : Nat) (error : ClusterError)
  /-- The close that a call waits for is done. -/
  | closed (call : Nat)
  | apply (table : Shared)
  | sweep (table : Table)
  | drain
  /-- The close that a cleanup waits for is done. -/
  | cleaned (cleanup : Nat)
  /-- A link has closed by itself. -/
  | broke (link : Nat)
  /-- The holder of a handle closes it. -/
  | closeHandle (handle : Nat)
  /-- The entries are found in another order from now on. -/
  | reordered (entries : List (Target × Nat))
  deriving Repr

/-- The pool after an event. -/
def step (p : Pool) : Event -> Option Pool
  | .request target => some (p.request target)
  | .resume call =>
      match p.phase? call with
      | some (.queued ticket) => p.resume call ticket
      | _ => none
  | .linked call =>
      match p.phase? call with
      | some (.connecting ticket) => some (p.linked call ticket)
      | _ => none
  | .notLinked call error =>
      match p.phase? call with
      | some (.connecting ticket) => some (p.fail call ticket error)
      | _ => none
  | .accepted call =>
      match p.phase? call with
      | some (.authenticating ticket link) => some (p.accepted call ticket link)
      | _ => none
  | .refused call error =>
      match p.phase? call with
      | some (.authenticating ticket link) =>
          some (p.refused call ticket link error)
      | _ => none
  | .closed call =>
      match p.phase? call with
      | some (.rejecting ticket _ error) => some (p.fail call ticket error)
      | some (.discarding _ error) =>
          some (p.setPhase call (.finished (.error error)))
      | _ => none
  | .apply table => some (p.apply table)
  | .sweep table => some (p.sweep table)
  | .drain => some p.drain
  | .cleaned cleanup =>
      match p.cleanups[cleanup]? with
      | some c =>
          if c.closing.isSome then some (p.continueCleanup cleanup c) else none
      | none => none
  | .broke link =>
      if p.isLinkOpen link then
        some { p with
          links := p.links.modify link (fun l => { l with isOpen := false }) }
      else
        none
  | .closeHandle handle => some (p.closeHandle handle)
  | .reordered entries => p.reorder entries

/-- The pool after a sequence of events. -/
def run (p : Pool) (events : List Event) : Option Pool :=
  SlotCluster.run step p events

end Pool
end SlotCluster
