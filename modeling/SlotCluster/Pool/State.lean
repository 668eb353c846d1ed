import SlotCluster.Pool.Target

/-!
# State of a connection pool

A pool keeps at most one connection for every key.  The place of a connection is
a *cell*.  A cell is empty until the first call that owns it has opened a
connection; calls that come meanwhile queue up, and when the owner fails, the
next of them becomes the owner.

Calls hold on to their cell, but the pool may drop the entry that leads to it at
any time: a failed owner, a sweep, a dead connection and the end of the pool all
do so.  A call that finds its entry gone closes what it has opened.

Cells, handles, links and calls are never forgotten, so a number always means
the same one.  What a call is doing between two steps is its *phase*, and
everything that the outside has to answer is visible in it.
-/

namespace SlotCluster

/-- A transport connection to a node. -/
structure Link where
  endpoint : Endpoint
  isOpen : Bool := true
  /-- Whether the node has accepted the credential. -/
  isAuthenticated : Bool := false
  /-- How often the link has been asked to close. -/
  closings : Nat := 0
  deriving DecidableEq, Repr

/-- A link bound to the node that it was opened for. -/
structure Handle where
  target : Target
  endpoint : Endpoint
  link : Nat
  /-- The table that the handle reports. -/
  table : Shared
  deriving Repr

namespace Pool

/-- The place of one connection. -/
structure Cell where
  /-- The connection, once it is open. -/
  handle : Option Nat := none
  /-- The call that is opening the connection or may do so next. -/
  owner : Option Nat := none
  /-- Calls that wait for the owner, the oldest first. -/
  queue : List Nat := []
  deriving DecidableEq, Repr

/-- What a call has found out about its target. -/
structure Ticket where
  key : Target
  endpoint : Endpoint
  cell : Nat
  deriving DecidableEq, Repr

/-- What a call is doing. -/
inductive Phase where
  /-- Waits for its turn at the cell. -/
  | queued (ticket : Ticket)
  /-- Has asked for a link. -/
  | connecting (ticket : Ticket)
  /-- Has sent the credential. -/
  | authenticating (ticket : Ticket) (link : Nat)
  /-- Closes a link whose node refused the credential. -/
  | rejecting (ticket : Ticket) (link : Nat) (error : ClusterError)
  /-- Closes a connection that must not be handed out. -/
  | discarding (handle : Nat) (error : ClusterError)
  | finished (result : Except ClusterError Nat)
  deriving Repr

/-- A request for the connection to a target. -/
structure Call where
  target : Target
  phase : Phase
  deriving Repr

/-- A place that a cleanup still has to look at. -/
inductive Chore where
  /-- A cell whose entry has been removed. -/
  | cell (cell : Nat)
  /-- A key whose entry is to be removed. -/
  | key (key : Target)
  deriving DecidableEq, Repr

/-- A sweep or the end of the pool, which closes connections one after the
other. -/
structure Cleanup where
  chores : List Chore
  /-- The link that is being closed. -/
  closing : Option Nat := none
  /-- How many entries were removed at the start. -/
  evicted : Nat := 0
  deriving DecidableEq, Repr

end Pool

/-- A connection pool. -/
structure Pool where
  table : Shared
  /-- Settings for addresses that the table does not know. -/
  fallback : Endpoint
  isClosed : Bool := false
  entries : List (Target × Nat) := []
  cells : List Pool.Cell := []
  handles : List Handle := []
  links : List Link := []
  calls : List Pool.Call := []
  cleanups : List Pool.Cleanup := []
  deriving Repr

namespace Pool

def size (p : Pool) : Nat :=
  p.entries.length

def entry? (p : Pool) (key : Target) : Option Nat :=
  (p.entries.find? (fun e => e.1 = key)).map Prod.snd

def cellHandle? (p : Pool) (cell : Nat) : Option Nat :=
  (p.cells[cell]?).bind Cell.handle

def phase? (p : Pool) (call : Nat) : Option Phase :=
  (p.calls[call]?).map Call.phase

def isLinkOpen (p : Pool) (link : Nat) : Bool :=
  (p.links[link]?).any Link.isOpen

def isOpen (p : Pool) (handle : Nat) : Bool :=
  (p.handles[handle]?).any (fun h => p.isLinkOpen h.link)

def isConnected (p : Pool) (target : Target) : Bool :=
  match target.resolve p.table.table p.fallback with
  | .ok (key, _) => ((p.entry? key).bind p.cellHandle?).isSome
  | .error _ => false

/-! ## Changing one part -/

def removeEntry (p : Pool) (key : Target) : Pool :=
  { p with entries := p.entries.filter (fun e => e.1 ≠ key) }

def modifyCell (p : Pool) (cell : Nat) (f : Cell -> Cell) : Pool :=
  { p with cells := p.cells.modify cell f }

def setPhase (p : Pool) (call : Nat) (phase : Phase) : Pool :=
  { p with calls := p.calls.modify call (fun c => { c with phase }) }

/-- The pool with one more call, whose number is the number of calls before. -/
def addCall (p : Pool) (target : Target) (phase : Phase) : Pool :=
  { p with calls := p.calls ++ [⟨target, phase⟩] }

/-- The pool after a link was asked to close.  The link counts as closed from
then on. -/
def closeLink (p : Pool) (link : Nat) : Pool :=
  { p with
    links :=
      p.links.modify link
        (fun l => { l with isOpen := false, closings := l.closings + 1 }) }

def closeHandle (p : Pool) (handle : Nat) : Pool :=
  match p.handles[handle]? with
  | some h => p.closeLink h.link
  | none => p

end Pool
end SlotCluster
