import SlotCluster.Rehearsal.World

/-!
# What callers see

Answers to the steps of a rehearsal.  Tables are shown with a number: tables
with one number are one table, and numbers are given in the order in which
callers first see the tables.
-/

namespace SlotCluster
namespace Rehearsal

/-- A table as callers see it. -/
structure TableView where
  number : Nat
  ids : List String
  unassigned : Nat
  deriving Repr

/-- A handle as callers see it. -/
structure HandleView where
  target : Target
  endpoint : Endpoint
  isOpen : Bool
  table : TableView
  description : String
  deriving Repr

/-- A session as callers see it. -/
structure SessionView where
  isOpen : Bool
  description : String
  poolSize : Nat
  isPoolClosed : Bool
  table : TableView
  connected : List Bool
  deriving Repr

/-- A client as callers see it. -/
structure ClientView where
  isActive : Bool
  isRefreshing : Bool
  timeout : Duration
  seeds : List Endpoint
  settings : Settings
  bootstrap : Endpoint
  sessions : List Nat
  deriving Repr

/-- A registry as callers see it after something was done to it. -/
structure BookView where
  /-- A session that was removed. -/
  removed : Option Nat := none
  /-- Sessions that were drained. -/
  drained : Option (List Nat) := none
  /-- All sessions, and whether they are open. -/
  states : Option (List (Nat × Bool)) := none
  sessions : List Nat
  deriving Repr

/-- The answer to a step. -/
inductive Answer where
  | nothing
  | flag (value : Bool)
  | count (value : Nat)
  | table (table : TableView)
  | session (id : Nat) (table : TableView)
  | reply (value : Resp.Value)
  | replies (results : List (String × Except ClusterError Resp.Value))
  | opened (handle : HandleView) (sameAs : List String)
  | handle (handle : HandleView)
  | target (target : Target)
  | inspected (session : SessionView)
  | client (client : ClientView)
  | book (book : BookView)
  | failed (error : ClusterError)
  | invalidView (error : TopologyError)
  /-- There is no such thing. -/
  | missing (what : String)
  | all (answers : List Answer)
  deriving Repr

namespace World

/-- Show a table, with a new number if nobody has seen it before. -/
def showTable (w : World) (t : Shared) : World × TableView :=
  let known :=
    if w.known.contains t.stamp then w.known else w.known ++ [t.stamp]
  ({ w with known },
    ⟨known.idxOf t.stamp, t.table.nodes.map Node.id, t.table.unassigned⟩)

def describeHandle (h : Handle) : String :=
  "ConnectionHandle \x7b target: " ++ h.target.describe ++ ", endpoint: " ++
    Text.quoted h.endpoint.addr ++ " \x7d"

def showHandle (w : World) (session handle : Nat) : World × Option HandleView :=
  match w.client.session? session with
  | none => (w, none)
  | some s =>
      match s.pool.handles[handle]? with
      | none => (w, none)
      | some h =>
          let (w, table) := w.showTable h.table
          (w, some ⟨h.target, h.endpoint, s.pool.isOpen handle, table,
            describeHandle h⟩)

def boolText (b : Bool) : String :=
  if b then "true" else "false"

def describeSession (id : Nat) (s : Session) : String :=
  "ClusterConnection \x7b id: " ++ toString id ++ ", open: " ++
    boolText (!s.isClosed) ++ ", node_connections: " ++
    toString s.pool.size ++ " \x7d"

def showSession (w : World) (id : Nat) (s : Session) (targets : List Target) :
    World × SessionView :=
  let (w, table) := w.showTable s.pool.table
  (w,
    { isOpen := !s.isClosed
      description := describeSession id s
      poolSize := s.pool.size
      isPoolClosed := s.pool.isClosed
      table
      connected := targets.map s.pool.isConnected })

def showClient (w : World) : ClientView :=
  let c := w.client
  { isActive := c.isActive
    isRefreshing := c.scheduler.isActivated
    timeout := c.timeout
    seeds := c.seeds
    settings := c.settings
    bootstrap := c.bootstrapEndpoint
    sessions := c.registry.mergeSort }

def showOutcome (w : World) : Client.Outcome -> World × Answer
  | .table t =>
      let (w, table) := w.showTable t
      (w, .table table)
  | .session id =>
      match w.client.session? id with
      | some s =>
          let (w, table) := w.showTable s.pool.table
          ({ w with kept := w.kept ++ [id] }, .session id table)
      | none => (w, .nothing)
  | .refreshed changed => (w, .flag changed)
  | .evicted count => (w, .count count)
  | .done => (w, .nothing)
  | .failed e => (w, .failed e)

/-- The answer of a call that has ended.  The handle is kept if it gets a
name. -/
def showCall (w : World) (session : Nat) (name : Option String) :
    Except ClusterError Nat -> World × Answer
  | .error e => (w, .failed e)
  | .ok handle =>
      match w.showHandle session handle with
      | (w, none) => (w, .nothing)
      | (w, some view) =>
          let same := w.names.filter (fun n => n.2 = (session, handle))
          let names :=
            match name with
            | some name =>
                (name, session, handle) :: w.names.filter (fun n => n.1 ≠ name)
            | none => w.names
          ({ w with names },
            .opened view
              ((same.map Prod.fst).mergeSort (fun a b => (compare a b).isLE)))

def showReply : Except ClusterError Resp.Value -> Answer
  | .ok value => .reply value
  | .error e => .failed e

end World
end Rehearsal
end SlotCluster
