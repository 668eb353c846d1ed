import SlotCluster.Client.Scheduler
import SlotCluster.Client.Session
import SlotCluster.Discovery.Views

/-!
# State of a client

A client holds the latest table, the sessions that use it, and a lock that lets
one load run at a time.  Sessions are numbered from one in the order in which
they were opened; the registry lists those that are still open.

What callers have asked for and what the client does on its own are *tasks*.  A
task moves in steps that nothing can interrupt, and between two steps its phase
tells what it waits for.
-/

namespace SlotCluster
namespace Client

/-- What a load is for. -/
inductive Purpose where
  /-- Somebody needs a table. -/
  | table
  /-- Somebody opens a session. -/
  | session
  /-- Somebody wants a new table, whether there is one or not. -/
  | reload
  deriving DecidableEq, Repr

/-- Why a task visits sessions one after the other. -/
inductive Tour where
  /-- To close connections to nodes that have left the table. -/
  | sweep
  /-- To close a session that is no longer needed. -/
  | close
  /-- To close all sessions at the end of the client. -/
  | shutdown
  /-- To close a session that was opened too late. -/
  | abandon
  deriving DecidableEq, Repr

/-- The result of a task. -/
inductive Outcome where
  | table (table : Shared)
  | session (id : Nat)
  | refreshed (changed : Bool)
  | evicted (count : Nat)
  | done
  | failed (error : ClusterError)
  deriving Repr

/-- What a task is doing. -/
inductive Phase where
  /-- Waits for its turn to load. -/
  | queued (purpose : Purpose)
  /-- Asks the seeds for their views. -/
  | loading (purpose : Purpose)
  /-- Asks candidates for their views, to renew the table. -/
  | refreshing (candidates : List Endpoint) (scheduled : Bool)
  /-- Has been started and has not run yet. -/
  | spawned (sessions : List Nat)
  /-- Visits a session, waits for its cleanup, and visits the others after
  it. -/
  | touring (tour : Tour) (session cleanup : Nat) (rest : List Nat)
  /-- Waits for a cleanup of one pool, whose evictions count or not. -/
  | cleaning (session cleanup : Nat) (counts : Bool)
  | finished (outcome : Outcome)
  deriving Repr

end Client

/-- A client of a cluster. -/
structure Client where
  settings : Settings
  seeds : List Endpoint
  /-- How long a command may take. -/
  timeout : Duration
  scheduler : Scheduler
  table : Option Shared := none
  isActive : Bool := true
  /-- Whether somebody still holds the client. -/
  isHeld : Bool := true
  /-- How many tables have got a stamp. -/
  stamps : Nat := 0
  /-- All sessions; the one with number `n` is at position `n - 1`. -/
  sessions : List Session := []
  /-- The numbers of the open sessions. -/
  registry : List Nat := []
  /-- The task that may load. -/
  loader : Option Nat := none
  /-- Tasks that wait to load, the oldest first. -/
  waiters : List Nat := []
  tasks : List Client.Phase := []
  deriving Repr

namespace Client

def start (settings : Settings) : Except ClusterError Client :=
  match settings.validate with
  | .error e => .error (.config e)
  | .ok () =>
      let seeds := settings.seedEndpoints
      let usual := (seeds.head?.map Endpoint.timeout).getD (.ofSeconds 60)
      .ok
        { settings
          seeds
          timeout := settings.commandTimeout.getD usual
          scheduler := { period := settings.refreshPeriod } }

def session? (c : Client) (id : Nat) : Option Session :=
  match id with
  | 0 => none
  | position + 1 => c.sessions[position]?

def modifySession (c : Client) (id : Nat) (f : Session -> Session) : Client :=
  match id with
  | 0 => c
  | position + 1 => { c with sessions := c.sessions.modify position f }

def phase? (c : Client) (task : Nat) : Option Phase :=
  c.tasks[task]?

def setPhase (c : Client) (task : Nat) (phase : Phase) : Client :=
  { c with tasks := c.tasks.set task phase }

/-- The client with one more task, whose number is the number of tasks
before. -/
def addTask (c : Client) (phase : Phase) : Client :=
  { c with tasks := c.tasks ++ [phase] }

def outcome? (c : Client) (task : Nat) : Option Outcome :=
  match c.phase? task with
  | some (.finished outcome) => some outcome
  | _ => none

def defaultEndpoint : Endpoint :=
  .atAddress "127.0.0.1" 6379

def firstSeed (c : Client) : Endpoint :=
  c.seeds.head?.getD defaultEndpoint

def Phase.holdsClient : Phase -> Bool
  | .queued _ => true
  | .loading _ => true
  | .refreshing _ _ => true
  | .touring .shutdown _ _ _ => true
  | .touring .abandon _ _ _ => true
  | _ => false

def isGone (c : Client) : Bool :=
  !c.isHeld && !c.tasks.any Phase.holdsClient

/-- Where a new connection begins: the first node of the table, in the order of
addresses, whose address is resolved, and else the first seed. -/
def bootstrapEndpoint (c : Client) : Endpoint :=
  let nodes := (c.table.map (fun t => t.table.orderedNodes)).getD []
  match nodes.find? (fun n => n.endpoint.resolved.isSome) with
  | some n => n.endpoint
  | none => c.firstSeed

/-- Where a session begins that may have outlived its client. -/
def sessionBootstrap (c : Client) : Endpoint :=
  if c.isGone then c.firstSeed else c.bootstrapEndpoint

/-- Whom a refresh asks: the nodes of the table, or the seeds while there is no
node. -/
def refreshCandidates (c : Client) : List Endpoint :=
  match c.table with
  | some t => if t.table.isEmpty then c.seeds else t.table.orderedEndpoints
  | none => c.seeds

/-- What the recurring task finds when it looks for the client. -/
def owner (c : Client) : Scheduler.Owner :=
  if c.isGone then .gone
  else if c.isActive && c.settings.view.refresh then .active
  else .idle

end Client
end SlotCluster
