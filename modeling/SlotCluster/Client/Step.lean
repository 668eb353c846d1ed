import SlotCluster.Client.State

/-!
# Steps of a client

Like a pool, a client moves in steps that nothing can interrupt, and a run of it
is a sequence of such steps in any order.

One load runs at a time; whoever comes while it runs waits, and finds the table
that it has brought.  A refresh does not wait for loads.  A reload and a refresh
both hand the new table to the open sessions: a reload only to those whose
topology it changes, a refresh to all of them when the topology of the client
has changed.  Only a refresh closes connections to nodes that have left, and it
does so in a task of its own.
-/

namespace SlotCluster
namespace Client

def stamp (c : Client) (table : Table) : Client × Shared :=
  ({ c with stamps := c.stamps + 1 }, ⟨c.stamps, table⟩)

/-! ## Visiting sessions -/

/-- The session with the number, as a tour leaves it, and the cleanup that it
has begun. -/
def visitOne (c : Client) (tour : Tour) (id : Nat) : Client × Option Nat :=
  match c.session? id with
  | none => (c, none)
  | some s =>
      let cleanup := s.pool.cleanups.length
      match tour with
      | .sweep =>
          (c.modifySession id
            (fun s => s.withPool (s.pool.sweep s.pool.table.table)),
              some cleanup)
      | _ =>
          if s.isClosed then
            (c, none)
          else
            (c.modifySession id Session.close, some cleanup)

def isCleaning (c : Client) (id cleanup : Nat) : Bool :=
  match c.session? id with
  | some s => (s.pool.cleanups[cleanup]?).any (fun k => k.closing.isSome)
  | none => false

def leave (c : Client) (tour : Tour) (id : Nat) : Client :=
  match tour with
  | .sweep => c
  | _ => { c with registry := c.registry.filter (fun r => r ≠ id) }

def tourOutcome : Tour -> Outcome
  | .abandon => .failed .shutdown
  | _ => .done

/-- Let a task visit sessions up to the first one that it has to wait for. -/
def visit (c : Client) (task : Nat) (tour : Tour) : List Nat -> Client
  | [] => c.setPhase task (.finished (tourOutcome tour))
  | id :: rest =>
      match c.visitOne tour id with
      | (c, none) => visit c task tour rest
      | (c, some cleanup) =>
          if c.isCleaning id cleanup then
            c.setPhase task (.touring tour id cleanup rest)
          else visit (c.leave tour id) task tour rest

/-! ## Loading -/

def activateRefresh (c : Client) : Client :=
  if c.settings.view.refresh then
    { c with scheduler := (c.scheduler.activate true).1 }
  else
    c

def release (c : Client) : Client :=
  { c with loader := c.waiters.head?, waiters := c.waiters.tail }

/-- Open a session that uses a table.  A client that has been shut down
meanwhile closes it again. -/
def openSession (c : Client) (task : Nat) (table : Shared) : Client :=
  let c := c.activateRefresh
  let id := c.sessions.length + 1
  let opened := Session.start table c.firstSeed c.timeout
  let c :=
    { c with
      sessions := c.sessions ++ [opened]
      registry := c.registry ++ [id] }
  if c.isActive then
    c.setPhase task (.finished (.session id))
  else
    c.visit task .abandon [id]

def deliverTable (c : Client) (task : Nat) (purpose : Purpose)
    (table : Shared) : Client :=
  match purpose with
  | .session => c.openSession task table
  | _ => c.setPhase task (.finished (.table table))

/-- Let a task begin to load, unless the table that it wanted is there by
now. -/
def enterLoad (c : Client) (task : Nat) (purpose : Purpose) : Client :=
  match purpose, c.table with
  | .reload, _ => c.setPhase task (.loading purpose)
  | _, some table => c.release.deliverTable task purpose table
  | _, none => c.setPhase task (.loading purpose)

def awaitLoad (c : Client) (task : Nat) (purpose : Purpose) : Client :=
  match c.loader with
  | none => { c with loader := some task }.enterLoad task purpose
  | some _ => { c with waiters := c.waiters ++ [task] }

def fetch (c : Client) (purpose : Purpose) : Client :=
  let task := c.tasks.length
  let c := c.addTask (.queued purpose)
  let refused := !c.isActive
  match purpose, c.table with
  | .table, some table => c.deliverTable task purpose table
  | .session, some table =>
      if refused then
        c.setPhase task (.finished (.failed .shutdown))
      else
        c.deliverTable task purpose table
  | _, _ =>
      if refused then
        c.setPhase task (.finished (.failed .shutdown))
      else
        c.awaitLoad task purpose

/-- Hand a table to every session in the registry whose topology it changes. -/
def updateSessions (c : Client) (table : Shared) : Client :=
  c.registry.foldl
    (fun c id =>
      c.modifySession id (fun s =>
        if Table.isChanged s.pool.table.table table.table then
          s.withPool (s.pool.apply table)
        else
          s)) c

def loaded (c : Client) (task : Nat) (purpose : Purpose)
    (views : Discovery.Views) : Client :=
  match views.load c.seeds with
  | .error e => c.release.setPhase task (.finished (.failed e))
  | .ok table =>
      let (c, table) := c.activateRefresh.stamp table
      let c := { c with table := some table }
      match purpose with
      | .reload =>
          (c.updateSessions table).release.deliverTable task purpose table
      | _ => c.release.deliverTable task purpose table

/-! ## Refreshing -/

def refresh (c : Client) (scheduled : Bool) : Client :=
  if c.isActive then
    c.addTask (.refreshing c.refreshCandidates scheduled)
  else
    c.addTask (.finished (.failed .shutdown))

def informSessions (c : Client) (table : Shared) : Client :=
  c.registry.foldl
    (fun c id => c.modifySession id (fun s => s.withPool (s.pool.apply table)))
    c

/-- Put a new table in place and begin to close what has become stale. -/
def replaceTable (c : Client) (table : Table) : Client :=
  let (c, table) := c.stamp table
  let c := { c with table := some table }.informSessions table
  if c.isActive then c.addTask (.spawned c.registry) else c

def isNews (c : Client) (table : Table) : Bool :=
  match c.table with
  | some current => Table.isChanged current.table table
  | none => true

def refreshed (c : Client) (task : Nat) (scheduled : Bool)
    (views : Discovery.Views) : Client :=
  let c :=
    if scheduled then
      { c with scheduler := (c.scheduler.finish).getD c.scheduler }
    else
      c
  match views.canonical? with
  | none => c.setPhase task (.finished (.refreshed false))
  | some table =>
      if c.isNews table then
        (c.replaceTable table).setPhase task (.finished (.refreshed true))
      else
        c.setPhase task (.finished (.refreshed false))

/-! ## The end of a client -/

def abandonScheduled (c : Client) : Client :=
  { c with
    tasks := c.tasks.map (fun phase =>
      match phase with
      | .refreshing _ true => .finished .done
      | other => other) }

/-- Shut the client down: no refresh starts any more, and every session is
closed. -/
def shutdown (c : Client) : Client :=
  let task := c.tasks.length
  if c.isActive then
    let sessions := c.registry
    let c :=
      { c with
        isActive := false
        scheduler := c.scheduler.cancel
        registry := [] }
    (c.abandonScheduled.addTask (.spawned [])).visit task .shutdown sessions
  else
    c.addTask (.finished .done)

/-! ## Events -/

/-- What can happen to a session of a client. -/
inductive SessionEvent where
  | openTarget (target : Target)
  | route (command : Command)
  | sendTo (id : String) (command : Command)
  | sendOn (handle : Nat) (command : Command)
  | sendToMasters (command : Command)
  | begin (delivery : Nat)
  /-- A delivery goes on after its connection was found or not. -/
  | proceed (delivery : Nat)
  | receive (delivery : Nat) (result : Except ClusterError Resp.Value)
  /-- A call of the pool goes on. -/
  | resume (call : Nat)
  | linked (call : Nat)
  | notLinked (call : Nat) (error : ClusterError)
  | accepted (call : Nat)
  | refused (call : Nat) (error : ClusterError)
  | closed (call : Nat)
  /-- A link has closed by itself. -/
  | broke (link : Nat)
  | closeHandle (handle : Nat)
  /-- Somebody hands the session a table of its own. -/
  | apply (table : Shared)
  /-- The entries of the pool are found in another order from now on. -/
  | reordered (entries : List (Target × Nat))
  deriving Repr

/-- The session after an event.  Requests that are refused at once change
nothing. -/
def stepSession (s : Session) : SessionEvent -> Option Session
  | .openTarget target => some (s.openTarget target)
  | .route command =>
      match s.route command with
      | .ok (s, _) => some s
      | .error _ => some s
  | .sendTo id command => some (s.sendTo id command)
  | .sendOn handle command => some (s.sendOn handle command)
  | .sendToMasters command =>
      match s.sendToMasters command with
      | .ok (s, _) => some s
      | .error _ => some s
  | .begin delivery => s.begin delivery
  | .proceed delivery => s.proceed delivery
  | .receive delivery result => s.receive delivery result
  | .resume call => (s.pool.step (.resume call)).map s.withPool
  | .linked call => (s.pool.step (.linked call)).map s.withPool
  | .notLinked call error =>
      (s.pool.step (.notLinked call error)).map s.withPool
  | .accepted call => (s.pool.step (.accepted call)).map s.withPool
  | .refused call error => (s.pool.step (.refused call error)).map s.withPool
  | .closed call => (s.pool.step (.closed call)).map s.withPool
  | .broke link => (s.pool.step (.broke link)).map s.withPool
  | .closeHandle handle => (s.pool.step (.closeHandle handle)).map s.withPool
  | .apply table => (s.pool.step (.apply table)).map s.withPool
  | .reordered entries => (s.pool.step (.reordered entries)).map s.withPool

/-- What can happen to a client. -/
inductive Event where
  /-- Somebody wants a table, a session or a reload. -/
  | fetch (purpose : Purpose)
  /-- A task that waited for its turn to load goes on. -/
  | granted (task : Nat)
  /-- Somebody puts a table in place. -/
  | setTable (table : Table)
  | refresh
  /-- The views that a task waited for have come. -/
  | viewed (task : Nat) (views : Discovery.Views)
  /-- A task that the client has started runs for the first time. -/
  | begin (task : Nat)
  /-- The close that a task waits for is done. -/
  | cleaned (task : Nat)
  | shutdown
  /-- Somebody closes a session. -/
  | closeSession (id : Nat)
  /-- Somebody sweeps the pool of a session with a table, or with its own. -/
  | sweepSession (id : Nat) (table : Option Table)
  /-- Somebody closes the pool of a session. -/
  | drainSession (id : Nat)
  | session (id : Nat) (event : SessionEvent)
  /-- The recurring task runs for the first time. -/
  | beginTicks (now : Nat)
  /-- A tick of the recurring task comes. -/
  | tick (now : Nat)
  /-- The registry is found in another order from now on. -/
  | reordered (registry : List Nat)
  /-- The holder lets go of the client. -/
  | letGo
  deriving Repr

def stepCleanup (c : Client) (task : Nat) (id cleanup : Nat)
    (done : Client -> Client) : Option Client :=
  match (c.session? id).bind (fun s => s.pool.step (.cleaned cleanup)) with
  | none => none
  | some pool =>
      let c := c.modifySession id (fun s => s.withPool pool)
      if c.isCleaning id cleanup then some c
      else some (done (c.setPhase task (.finished .done)))

/-- The outcome of a cleanup: how many entries it has evicted, if that
counts. -/
def cleanupOutcome (c : Client) (id cleanup : Nat) (counts : Bool) : Outcome :=
  match (c.session? id).bind (fun s => s.pool.cleanups[cleanup]?) with
  | some k => if counts then .evicted k.evicted else .done
  | none => .done

def cleanPool (c : Client) (id : Nat) (counts : Bool)
    (clean : Pool -> Pool) : Option Client :=
  match c.session? id with
  | none => none
  | some s =>
      let cleanup := s.pool.cleanups.length
      let c := c.modifySession id (fun s => s.withPool (clean s.pool))
      if c.isCleaning id cleanup then
        some (c.addTask (.cleaning id cleanup counts))
      else some (c.addTask (.finished (c.cleanupOutcome id cleanup counts)))

/-- The client after an event. -/
def step (c : Client) : Event -> Option Client
  | .fetch purpose => some (c.fetch purpose)
  | .granted task =>
      match c.phase? task with
      | some (.queued purpose) =>
          if c.loader = some task then some (c.enterLoad task purpose) else none
      | _ => none
  | .setTable table =>
      let (c, table) := c.stamp table
      some { c with table := some table }
  | .refresh => some (c.refresh false)
  | .viewed task views =>
      match c.phase? task with
      | some (.loading purpose) => some (c.loaded task purpose views)
      | some (.refreshing _ scheduled) =>
          some (c.refreshed task scheduled views)
      | _ => none
  | .begin task =>
      match c.phase? task with
      | some (.spawned sessions) => some (c.visit task .sweep sessions)
      | _ => none
  | .cleaned task =>
      match c.phase? task with
      | some (.touring tour id cleanup rest) =>
          c.stepCleanup task id cleanup
            (fun c => (c.leave tour id).visit task tour rest)
      | some (.cleaning id cleanup counts) =>
          c.stepCleanup task id cleanup (fun c =>
            c.setPhase task (.finished (c.cleanupOutcome id cleanup counts)))
      | _ => none
  | .shutdown => some c.shutdown
  | .closeSession id =>
      some ((c.addTask (.spawned [])).visit c.tasks.length .close [id])
  | .sweepSession id table =>
      c.cleanPool id true (fun p => p.sweep (table.getD p.table.table))
  | .drainSession id => c.cleanPool id false Pool.drain
  | .session id event =>
      ((c.session? id).bind (fun s => stepSession s event)).map
        (fun s => c.modifySession id (fun _ => s))
  | .beginTicks now =>
      (c.scheduler.begin now).map (fun scheduler => { c with scheduler })
  | .tick now =>
      match c.scheduler.tick now c.owner with
      | none => none
      | some scheduler =>
          let c := { c with scheduler }
          some (if scheduler.isWorking then c.refresh true else c)
  | .reordered registry =>
      if registry.isPerm c.registry then some { c with registry } else none
  | .letGo => some { c with isHeld := false }

/-- The client after a sequence of events. -/
def run (c : Client) (events : List Event) : Option Client :=
  SlotCluster.run step c events

end Client
end SlotCluster
