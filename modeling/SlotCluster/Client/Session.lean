import SlotCluster.Pool.Step
import SlotCluster.Routing.Merge

/-!
# Sessions

A session routes commands through a pool of its own.  Sending one command to one
target is a *delivery*: it waits for the connection, sends the command and waits
for the reply.  A request that concerns many nodes is made of many deliveries
that run at the same time.

Deliveries begin one after the other, and each goes as far as it can before the
next begins.
-/

namespace SlotCluster

/-- What a delivery is doing. -/
inductive DeliveryPhase where
  /-- Has not begun. -/
  | pending
  /-- Waits for the connection. -/
  | opening (call : Nat)
  /-- Has sent the command. -/
  | sending (handle : Nat)
  | finished (result : Except ClusterError Resp.Value)
  deriving Repr

/-- One command on its way to one target. -/
structure Delivery where
  target : Target
  command : Command
  /-- Whether the delivery is refused when the session is closed before it
  begins. -/
  guarded : Bool
  phase : DeliveryPhase := .pending
  deriving Repr

def Delivery.result? (d : Delivery) : Option (Except ClusterError Resp.Value) :=
  match d.phase with
  | .finished result => some result
  | _ => none

/-- A connection to the whole cluster. -/
structure Session where
  pool : Pool
  /-- Where keys without an owner go. -/
  fallback : Endpoint
  /-- How long a command may take. -/
  commandTimeout : Duration
  isClosed : Bool := false
  deliveries : List Delivery := []
  deriving Repr

namespace Session

def start (table : Shared) (fallback : Endpoint)
    (commandTimeout : Duration) : Session :=
  { pool := { table, fallback }, fallback, commandTimeout }

def withPool (s : Session) (pool : Pool) : Session :=
  { s with pool }

def targetOf (s : Session) (key : Bytes) : Target :=
  Routing.targetOf s.pool.table.table s.fallback key

def setPhase (s : Session) (delivery : Nat) (phase : DeliveryPhase) : Session :=
  { s with
    deliveries := s.deliveries.modify delivery (fun d => { d with phase }) }

def phase? (s : Session) (delivery : Nat) : Option DeliveryPhase :=
  (s.deliveries[delivery]?).map Delivery.phase

/-! ## Connections -/

/-- Ask for the connection to a target.  A closed session refuses. -/
def openTarget (s : Session) (target : Target) : Session :=
  if s.isClosed then
    s.withPool (s.pool.addCall target (.finished (.error .shutdown)))
  else
    s.withPool (s.pool.request target)

/-! ## Deliveries -/

def begin (s : Session) (delivery : Nat) : Option Session :=
  match s.deliveries[delivery]? with
  | some ⟨target, _, guarded, .pending⟩ =>
      if guarded && s.isClosed then
        some (s.setPhase delivery (.finished (.error .shutdown)))
      else
        some ((s.withPool (s.pool.request target)).setPhase delivery
          (.opening s.pool.calls.length))
  | _ => none

/-- Let a delivery go on when its connection is there or could not be had. -/
def proceed (s : Session) (delivery : Nat) : Option Session :=
  match s.phase? delivery with
  | some (.opening call) =>
      match s.pool.phase? call with
      | some (.finished (.ok handle)) =>
          some (s.setPhase delivery (.sending handle))
      | some (.finished (.error e)) =>
          some (s.setPhase delivery (.finished (.error e)))
      | _ => none
  | _ => none

/-- The reply to a delivery has come, or the delivery has failed or taken too
long. -/
def receive (s : Session) (delivery : Nat)
    (result : Except ClusterError Resp.Value) : Option Session :=
  match s.phase? delivery with
  | some (.sending _) => some (s.setPhase delivery (.finished result))
  | _ => none

def deliver (s : Session) (deliveries : List Delivery) : Session :=
  { s with deliveries := s.deliveries ++ deliveries }

/-! ## Requests -/

/-- A request that waits for deliveries. -/
structure Request where
  command : Command
  plan : Routing.Plan
  /-- The number of the first delivery. -/
  first : Nat
  deriving Repr

def deliveriesOf (command : Command) : Routing.Plan -> List Delivery
  | .whole target => [{ target, command, guarded := false }]
  | .split groups =>
      groups.map (fun g =>
        { target := g.target
          command := command.selectKeyGroups g.positions
          guarded := false })

def route (s : Session) (command : Command) :
    Except ClusterError (Session × Request) :=
  if s.isClosed then
    .error .shutdown
  else
    match Routing.plan s.pool.table.table s.fallback command with
    | .error e => .error e
    | .ok plan =>
        .ok (s.deliver (deliveriesOf command plan),
          ⟨command, plan, s.deliveries.length⟩)

def sendTo (s : Session) (id : String) (command : Command) : Session :=
  s.deliver [{ target := .node id, command, guarded := true }]

def sendOn (s : Session) (handle : Nat) (command : Command) : Session :=
  let target := ((s.pool.handles[handle]?).map Handle.target).getD (.node "")
  s.deliver [{ target, command, guarded := false, phase := .sending handle }]

/-- Send a command to every master of the table, in the order of the table.
Returns their ids. -/
def sendToMasters (s : Session) (command : Command) :
    Except ClusterError (Session × List String) :=
  if s.isClosed then
    .error .shutdown
  else
    let ids := s.pool.table.table.masters.map Node.id
    let deliveries : List Delivery :=
      ids.map (fun id => { target := .node id, command, guarded := true })
    .ok (s.deliver deliveries, ids)

/-- The results of `count` deliveries from a number on, when all of them have
ended. -/
def results? (s : Session) (first count : Nat) :
    Option (List (Except ClusterError Resp.Value)) :=
  ((s.deliveries.drop first).take count).mapM Delivery.result?

def reply? (s : Session) (r : Request) :
    Option (Except ClusterError Resp.Value) :=
  match r.plan with
  | .whole _ => (s.deliveries[r.first]?).bind Delivery.result?
  | .split groups =>
      (s.results? r.first groups.length).map
        (Routing.merge r.command.name r.command.keys.length
          (groups.map Routing.Group.positions))

/-! ## The end of a session -/

/-- Close the session and begin to close its connections.  A session that is
closed already stays as it is. -/
def close (s : Session) : Session :=
  if s.isClosed then s else { s with isClosed := true, pool := s.pool.drain }

end Session
end SlotCluster
