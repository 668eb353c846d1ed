import SlotCluster.Client.Step
import SlotCluster.Rehearsal.Queries

/-!
# A client on the stage

The world of a rehearsal is a client together with the stage on which it acts.
Whatever happens is an event of the client, and an event that the client refuses
does not happen.

Callers wait for tasks, for calls of a pool and for deliveries.  When it is
their turn, each of these goes on until it has to wait for a node or for
somebody else.
-/

namespace SlotCluster
namespace Rehearsal

/-- A client on the stage. -/
structure World where
  stage : Stage
  /-- How endpoints are asked for their views. -/
  source : Discovery.Source
  client : Client
  /-- The rounds of tasks that wait for views. -/
  asking : List Asking := []
  /-- Tasks that callers wait for; the client runs the others by itself. -/
  owned : List Nat := []
  /-- Sessions that callers have got. -/
  kept : List Nat := []
  /-- Names for handles that callers have kept: the session and the number of
  each. -/
  names : List (String × Nat × Nat) := []
  /-- The stamps of tables in the order in which callers have seen them
  first. -/
  known : List Nat := []
  /-- Sessions in a registry of the callers. -/
  book : List Nat := []

namespace World

/-- Addresses of links that have closed between two states of a pool because
they were asked to.  A link that is new in the second state was open at some
moment between them. -/
def closings (before after : Pool) : List String :=
  let earlier := before.links.map (fun l => (l.isOpen, l.closings))
  let fresh :=
    List.replicate (after.links.length - before.links.length) (true, 0)
  ((earlier ++ fresh).zip after.links).filterMap (fun (was, is) =>
    if was.1 && !is.isOpen && was.2 < is.closings then
      some is.endpoint.addr
    else
      none)

def noteCloses (s : Stage) (before after : Client) : Stage :=
  ((before.sessions.zip after.sessions).flatMap
    (fun (a, b) => closings a.pool b.pool)).foldl
      (fun s address => s.note (.close address)) s

def isAsking (c : Client) (task : Nat) : Bool :=
  match c.phase? task with
  | some (.loading _) => true
  | some (.refreshing _ _) => true
  | _ => false

def fire (w : World) (event : Client.Event) : Option World :=
  (w.client.step event).map (fun client =>
    { w with
      client
      stage := noteCloses w.stage.move w.client client
      asking := w.asking.filter (fun a => isAsking client a.number) })

def fireIn (w : World) (session : Nat)
    (event : Client.SessionEvent) : Option World :=
  w.fire (.session session event)

def withStage (w : World) (stage : Stage) : World :=
  { w with stage }

/-! ## Calls -/

def stepCall (w : World) (session call : Nat) : Option World :=
  let waiter := Waiter.call session call
  match (w.client.session? session).bind
      (fun s => (s.pool.phase? call).map (fun phase => (s.pool, phase))) with
  | some (_, .queued _) => w.fireIn session (.resume call)
  | some (_, .connecting ticket) =>
      let address := ticket.endpoint.addr
      match w.stage.wait? waiter with
      | none =>
          some (w.withStage (w.stage.askConnection waiter address
            (some (w.stage.now + ticket.endpoint.timeout.ticks))))
      | some wait =>
          let rested := w.withStage (w.stage.forget waiter)
          if w.stage.hasCome wait.due then
            match w.stage.accepts address with
            | .ok () => rested.fireIn session (.linked call)
            | .error e => rested.fireIn session (.notLinked call e)
          else if w.stage.hasCome wait.deadline then
            rested.fireIn session
              (.notLinked call (.connectTimedOut ticket.endpoint))
          else
            none
  | some (pool, .authenticating _ link) =>
      match pool.links[link]? with
      | none => none
      | some link =>
          match w.stage.handshake link with
          | (stage, .ok ()) =>
              (w.withStage stage).fireIn session (.accepted call)
          | (stage, .error e) =>
              (w.withStage stage).fireIn session (.refused call e)
  | some (_, .rejecting _ _ _) => w.fireIn session (.closed call)
  | some (_, .discarding _ _) => w.fireIn session (.closed call)
  | _ => none

/-! ## Deliveries -/

def link? (w : World) (session handle : Nat) : Option (Nat × Link) :=
  (w.client.session? session).bind
    (fun s =>
      (s.pool.handles[handle]?).bind
        (fun h => (s.pool.links[h.link]?).map (fun l => (h.link, l))))

def sendDelivery (w : World) (session delivery handle : Nat) : Option World :=
  match w.client.session? session, w.link? session handle with
  | some s, some (number, link) =>
      match s.deliveries[delivery]? with
      | none => none
      | some d =>
          let deadline := some (w.stage.now + s.commandTimeout.ticks)
          let (stage, breaks) :=
            w.stage.send (.delivery session delivery) link d.command deadline
          let w := w.withStage stage
          if breaks then w.fireIn session (.broke number) else some w
  | _, _ => none

def stepDelivery (w : World) (session delivery : Nat) : Option World :=
  let waiter := Waiter.delivery session delivery
  match (w.client.session? session).bind (fun s => s.phase? delivery) with
  | some .pending => w.fireIn session (.begin delivery)
  | some (.opening call) =>
      match w.stepCall session call with
      | some w => some w
      | none => w.fireIn session (.proceed delivery)
  | some (.sending handle) =>
      match w.stage.wait? waiter with
      | none => w.sendDelivery session delivery handle
      | some wait =>
          let rested := w.withStage (w.stage.forget waiter)
          if w.stage.hasCome wait.due then
            match wait.work with
            | .reply result => rested.fireIn session (.receive delivery result)
            | _ => none
          else if w.stage.hasCome wait.deadline then
            rested.fireIn session (.receive delivery (.error .timeout))
          else
            none
  | _ => none

/-! ## Tasks -/

/-- Let the round of a task go on, from its beginning if it has not begun. -/
def stepRound (w : World) (task : Nat)
    (endpoints : List Endpoint) : Option World :=
  match w.asking.find? (fun a => a.number = task) with
  | none =>
      let asked :=
        w.stage.move.ask task w.source endpoints
          (some w.client.settings.discoveryTimeout)
      some { w with stage := w.stage.move, asking := w.asking ++ [asked] }
  | some a =>
      let (stage, a) := w.stage.runRound a
      let next :=
        { w with
          stage,
          asking := w.asking.map (fun b => if b.number = task then a else b) }
      if a.round.isFinished then next.fire (.viewed task a.round.views)
      else if stage.moves = w.stage.moves then none
      else some next

def stepTask (w : World) (task : Nat) : Option World :=
  match w.client.phase? task with
  | some (.queued _) => w.fire (.granted task)
  | some (.loading _) => w.stepRound task w.client.seeds
  | some (.refreshing candidates _) => w.stepRound task candidates
  | some (.spawned _) => w.fire (.begin task)
  | some (.touring _ _ _ _) => w.fire (.cleaned task)
  | some (.cleaning _ _ _) => w.fire (.cleaned task)
  | _ => none

/-! ## Turns -/

def exhaust (step : World -> Option World) : Nat -> World -> World
  | 0, w => w
  | fuel + 1, w =>
      match step w with
      | some w => exhaust step fuel w
      | none => w

def turnSteps : Nat := 10000

def stepTicks (w : World) : Option World :=
  let now := (Duration.ofMillis w.stage.now).nanos
  match w.fire (.beginTicks now) with
  | some w => some w
  | none => w.fire (.tick now)

def idleTasks (w : World) : List Nat :=
  w.client.tasks.zipIdx.filterMap (fun (phase, task) =>
    match phase with
    | .finished _ => none
    | _ => if w.owned.contains task then none else some task)

/-- Let the recurring task and the tasks that nobody waits for take a turn. -/
def background (w : World) : World :=
  let w := w.exhaust stepTicks turnSteps
  w.idleTasks.foldl
    (fun w task => w.exhaust (fun w => w.stepTask task) turnSteps) w

/-- Let the work in the background go on until all of it waits for the clock. -/
def settle : Nat -> World -> World
  | 0, w => w
  | fuel + 1, w =>
      let next := w.background
      if next.stage.moves = w.stage.moves then next else settle fuel next

def moments (w : World) : List Nat :=
  w.asking.flatMap (fun a => a.deadline.toList) ++
    w.client.scheduler.nextDue?.toList

end World
end Rehearsal
end SlotCluster
