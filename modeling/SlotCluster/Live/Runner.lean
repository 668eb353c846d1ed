import SlotCluster.Client.Step
import SlotCluster.CommandLine.Program
import SlotCluster.Discovery.Round
import SlotCluster.Live.Channel

/-!
# A client over the network

A runner reports to a client what happens on its channels, and does what the
client waits for.  It takes the steps of one task after the other; what many
nodes are asked at the same time goes out at once.

A run ends after one command, so the recurring refresh does not come to its
first tick here.
-/

namespace SlotCluster
namespace Live

open Std.Async

/-- A client and the channels of its links. -/
structure Runner where
  client : IO.Ref Client
  /-- The channels with the session and the link of each. -/
  channels : IO.Ref (List ((Nat × Nat) × Channel))

namespace Runner

def start (client : Client) : BaseIO Runner :=
  return { client := ← IO.mkRef client, channels := ← IO.mkRef [] }

def report (r : Runner) (event : Client.Event) : BaseIO Unit :=
  r.client.modify (fun c => (c.step event).getD c)

def reportIn (r : Runner) (session : Nat)
    (event : Client.SessionEvent) : BaseIO Unit :=
  r.report (.session session event)

def session? (r : Runner) (id : Nat) : BaseIO (Option Session) :=
  return (← r.client.get).session? id

def channel? (r : Runner) (session link : Nat) : BaseIO (Option Channel) :=
  return ((← r.channels.get).find? (fun c => c.1 = (session, link))).map
    Prod.snd

def closeChannel (r : Runner) (session : Nat)
    (link : Option Nat) : Async Unit := do
  match link with
  | none => pure ()
  | some link =>
      match ← r.channel? session link with
      | some channel => channel.close
      | none => pure ()

/-! ## Discovery -/

def finishQuery (start : Discovery.Query) : Async Discovery.Query := do
  let mut query := start
  let mut channel : Option Channel := none
  while query.result?.isNone do
    let event : Discovery.Query.Event ←
      match query.phase, channel with
      | .connecting, _ =>
          match ← Channel.connect query.endpoint with
          | .error e => pure (.notLinked e)
          | .ok opened => do
              channel := some opened
              pure .linked
      | .authenticating, some c =>
          match ← c.authenticate query.endpoint with
          | .error e => pure (.refused e)
          | .ok () => pure .accepted
      | .listing, some c =>
          pure (.answered (← c.dispatch Discovery.listingCommand))
      | .closing _, some c => do
          c.close
          pure .closed
      | _, _ => pure .timedOut
    query := (query.step event).getD query
  return query

def askViews (r : Runner) (endpoints : List Endpoint) : Async Discovery.Views :=
  do
  let limit := (← r.client.get).settings.discoveryTimeout
  let round := Discovery.Round.start .listing endpoints
  let queries ← Async.concurrentlyAll (round.queries.map (fun query => do
    match ← within limit (finishQuery query) with
    | some ended => return ended
    | none => return (query.step .timedOut).getD query)).toArray
  return Discovery.Round.views ⟨queries.toList⟩

/-! ## Tasks -/

def finishTask (r : Runner) (task : Nat) : Async (Option Client.Outcome) := do
  while ((← r.client.get).outcome? task).isNone do
    let client ← r.client.get
    match client.phase? task with
    | some (.queued _) => r.report (.granted task)
    | some (.loading _) => r.report (.viewed task (← r.askViews client.seeds))
    | some (.refreshing candidates _) =>
        r.report (.viewed task (← r.askViews candidates))
    | some (.spawned _) => r.report (.begin task)
    | some (.touring _ id cleanup _) => do
        let link :=
          ((client.session? id).bind (fun s => s.pool.cleanups[cleanup]?)).bind
            (fun k => k.closing)
        r.closeChannel id link
        r.report (.cleaned task)
    | some (.cleaning id cleanup _) => do
        let link :=
          ((client.session? id).bind (fun s => s.pool.cleanups[cleanup]?)).bind
            (fun k => k.closing)
        r.closeChannel id link
        r.report (.cleaned task)
    | _ => return none
  return (← r.client.get).outcome? task

def perform (r : Runner) (event : Client.Event) :
    Async (Option Client.Outcome) :=
  do
  let task := (← r.client.get).tasks.length
  r.report event
  r.finishTask task

/-! ## Deliveries -/

def openLink (r : Runner) (id call : Nat) (pool : Pool)
    (ticket : Pool.Ticket) : Async Unit := do
  match ← Channel.connect ticket.endpoint with
  | .error e => r.reportIn id (.notLinked call e)
  | .ok channel =>
      r.channels.modify
        (fun channels => ((id, pool.links.length), channel) :: channels)
      r.reportIn id (.linked call)

def handshake (r : Runner) (id call link : Nat)
    (ticket : Pool.Ticket) : Async Unit := do
  match ← r.channel? id link with
  | none => r.reportIn id (.refused call .shutdown)
  | some channel =>
      match ← channel.authenticate ticket.endpoint with
      | .ok () => r.reportIn id (.accepted call)
      | .error e => r.reportIn id (.refused call e)

def finishCall (r : Runner) (id call : Nat) : Async Unit := do
  repeat
    match (← r.session? id).map Session.pool with
    | none => return
    | some pool =>
        match pool.phase? call with
        | some (.queued _) => r.reportIn id (.resume call)
        | some (.connecting ticket) => r.openLink id call pool ticket
        | some (.authenticating ticket link) => r.handshake id call link ticket
        | some (.rejecting _ link _) => do
            r.closeChannel id (some link)
            r.reportIn id (.closed call)
        | some (.discarding handle _) => do
            r.closeChannel id ((pool.handles[handle]?).map Handle.link)
            r.reportIn id (.closed call)
        | _ => return

def beginDelivery (r : Runner) (id delivery : Nat) : Async Unit := do
  r.reportIn id (.begin delivery)
  match (← r.session? id).bind (fun s => s.phase? delivery) with
  | some (.opening call) => do
      r.finishCall id call
      r.reportIn id (.proceed delivery)
  | _ => pure ()

/-- The answer to a delivery whose connection has been found. -/
def answerOf (r : Runner) (id : Nat) (s : Session) (delivery : Nat) :
    Async (Except ClusterError Resp.Value) := do
  match s.deliveries[delivery]? with
  | some ⟨_, command, _, .sending handle⟩ =>
      match ← (s.pool.handles[handle]?).bindM
          (fun h => r.channel? id h.link) with
      | some channel => channel.dispatchWithin s.commandTimeout command
      | none => return .error .shutdown
  | _ => return .error .shutdown

def deliver (r : Runner) (id : Nat) (deliveries : List Nat) : Async Unit := do
  deliveries.forM (fun delivery => r.beginDelivery id delivery)
  match ← r.session? id with
  | none => pure ()
  | some s => do
      let results ← Async.concurrentlyAll
        (deliveries.map (r.answerOf id s)).toArray
      (deliveries.zip results.toList).forM (fun (delivery, result) =>
        r.reportIn id (.receive delivery result))

/-! ## Requests -/

def route (r : Runner) (id : Nat) (command : Command) :
    Async (Except ClusterError Resp.Value) :=
  do
  match ← r.session? id with
  | none => return .error .shutdown
  | some s =>
      match s.route command with
      | .error e => return .error e
      | .ok (after, request) => do
          r.reportIn id (.route command)
          r.deliver id
            (List.range' request.first
              (after.deliveries.length - request.first))
          return ((← r.session? id).bind (fun s => s.reply? request)).getD
            (.error .shutdown)

def sendToMasters (r : Runner) (id : Nat) (command : Command) :
    Async (Except ClusterError
      (List (String × Except ClusterError Resp.Value))) :=
  do
  match ← r.session? id with
  | none => return .error .shutdown
  | some s =>
      match s.sendToMasters command with
      | .error e => return .error e
      | .ok (_, ids) => do
          let first := s.deliveries.length
          r.reportIn id (.sendToMasters command)
          r.deliver id (List.range' first ids.length)
          match (← r.session? id).bind
              (fun s => s.results? first ids.length) with
          | some results => return .ok (ids.zip results)
          | none => return .error .shutdown

def host (r : Runner) : CommandLine.Host Async where
  fetchTable := do
    match ← r.perform (.fetch .table) with
    | some (.table table) => return .ok table.table
    | some (.failed e) => return .error e
    | _ => return .error .shutdown
  openSession := do
    match ← r.perform (.fetch .session) with
    | some (.session id) => return .ok id
    | some (.failed e) => return .error e
    | _ => return .error .shutdown
  route := r.route
  sendToMasters := r.sendToMasters
  closeSession id := discard (r.perform (.closeSession id))
  shutdown := discard (r.perform .shutdown)

end Runner
end Live
end SlotCluster
