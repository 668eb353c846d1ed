import SlotCluster.Rehearsal.Answer

/-!
# Scenarios

A scenario is a list of steps, each of which is played to its end before the
next one begins.  Steps may run at the same time, each from a moment of its own;
at one moment they take turns in their order, and the work in the background
takes its turn after them.
-/

namespace SlotCluster
namespace Rehearsal

/-- What is done to a registry of the callers. -/
inductive BookStep where
  | register (session : Nat)
  | remove (session : Nat)
  | drain
  | states

/-- A step of a scenario. -/
inductive Step where
  /-- Change the script of a node. -/
  | amend (address : String) (change : Script -> Script)
  /-- Let exactly the nodes of a view report that view. -/
  | serve (view : List Node)
  | sleep (millis : Nat)
  /-- Run steps at the same time, each from some milliseconds on. -/
  | together (steps : List (Nat × Step))
  | fetch (purpose : Client.Purpose)
  | refresh
  | current
  | setTable (nodes : List Node)
  | shutdown
  | letGo
  | showClient
  | route (session : Nat) (command : Command)
  | sendTo (session : Nat) (id : String) (command : Command)
  | sendToMasters (session : Nat) (command : Command)
  | openTarget (session : Nat) (target : Target) (name : Option String)
  | bootstrap (session : Nat) (name : Option String)
  | showHandle (name : String)
  | sendOn (name : String) (command : Command)
  | closeHandle (name : String)
  | targetOf (session : Nat) (key : Bytes)
  | apply (session : Nat) (nodes : List Node)
  | sweep (session : Nat) (nodes : Option (List Node))
  | drain (session : Nat)
  | close (session : Nat)
  | inspect (session : Nat) (targets : List Target)
  | book (step : BookStep)

/-- A step that is being played. -/
inductive Job where
  /-- Begins at a moment. -/
  | later (moment : Nat) (step : Step)
  | sleeping (moment : Nat)
  | task (task : Nat)
  | call (session call : Nat) (name : Option String)
  | delivery (session delivery : Nat)
  | request (session : Nat) (request : Session.Request)
  | masters (session first : Nat) (ids : List String)
  | all (jobs : List Job)
  | done (answer : Answer)

namespace World

/-! ## Beginning a step -/

def noSession : Job := .done (.missing "no connection")

def beginTask (w : World) (event : Client.Event) : World × Job :=
  let task := w.client.tasks.length
  match w.fire event with
  | some w => ({ w with owned := task :: w.owned }, .task task)
  | none => (w, .done .nothing)

def beginEvent (w : World) (event : Client.Event) : World × Job :=
  ((w.fire event).getD w, .done .nothing)

def withClient (w : World) (begin : World -> World × Job) : World × Job :=
  if w.client.isHeld then begin w else (w, .done (.missing "no client"))

def withSession (w : World) (id : Nat)
    (begin : Session -> World × Job) : World × Job :=
  match if w.kept.contains id then w.client.session? id else none with
  | some s => begin s
  | none => (w, noSession)

def withName (w : World) (name : String)
    (begin : Nat -> Nat -> World × Job) : World × Job :=
  match w.names.find? (fun n => n.1 = name) with
  | some (_, session, handle) => begin session handle
  | none => (w, .done (.missing "no handle"))

/-- Begin a step that needs a table.  Whether the nodes make one is settled
before anything else. -/
def withTable (w : World) (nodes : List Node)
    (begin : Table -> World × Job) : World × Job :=
  match Table.build nodes with
  | .ok table => begin table
  | .error e => (w, .done (.invalidView e))

def beginCall (w : World) (id : Nat) (s : Session) (target : Target)
    (name : Option String) : World × Job :=
  ((w.fireIn id (.openTarget target)).getD w, .call id s.pool.calls.length name)

def serveView (s : Stage) (view : List Node) : Stage :=
  let silent : Stage :=
    { s with
      scripts := s.scripts.map (fun x => (x.1, { x.2 with view := none })) }
  view.foldl (fun s n =>
    s.setScript n.endpoint.addr
      { s.script n.endpoint.addr with view := some view }) silent

def doBook (w : World) : BookStep -> World × Job
  | .register id =>
      w.withSession id (fun _ =>
        let book := (id :: w.book.filter (fun b => b ≠ id)).mergeSort
        ({ w with book }, .done (.book { sessions := book })))
  | .remove id =>
      let book := w.book.filter (fun b => b ≠ id)
      let removed := if w.book.contains id then some id else none
      ({ w with book }, .done (.book { removed, sessions := book }))
  | .drain =>
      ({ w with book := [] },
        .done (.book { drained := some w.book, sessions := [] }))
  | .states =>
      let isOpen (id : Nat) : Bool :=
        (w.client.session? id).any (fun s => !s.isClosed)
      let states := w.book.map (fun id => (id, isOpen id))
      (w, .done (.book { states := some states, sessions := w.book }))

def begin (w : World) : Step -> World × Job
  | .amend address change =>
      (w.withStage
        (w.stage.setScript address (change (w.stage.script address))),
          .done .nothing)
  | .serve view => (w.withStage (serveView w.stage view), .done .nothing)
  | .sleep millis => (w, .sleeping (w.stage.now + millis))
  | .together steps =>
      (w, .all (steps.map (fun s => .later (w.stage.now + s.1) s.2)))
  | .fetch purpose => w.withClient (fun w => w.beginTask (.fetch purpose))
  | .refresh => w.withClient (fun w => w.beginTask .refresh)
  | .current =>
      w.withClient (fun w =>
        match w.client.table with
        | some t =>
            let (w, table) := w.showTable t
            (w, .done (.table table))
        | none => (w, .done .nothing))
  | .setTable nodes =>
      w.withTable nodes
        (fun table => w.withClient (fun w => w.beginEvent (.setTable table)))
  | .shutdown => w.withClient (fun w => w.beginTask .shutdown)
  | .letGo => w.beginEvent .letGo
  | .showClient => w.withClient (fun w => (w, .done (.client w.showClient)))
  | .route id command =>
      w.withSession id (fun s =>
        match s.route command with
        | .error e => (w, .done (.failed e))
        | .ok (_, request) =>
            ((w.fireIn id (.route command)).getD w, .request id request))
  | .sendTo id node command =>
      w.withSession id
        (fun s =>
          ((w.fireIn id (.sendTo node command)).getD w,
            .delivery id s.deliveries.length))
  | .sendToMasters id command =>
      w.withSession id (fun s =>
        match s.sendToMasters command with
        | .error e => (w, .done (.failed e))
        | .ok (_, ids) =>
            ((w.fireIn id (.sendToMasters command)).getD w,
              .masters id s.deliveries.length ids))
  | .openTarget id target name =>
      w.withSession id (fun s => w.beginCall id s target name)
  | .bootstrap id name =>
      w.withSession id (fun s =>
        let endpoint := w.client.sessionBootstrap
        w.beginCall id s (.address endpoint.host endpoint.port) name)
  | .showHandle name =>
      w.withName name (fun session handle =>
        match w.showHandle session handle with
        | (w, some view) => (w, .done (.handle view))
        | (w, none) => (w, .done .nothing))
  | .sendOn name command =>
      w.withName name (fun session handle =>
        match w.client.session? session with
        | some s =>
            ((w.fireIn session (.sendOn handle command)).getD w,
              .delivery session s.deliveries.length)
        | none => (w, noSession))
  | .closeHandle name =>
      w.withName name
        (fun session handle =>
          w.beginEvent (.session session (.closeHandle handle)))
  | .targetOf id key =>
      w.withSession id (fun s => (w, .done (.target (s.targetOf key))))
  | .apply id nodes =>
      w.withTable nodes (fun table => w.withSession id (fun _ =>
        let (client, table) := w.client.stamp table
        let w := { w with client }
        let w := (w.fireIn id (.apply table)).getD w
        let (w, view) := w.showTable table
        (w, .done (.table view))))
  | .sweep id none =>
      w.withSession id (fun _ => w.beginTask (.sweepSession id none))
  | .sweep id (some nodes) =>
      w.withTable nodes (fun table => w.withSession id (fun _ =>
        w.beginTask (.sweepSession id (some table))))
  | .drain id =>
      w.withSession id (fun _ => w.beginTask (.drainSession id))
  | .close id => w.withSession id (fun _ => w.beginTask (.closeSession id))
  | .inspect id targets =>
      w.withSession id (fun s =>
        let (w, view) := w.showSession id s targets
        (w, .done (.inspected view)))
  | .book step => w.doBook step

/-! ## Playing a step -/

def turnDeliveries (w : World) (session : Nat)
    (deliveries : List Nat) : World :=
  deliveries.foldl
    (fun w d => w.exhaust (fun w => w.stepDelivery session d) turnSteps) w

def deliveryCount : Routing.Plan -> Nat
  | .whole _ => 1
  | .split groups => groups.length

def turnOne (w : World) : Job -> World × Job
  | .sleeping moment =>
      if moment ≤ w.stage.now then
        (w.withStage w.stage.move, .done .nothing)
      else
        (w, .sleeping moment)
  | .task task =>
      let w := w.exhaust (fun w => w.stepTask task) turnSteps
      match w.client.outcome? task with
      | some outcome =>
          let (w, answer) := w.showOutcome outcome
          (w, .done answer)
      | none => (w, .task task)
  | .call session call name =>
      let w := w.exhaust (fun w => w.stepCall session call) turnSteps
      match (w.client.session? session).bind (fun s => s.pool.phase? call) with
      | some (.finished result) =>
          let (w, answer) := w.showCall session name result
          (w, .done answer)
      | _ => (w, .call session call name)
  | .delivery session delivery =>
      let w := w.turnDeliveries session [delivery]
      match (w.client.session? session).bind
          (fun s => (s.deliveries[delivery]?).bind Delivery.result?) with
      | some result => (w, .done (showReply result))
      | none => (w, .delivery session delivery)
  | .request session request =>
      let deliveries :=
        (List.range (deliveryCount request.plan)).map
          (fun i => request.first + i)
      let w := w.turnDeliveries session deliveries
      match (w.client.session? session).bind (fun s => s.reply? request) with
      | some result => (w, .done (showReply result))
      | none => (w, .request session request)
  | .masters session first ids =>
      let w :=
        w.turnDeliveries session
          ((List.range ids.length).map (fun i => first + i))
      match (w.client.session? session).bind
          (fun s => s.results? first ids.length) with
      | some results => (w, .done (.replies (ids.zip results)))
      | none => (w, .masters session first ids)
  | job => (w, job)

def answer? : Job -> Option Answer
  | .done answer => some answer
  | _ => none

/-- Let a job take a turn; groups may be nested as deep as the fuel allows. -/
def turn : Nat -> World -> Job -> World × Job
  | 0, w, job => (w, job)
  | fuel + 1, w, .later moment step =>
      if moment ≤ w.stage.now then
        let (w, job) := w.begin step
        turn fuel (w.withStage w.stage.move) job
      else
        (w, .later moment step)
  | fuel + 1, w, .all jobs =>
      let (w, jobs) := jobs.foldl
        (fun (acc : World × List Job) job =>
          let (w, job) := turn fuel acc.1 job
          (w, acc.2 ++ [job]))
        (w, [])
      match jobs.mapM answer? with
      | some answers => (w, .done (.all answers))
      | none => (w, .all jobs)
  | _ + 1, w, job => w.turnOne job

def nesting : Nat := 64

def jobMoments : Nat -> Job -> List Nat
  | 0, _ => []
  | _ + 1, .later moment _ => [moment]
  | _ + 1, .sleeping moment => [moment]
  | fuel + 1, .all jobs => jobs.flatMap (jobMoments fuel)
  | _ + 1, _ => []

/-- Play a job to its end.  When nothing can go on, the clock moves; when
nothing will ever go on, there is no answer. -/
def play : Nat -> World -> Job -> World × Answer
  | 0, w, _ => (w, .nothing)
  | fuel + 1, w, job =>
      let before := w.stage.moves
      let (w, job) := turn nesting w job
      let w := w.background
      match job with
      | .done answer => (w.settle Stage.patience, answer)
      | _ =>
          if w.stage.moves ≠ before then
            play fuel w job
          else
            match w.stage.advance (w.moments ++ jobMoments nesting job) with
            | some stage => play fuel (w.withStage stage) job
            | none => (w, .nothing)

/-- What a step has brought. -/
structure Scene where
  answer : Answer
  /-- What the nodes have noticed during the step. -/
  notices : List Notice
  /-- When the step has ended. -/
  now : Nat

def perform (w : World) (step : Step) : World × Scene :=
  let (w, job) := w.begin step
  let (w, answer) := play Stage.patience w job
  let scene : Scene := ⟨answer, w.stage.notices.reverse, w.stage.now⟩
  (w.withStage { w.stage with notices := [] }, scene)

def performAll (w : World) : List Step -> List Scene
  | [] => []
  | step :: rest =>
      let (w, scene) := w.perform step
      scene :: performAll w rest

end World

def rehearse (settings : Settings) (source : Discovery.Source) (stage : Stage)
    (steps : List Step) : Except ClusterError (List World.Scene) :=
  (Client.start settings).map
    (fun client => World.performAll { stage, source, client } steps)

end Rehearsal
end SlotCluster
