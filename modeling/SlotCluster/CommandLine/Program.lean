import SlotCluster.Client.State
import SlotCluster.CommandLine.Arguments
import SlotCluster.CommandLine.Report

/-!
# The program behind the command line

A run reads its arguments, puts the settings together, and talks to a client.
What it says to the client does not depend on how the client reaches its nodes,
so a conversation runs in any monad that offers the requests of a `Host`.
-/

namespace SlotCluster
namespace CommandLine

/-! ## Settings -/

def readSeed (text : String) : Except Failure Seed :=
  match Endpoint.parse text with
  | .ok e => .ok { host := e.host, port := e.port }
  | .error e => .error (.seed e)

def readSeeds : List String -> Except Failure (List Seed)
  | [] => .ok []
  | text :: rest =>
      match readSeed text with
      | .error e => .error e
      | .ok seed => (readSeeds rest).map (fun seeds => seed :: seeds)

/-- Settings with the options laid over them.  A password goes to the seeds that
have none. -/
def override (s : Settings) (o : Options) : Except Failure Settings :=
  match if o.seeds.isEmpty then .ok s.seeds else readSeeds o.seeds with
  | .error e => .error e
  | .ok seeds =>
      let seeds :=
        match o.password with
        | some password =>
            seeds.map (fun d =>
              if d.password.isNone then
                { d with password := some password }
              else
                d)
        | none => seeds
      let view :=
        match o.refreshSeconds with
        | some seconds =>
            { s.view with refresh := true, refreshSeconds := seconds }
        | none => s.view
      .ok { s with seeds, view, logLevel := o.logLevel.getD s.logLevel }

/-- The settings of a run, from what the configuration file has brought, if one
was named. -/
def settingsOf (o : Options) (file : Except ConfigError Settings) :
    Except Failure Settings :=
  let base : Except Failure Settings :=
    match o.config, file with
    | none, _ => .ok {}
    | some _, .ok s => .ok s
    | some path, .error e => .error (.file path e)
  match base with
  | .error e => .error e
  | .ok s =>
      match override s o with
      | .error e => .error e
      | .ok s => if s.seeds.isEmpty then .error .noSeeds else .ok s

/-! ## Conversations -/

/-- Requests to a client. -/
structure Host (m : Type -> Type) where
  fetchTable : m (Except ClusterError Table)
  openSession : m (Except ClusterError Nat)
  route (session : Nat) (command : Command) : m (Except ClusterError Resp.Value)
  sendToMasters (session : Nat) (command : Command) :
    m (Except ClusterError (List (String × Except ClusterError Resp.Value)))
  closeSession (session : Nat) : m Unit
  shutdown : m Unit

section Conversation

variable {m : Type -> Type} [Monad m]

def showNodes (host : Host m) : m Report := do
  match ← host.fetchTable with
  | .ok table => return success (renderTable table)
  | .error e => return Failure.report (.cluster e) []

/-- Send a command and print the replies: to the owners of its keys, or to every
master when it has none. -/
def sendCommand (host : Host m) (session : Nat)
    (command : Command) : m Report := do
  if command.keyLayout = .keyless then
    match ← host.sendToMasters session command with
    | .error e => return Failure.report (.cluster e) []
    | .ok answers =>
        host.closeSession session
        return success (answers.map (fun a => renderAnswer a.1 a.2))
  else
    match ← host.route session command with
    | .error e => return Failure.report (.cluster e) []
    | .ok reply =>
        host.closeSession session
        return success [renderReply 0 reply]

def perform (host : Host m) : Action -> m Report
  | .nodes => showNodes host
  | .exec words =>
      match Command.ofArgs (words.map Utf8.encode) with
      | .error e => return Failure.report (.command e) []
      | .ok command => do
          match ← host.openSession with
          | .error e => return Failure.report (.cluster e) []
          | .ok session => sendCommand host session command

def converse (host : Host m) (action : Action) : m Report := do
  let report ← perform host action
  host.shutdown
  return report

end Conversation

def misuseComplaint : String :=
  "error: the arguments cannot be understood\n\nUsage: " ++
    Topic.program.call ++ "\n\nFor more information, try '--help'.\n"

/-- Run the program with a way to talk to a client. -/
def run {m : Type -> Type} [Monad m] (request : Request)
    (file : Except ConfigError Settings)
    (talk : Client -> Action -> m Report) : m Report :=
  match request with
  | .help topic => return { exitCode := 0, output := topic.render }
  | .misuse => return { exitCode := 2, complaint := misuseComplaint }
  | .run options action =>
      match settingsOf options file with
      | .error e => return e.report []
      | .ok settings =>
          match Client.start settings with
          | .error e => return Failure.report (.cluster e) []
          | .ok client => talk client action

end CommandLine
end SlotCluster
