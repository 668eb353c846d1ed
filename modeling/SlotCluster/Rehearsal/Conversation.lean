import SlotCluster.CommandLine.Program
import SlotCluster.Rehearsal.Scenario

/-!
# Rehearsing the command line

A conversation of the command line with a client on the stage.
-/

namespace SlotCluster
namespace Rehearsal

def act (step : Step) : StateM World Answer := do
  let (w, scene) := (← get).perform step
  set w
  return scene.answer

def host : CommandLine.Host (StateM World) where
  fetchTable := do
    match ← act (.fetch .table) with
    | .failed e => return .error e
    | _ =>
        match (← get).client.table with
        | some t => return .ok t.table
        | none => return .error .shutdown
  openSession := do
    match ← act (.fetch .session) with
    | .session id _ => return .ok id
    | .failed e => return .error e
    | _ => return .error .shutdown
  route session command := do
    match ← act (.route session command) with
    | .reply value => return .ok value
    | .failed e => return .error e
    | _ => return .error .shutdown
  sendToMasters session command := do
    match ← act (.sendToMasters session command) with
    | .replies results => return .ok results
    | .failed e => return .error e
    | _ => return .error .shutdown
  closeSession session := discard (act (.close session))
  shutdown := discard (act .shutdown)

def runProgram (args : List String) (file : Except ConfigError Settings)
    (stage : Stage) : CommandLine.Report :=
  Id.run (CommandLine.run (CommandLine.read args) file
    (fun client action =>
      return ((CommandLine.converse host action).run
        { stage, source := .listing, client }).1))

end Rehearsal
end SlotCluster
