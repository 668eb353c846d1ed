import SlotCluster.Config.Document
import SlotCluster.Live.Runner

/-!
# The program

Reads the arguments and the configuration file that they name, talks to the
cluster, and prints the report.
-/

open SlotCluster

def readContent? (path : String) : IO (Option Bytes) := do
  try return some (← IO.FS.readBinFile path).toList
  catch _ => return none

def settingsFile : CommandLine.Request -> IO (Except ConfigError Settings)
  | .run { config := some path, .. } _ =>
      return Settings.ofFile path (← readContent? path)
  | _ => return .ok {}

def main (args : List String) : IO UInt32 := do
  let request := CommandLine.read args
  let file ← settingsFile request
  let report ← (CommandLine.run request file (fun client action => do
    let runner ← Live.Runner.start client
    CommandLine.converse runner.host action) :
      Std.Async.Async CommandLine.Report).block
  (← IO.getStdout).putStr report.output
  (← IO.getStderr).putStr report.complaint
  return .ofNat report.exitCode
