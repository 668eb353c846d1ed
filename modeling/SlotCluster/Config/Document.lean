import SlotCluster.Config.Settings
import SlotCluster.Yaml.Reading
import SlotCluster.Yaml.Written

/-!
# Settings documents

Settings in a file.  A document is a mapping of sections; fields that are left
out have their defaults, and unknown fields are skipped.  Writing puts down
every field, so that reading gives the same settings.
-/

namespace SlotCluster
namespace Settings

open Yaml

/-! ## Reading -/

def readNumber (t : Tree) : Reading UInt64 :=
  return UInt64.ofNat (← Reading.below UInt64.size t)

def readSeed (t : Tree) : Reading Seed := do
  let fields ← Reading.members ["host", "port", "password"] t
  let host ← Reading.member fields "host" none Reading.text
  let port ← Reading.member fields "port" none (Reading.below 65536)
  let password ← Reading.member fields "password" (some none) Reading.optional
  return { host, port := UInt16.ofNat port, password }

def readView (t : Tree) : Reading ViewSettings := do
  let usual : ViewSettings := {}
  let fields ← Reading.members
    ["refresh_cluster_view", "refresh_period_secs", "discovery_timeout_ms"] t
  let refresh ← Reading.member fields "refresh_cluster_view" usual.refresh
    Reading.bool
  let refreshSeconds ← Reading.member fields "refresh_period_secs"
    usual.refreshSeconds readNumber
  let discoveryMillis ← Reading.member fields "discovery_timeout_ms"
    usual.discoveryMillis readNumber
  return { refresh, refreshSeconds, discoveryMillis }

def readLink (t : Tree) : Reading LinkSettings := do
  let usual : LinkSettings := {}
  let fields ← Reading.members ["connect_timeout_ms", "command_timeout_ms"] t
  let connectMillis ← Reading.member fields "connect_timeout_ms"
    usual.connectMillis readNumber
  let commandMillis ← Reading.member fields "command_timeout_ms"
    usual.commandMillis readNumber
  return { connectMillis, commandMillis }

def readLogLevel (t : Tree) : Reading String := do
  let usual : Settings := {}
  let fields ← Reading.members ["level"] t
  Reading.member fields "level" usual.logLevel Reading.text

def readSettings (t : Tree) : Reading Settings := do
  let usual : Settings := {}
  let fields ← Reading.members ["seeds", "topology", "connection", "log"] t
  let seeds ← Reading.member fields "seeds" (some [])
    (fun t => do (← Reading.items t).mapM readSeed)
  let view ← Reading.member fields "topology" usual.view readView
  let link ← Reading.member fields "connection" usual.link readLink
  let logLevel ← Reading.member fields "log" usual.logLevel readLogLevel
  return { seeds, view, link, logLevel }

def parse (text : String) : Except ConfigError Settings :=
  match (Document.ofText? text).bind (fun d => d.read? readSettings) with
  | some s => .ok s
  | none => .error .malformed

/-- The settings in the file at a path, which has the given content if there is
a file. -/
def ofFile (path : String) : Option Bytes -> Except ConfigError Settings
  | none => .error (ConfigError.ofPath path)
  | some content =>
      match Utf8.decode? content with
      | some text => parse (String.ofList text)
      | none => .error .notText

/-! ## Writing -/

def line (start : String) (value : List Char) : List Char :=
  start.toList ++ value ++ ['\n']

def textLines (start text : String) : List Char :=
  start.toList ++ Written.scalar text

def boolText (b : Bool) : List Char :=
  (if b then "true" else "false").toList

def numberText (n : UInt64) : List Char :=
  Decimal.digits n.toNat

def renderSeed (seed : Seed) : List Char :=
  textLines "- host: " seed.host ++
  line "  port: " (Decimal.digits seed.port.toNat) ++
  match seed.password with
  | some password => textLines "  password: " password
  | none => line "  password: " "null".toList

def renderSeeds (seeds : List Seed) : List Char :=
  if seeds.isEmpty then
    line "seeds: []" []
  else
    line "seeds:" [] ++ seeds.flatMap renderSeed

def render (s : Settings) : String :=
  String.ofList
    (renderSeeds s.seeds ++
      line "topology:" [] ++
      line "  refresh_cluster_view: " (boolText s.view.refresh) ++
      line "  refresh_period_secs: " (numberText s.view.refreshSeconds) ++
      line "  discovery_timeout_ms: " (numberText s.view.discoveryMillis) ++
      line "connection:" [] ++
      line "  connect_timeout_ms: " (numberText s.link.connectMillis) ++
      line "  command_timeout_ms: " (numberText s.link.commandMillis) ++
      line "log:" [] ++
      textLines "  level: " s.logLevel)

end Settings
end SlotCluster
