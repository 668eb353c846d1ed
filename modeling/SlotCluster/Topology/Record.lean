import SlotCluster.Json.Reader
import SlotCluster.Topology.Node

/-!
# Node records

The JSON form of a node description, as it is stored.  Fields that may be
missing have the value they get when a node is made without them; fields that
nobody knows are skipped.
-/

namespace SlotCluster

def Flag.name : Flag -> String
  | .myself => "Myself"
  | .master => "Master"
  | .replica => "Replica"
  | .possiblyFailing => "PossiblyFailing"
  | .failing => "Failing"
  | .handshake => "Handshake"
  | .noAddress => "NoAddress"

def Flag.ofName? (name : String) : Option Flag :=
  Flag.all.find? (fun f => f.name = name)

/-- A flag: its name, alone or as the one member of an object. -/
def Flag.ofJson? : Json -> Option Flag
  | .string name => Flag.ofName? name
  | .object [(name, .null)] => Flag.ofName? name
  | _ => none

/-- A duration: whole seconds and the nanoseconds beyond them, and no other
field. -/
def Duration.ofJson? (v : Json) : Option Duration := do
  let known :=
    match v with
    | .object members => members.all (fun m => m.1 == "secs" || m.1 == "nanos")
    | _ => true
  match known, v.fields? ["secs", "nanos"] with
  | true, some [secs, nanos] =>
      let secs ← Json.required (Json.natBelow? UInt64.size) secs
      let nanos ← Json.required (Json.natBelow? UInt32.size) nanos
      if secs + nanos / Duration.nanosPerSecond < UInt64.size then
        some ⟨secs * Duration.nanosPerSecond + nanos⟩
      else
        none
  | _, _ => none

def SlotRange.ofJson? (v : Json) : Option SlotRange :=
  match v.fields? ["start", "end"] with
  | some [start, stop] => do
      let start ← Json.required (Json.natBelow? UInt32.size) start
      let stop ← Json.required (Json.natBelow? UInt32.size) stop
      return ⟨UInt32.ofNat start, UInt32.ofNat stop⟩
  | _ => none

def SocketAddress.ofJson? (v : Json) : Option SocketAddress :=
  v.string?.bind SocketAddress.parse?

def Endpoint.ofJson? (v : Json) : Option Endpoint :=
  match v.fields? ["host", "port", "password", "resolved", "timeout"] with
  | some [host, port, password, resolved, timeout] => do
      let host ← Json.required Json.string? host
      let port ← Json.required (Json.natBelow? UInt16.size) port
      let password ← Json.optional none (Json.option? Json.string?) password
      let resolved ← Json.optional none
        (Json.option? SocketAddress.ofJson?) resolved
      let timeout ← Json.required Duration.ofJson? timeout
      return { host, port := UInt16.ofNat port, password, resolved, timeout }
  | _ => none

def Node.ofJson? (v : Json) : Option Node :=
  match v.fields? ["node_id", "endpoint", "flags", "master_id", "slots"] with
  | some [id, endpoint, flags, masterId, slots] => do
      let id ← Json.required Json.string? id
      let endpoint ← Json.required Endpoint.ofJson? endpoint
      let flags ← Json.required (Json.list? Flag.ofJson?) flags
      let masterId ← Json.optional none (Json.option? Json.string?) masterId
      let slots ← Json.optional [] (Json.list? SlotRange.ofJson?) slots
      return { id, endpoint, flags := .ofList flags, masterId, slots }
  | _ => none

def Json.ofNat (n : Nat) : Json :=
  .integer (Int.ofNat n)

def Json.ofText? : Option String -> Json
  | none => .null
  | some text => .string text

def Duration.toJson (d : Duration) : Json :=
  .object [("secs", .ofNat d.seconds), ("nanos", .ofNat d.subsecond)]

def SlotRange.toJson (r : SlotRange) : Json :=
  .object [("start", .ofNat r.start.toNat), ("end", .ofNat r.stop.toNat)]

def Endpoint.toJson (e : Endpoint) : Json :=
  .object [("host", .string e.host), ("port", .ofNat e.port.toNat),
    ("password", .ofText? e.password),
    ("resolved", .ofText? (e.resolved.map SocketAddress.render)),
    ("timeout", e.timeout.toJson)]

def Node.toJson (n : Node) : Json :=
  .object [("node_id", .string n.id), ("endpoint", n.endpoint.toJson),
    ("flags", .array (n.flags.toList.map (fun f => .string f.name))),
    ("master_id", .ofText? n.masterId),
    ("slots", .array (n.slots.map SlotRange.toJson))]

def Node.ofRecord? (text : String) : Option Node :=
  (Json.parse? text).bind Node.ofJson?

end SlotCluster
