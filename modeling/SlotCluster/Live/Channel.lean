import SlotCluster.Transport.Exchange
import Std.Async.DNS
import Std.Async.TCP
import Std.Async.Timer

/-!
# Channels

A channel is a connection to a node over the network.  What happens on its
socket is reported to a `Transport.Wire`, which says what is done next; the
channel itself only moves bytes.
-/

namespace SlotCluster
namespace Live

open Std.Async

/-- A connection over the network. -/
structure Channel where
  socket : TCP.Socket.Client
  wire : IO.Ref Transport.Wire
  /-- Bytes that have come in and belong to no reply yet. -/
  unread : IO.Ref Bytes

def within {α : Type} (limit : Duration) (work : Async α) : Async (Option α) :=
  Async.race (some <$> work) (do
    Std.Async.sleep (.ofNat limit.ticks)
    return none)

/-- The words for a failure of the operating system.  Failures to reach a host
come with a negated code. -/
def reasonOf : IO.Error -> String
  | .noSuchThing _ code details =>
      details.capitalize ++ " (os error " ++ toString (0 - code) ++ ")"
  | other => toString other

def networkAddress : SocketAddress -> Std.Net.SocketAddress
  | .v4 octets port =>
      let octet (i : Nat) : UInt8 := octets.getD i 0
      .v4 { addr := .ofParts (octet 0) (octet 1) (octet 2) (octet 3), port }
  | .v6 groups _ port =>
      let group (i : Nat) : UInt16 := groups.getD i 0
      let addr : Std.Net.IPv6Addr :=
        .ofParts (group 0) (group 1) (group 2) (group 3) (group 4) (group 5)
          (group 6) (group 7)
      .v6 { addr, port }

/-- The addresses at which an endpoint may be reached, the best first. -/
def addressesOf (e : Endpoint) : Async (List Std.Net.SocketAddress) := do
  match e.resolved with
  | some address => return [networkAddress address]
  | none =>
      let addresses ← DNS.getAddrInfo e.host ""
      return addresses.toList.map (fun address =>
        match address with
        | .v4 addr => .v4 { addr, port := e.port }
        | .v6 addr => .v6 { addr, port := e.port })

namespace Channel

def connectFirst (reason : String) :
    List Std.Net.SocketAddress -> Async (Except String TCP.Socket.Client)
  | [] => return .error reason
  | address :: rest => do
      try
        let socket ← TCP.Socket.Client.mk
        socket.connect address
        socket.noDelay
        return .ok socket
      catch e => connectFirst (reasonOf e) rest

def connect (e : Endpoint) : Async (Except ClusterError Channel) := do
  let attempt : Async (Except String TCP.Socket.Client) := do
    try connectFirst "could not resolve to any addresses" (← addressesOf e)
    catch failure => return .error (reasonOf failure)
  match ← within e.timeout attempt with
  | none => return .error (.connectTimedOut e)
  | some (.error reason) => return .error (.connection e.addr reason)
  | some (.ok socket) =>
      return .ok
        { socket
          wire := ← IO.mkRef { address := e.addr }
          unread := ← IO.mkRef [] }

def report (c : Channel) (event : Transport.Wire.Event) : BaseIO Unit :=
  c.wire.modify (fun w => (w.step event).getD w)

/-- The reason that stands for bytes which have not come in yet. -/
def unfinished : String := "more"

def pieceSize : UInt64 := 65536

/-- Read a reply from the bytes that have come in and those that follow. -/
def readReply (c : Channel) : Async (Except Resp.ReadError Resp.Value) := do
  let mut ending := Resp.Ending.failed unfinished
  repeat
    let stream := Resp.Stream.ofPieces [← c.unread.get] ending
    match Resp.parse Resp.defaultLimit stream with
    | (.error (.io reason), rest) =>
        if reason = unfinished then
          try
            match ← c.socket.recv? pieceSize with
            | some piece => c.unread.modify (fun bytes => bytes ++ piece.toList)
            | none => ending := .closed
          catch e => ending := .failed (reasonOf e)
        else
          c.unread.set rest.bytes
          return .error (.io reason)
    | (result, rest) =>
        c.unread.set rest.bytes
        return result
  return .error .unexpectedEof

def dispatch (c : Channel) (command : Command) :
    Async (Except ClusterError Resp.Value) :=
  do
  let user := (← c.wire.get).users.length
  c.report (.dispatch command)
  match (← c.wire.get).phase? user with
  | some (.writing request) =>
      try
        c.socket.send request.toByteArray
        c.report (.wrote user request.length)
        c.report (.arrived (← c.readReply))
        c.report (.read user)
      catch e => c.report (.writeFailed user (reasonOf e))
  | _ => pure ()
  let wire ← c.wire.get
  return (wire.result? user).getD (.error wire.closedError)

/-- Send a command and wait for its reply, but not for too long. -/
def dispatchWithin (c : Channel) (limit : Duration) (command : Command) :
    Async (Except ClusterError Resp.Value) := do
  let user := (← c.wire.get).users.length
  match ← within limit (c.dispatch command) with
  | some result => return result
  | none =>
      c.report (.abandon user)
      return .error .timeout

def authenticate (c : Channel) (e : Endpoint) :
    Async (Except ClusterError Unit) :=
  do
  let answer ← c.dispatch (Transport.handshakeCommand (e.credential.getD ""))
  return Transport.handshakeResult e.addr answer

def close (c : Channel) : Async Unit := do
  let user := (← c.wire.get).users.length
  c.report .close
  match (← c.wire.get).phase? user with
  | some .closing =>
      try c.socket.shutdown catch _ => pure ()
      c.report (.closed user)
  | _ => pure ()

end Channel
end Live
end SlotCluster
