import SlotCluster.Error
import SlotCluster.Run

/-!
# Exchanges on a connection

A connection carries one exchange at a time: a request goes out, and its reply
comes in.  Whoever comes while an exchange is in progress waits, and those who
wait go on in the order in which they came.

Replies carry no mark of the request that they belong to.  So an exchange that
ends in any other way than with its reply makes the connection unusable: nobody
could tell what the next reply belongs to.
-/

namespace SlotCluster
namespace Transport

/-- What a user of a connection is doing. -/
inductive Phase where
  /-- Waits for the exchange in progress, to send a request. -/
  | queued (request : Bytes)
  /-- Sends a request, of which this is left. -/
  | writing (rest : Bytes)
  /-- Waits for the reply. -/
  | reading
  | finished (result : Except ClusterError Resp.Value)
  /-- Has gone away before the end. -/
  | abandoned
  /-- Waits for the exchange in progress, to close the connection. -/
  | leaving
  /-- Closes the connection. -/
  | closing
  | closed
  deriving Repr

/-- A connection and its users. -/
structure Wire where
  address : String
  isOpen : Bool := true
  /-- Whether the connection still has its two streams. -/
  hasStreams : Bool := true
  /-- The user whose turn it is. -/
  holder : Option Nat := none
  /-- Users who wait, the oldest first. -/
  queue : List Nat := []
  users : List Phase := []
  /-- What has gone out, piece by piece, with the user who sent it. -/
  outbound : List (Nat × Bytes) := []
  /-- Users whose request has gone out completely, in the order of the
  requests. -/
  requested : List Nat := []
  /-- Replies that have come in and have not been read. -/
  inbound : List (Except Resp.ReadError Resp.Value) := []
  deriving Repr

namespace Wire

def phase? (w : Wire) (user : Nat) : Option Phase :=
  w.users[user]?

def setPhase (w : Wire) (user : Nat) (phase : Phase) : Wire :=
  { w with users := w.users.set user phase }

def release (w : Wire) : Wire :=
  { w with holder := w.queue.head?, queue := w.queue.tail }

def closedError (w : Wire) : ClusterError :=
  .connection w.address "connection closed"

/-- Let a user whose turn it is begin to send.  On a connection that is no
longer open nothing is sent, and its streams are given up. -/
def beginExchange (w : Wire) (user : Nat) (request : Bytes) : Wire :=
  if w.isOpen && w.hasStreams then
    w.setPhase user (.writing request)
  else
    { w with hasStreams := w.hasStreams && w.isOpen }.release.setPhase user
      (.finished (.error w.closedError))

def beginClose (w : Wire) (user : Nat) : Wire :=
  if w.hasStreams then
    { w with hasStreams := false }.setPhase user .closing
  else
    w.release.setPhase user .closed

def enter (w : Wire) (waiting : Phase) (begin : Wire -> Nat -> Wire) : Wire :=
  let user := w.users.length
  let w := { w with users := w.users ++ [waiting] }
  match w.holder with
  | none => begin { w with holder := some user } user
  | some _ => { w with queue := w.queue ++ [user] }

def breakOff (w : Wire) (user : Nat) (phase : Phase)
    (keepsStreams : Bool) : Wire :=
  { w with
    isOpen := false
    hasStreams := w.hasStreams && keepsStreams }.release.setPhase user phase

def abandon (w : Wire) (user : Nat) : Option Wire :=
  match w.phase? user with
  | some (.queued _) =>
      let w := { w with queue := w.queue.filter (fun u => u ≠ user) }
      some ((if w.holder = some user then w.release else w).setPhase
        user .abandoned)
  | some (.writing _) => some (w.breakOff user .abandoned true)
  | some .reading => some (w.breakOff user .abandoned true)
  | _ => none

def read (w : Wire) (user : Nat) : Option Wire :=
  match w.inbound with
  | [] => none
  | .ok value :: rest =>
      some ({ w with inbound := rest }.release.setPhase user
        (.finished (.ok value)))
  | .error e :: rest =>
      some ({ w with inbound := rest }.breakOff user
        (.finished (.error (.connection w.address e.message))) false)

def write (w : Wire) (user count : Nat) (rest : Bytes) : Wire :=
  let w := { w with outbound := w.outbound ++ [(user, rest.take count)] }
  if rest.length ≤ count then
    { w with requested := w.requested ++ [user] }.setPhase user .reading
  else
    w.setPhase user (.writing (rest.drop count))

/-- What can happen on a connection. -/
inductive Event where
  /-- Somebody sends a command. -/
  | dispatch (command : Command)
  /-- Somebody closes the connection. -/
  | close
  /-- A user who has waited gets the turn. -/
  | granted (user : Nat)
  /-- Some bytes of a request go out. -/
  | wrote (user count : Nat)
  /-- Nothing can be sent any more. -/
  | writeFailed (user : Nat) (reason : String)
  /-- A reply comes in, or something that is none. -/
  | arrived (reply : Except Resp.ReadError Resp.Value)
  /-- A user reads the next reply. -/
  | read (user : Nat)
  /-- A user goes away. -/
  | abandon (user : Nat)
  /-- A user has closed the connection. -/
  | closed (user : Nat)
  deriving Repr

/-- The connection after an event. -/
def step (w : Wire) : Event -> Option Wire
  | .dispatch command =>
      let request := command.toValue.encode
      some (w.enter (.queued request)
        (fun w user => w.beginExchange user request))
  | .close => some ({ w with isOpen := false }.enter .leaving beginClose)
  | .granted user =>
      if w.holder = some user then
        match w.phase? user with
        | some (.queued request) => some (w.beginExchange user request)
        | some .leaving => some (w.beginClose user)
        | _ => none
      else
        none
  | .wrote user count =>
      match w.phase? user with
      | some (.writing rest) => some (w.write user count rest)
      | _ => none
  | .writeFailed user reason =>
      match w.phase? user with
      | some (.writing _) =>
          some (w.breakOff user
            (.finished
              (.error
                (.connection w.address (Resp.ReadError.io reason).message)))
            false)
      | _ => none
  | .arrived reply => some { w with inbound := w.inbound ++ [reply] }
  | .read user =>
      match w.phase? user with
      | some .reading => w.read user
      | _ => none
  | .abandon user => w.abandon user
  | .closed user =>
      match w.phase? user with
      | some .closing => some (w.release.setPhase user .closed)
      | _ => none

/-- The connection after a sequence of events. -/
def run (w : Wire) (events : List Event) : Option Wire :=
  SlotCluster.run step w events

def result? (w : Wire) (user : Nat) : Option (Except ClusterError Resp.Value) :=
  match w.phase? user with
  | some (.finished result) => some result
  | _ => none

end Wire

def handshakeCommand (password : String) : Command :=
  .make "AUTH" [Utf8.encode password]

/-- What the answer to a credential means: an error reply refuses it, and any
other accepts it. -/
def handshakeResult (address : String) :
    Except ClusterError Resp.Value -> Except ClusterError Unit
  | .error e => .error e
  | .ok (.error text) => .error (.auth address (Utf8.decodeLossy text))
  | .ok _ => .ok ()

end Transport
end SlotCluster
