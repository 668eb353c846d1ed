import SlotCluster.Address.Duration
import SlotCluster.Address.Socket
import SlotCluster.Text.Split
import SlotCluster.Topology.Error

/-!
# Endpoints

Where a node is reached and what is needed to connect to it.  The address is the
host and the port; the credential, the resolved address and the timeout say how
to connect and do not tell nodes apart.

An endpoint is written `host:port`.  The host may stand in brackets, which are
not part of it, and it may itself hold colons, so the port follows the last one.
-/

namespace SlotCluster

/-- Address of a node and the settings for connecting to it. -/
structure Endpoint where
  host : String
  port : UInt16
  password : Option String := none
  resolved : Option SocketAddress := none
  timeout : Duration := Duration.ofSeconds 60
  deriving DecidableEq, Repr

namespace Endpoint

def atAddress (host : String) (port : UInt16) : Endpoint :=
  { host, port }

def addr (e : Endpoint) : String :=
  e.host ++ ":" ++ String.ofList (Decimal.digits e.port.toNat)

def credential (e : Endpoint) : Option String :=
  e.password.filter (fun p => p ≠ "")

/-- Whether the endpoint has this address. -/
def Matches (e : Endpoint) (host : String) (port : UInt16) : Prop :=
  e.host = host ∧ e.port = port

instance (e : Endpoint) (host : String) (port : UInt16) :
    Decidable (e.Matches host port) :=
  inferInstanceAs (Decidable (_ ∧ _))

def compareAddress (a b : Endpoint) : Ordering :=
  (compare a.host b.host).then (compare a.port b.port)

/-- Whether the first address does not come after the second. -/
def addressLE (a b : Endpoint) : Bool :=
  (compareAddress a b).isLE

/-- The endpoints by host and port; those with one address keep their order. -/
def sort (endpoints : List Endpoint) : List Endpoint :=
  endpoints.mergeSort addressLE

def unbracket (host : List Char) : List Char :=
  Text.trimRight (fun c => c == ']') (Text.trimLeft (fun c => c == '[') host)

/-- Host and port of an address text, where the host may be empty. -/
def splitAddress? (text : List Char) : Option (List Char × UInt16) :=
  match Text.splitLast ':' text with
  | none => none
  | some (host, port) =>
      (Decimal.below? 65536 port).map
        (fun n => (unbracket host, UInt16.ofNat n))

def parse (text : String) : Except TopologyError Endpoint :=
  match splitAddress? text.toList with
  | none => .error (.invalidEndpoint text)
  | some (host, port) =>
      if host.isEmpty then
        .error (.invalidEndpoint text)
      else
        .ok (atAddress (String.ofList host) port)

end Endpoint
end SlotCluster
