import SlotCluster.Command
import SlotCluster.Config.Settings
import SlotCluster.Resp.Parser
import SlotCluster.Topology.Error

/-!
# What can go wrong in a client

Every reason for which a request to the cluster fails.  A node that answers with
an error reply has not failed; its answer is a value until somebody needs
another one.
-/

namespace SlotCluster

/-- Reasons why a request to the cluster fails. -/
inductive ClusterError where
  /-- None of the seeds has reported a usable view. -/
  | noViewAvailable (seeds : List Endpoint)
  /-- A connection could not be opened or has failed. -/
  | connection (address reason : String)
  /-- A node refused the credential. -/
  | auth (address reason : String)
  | unknownNode (id : String)
  /-- A command without a key cannot be routed. -/
  | noKey (name : String)
  /-- A node answered with an error reply where a result is needed. -/
  | command (text : Bytes)
  /-- A node answered with a value of the wrong shape. -/
  | unexpectedReply (description : String)
  | invalidCommand (error : CommandError)
  | topology (error : TopologyError)
  | protocol (error : Resp.ReadError)
  | config (error : ConfigError)
  | timeout
  | shutdown
  deriving DecidableEq, Repr

namespace ClusterError

def message : ClusterError -> String
  | noViewAvailable seeds =>
      "Cannot retrieve cluster partitions from " ++
        Text.joinTexts ", " (seeds.map Endpoint.addr)
  | connection address reason =>
      "Failed to connect to " ++ address ++ ": " ++ reason
  | auth address reason =>
      "Authentication failed for " ++ address ++ ": " ++ reason
  | unknownNode id => "Unknown node: " ++ id
  | noKey name =>
      "Command " ++ name ++ " has no key and cannot be routed to a node"
  | command text => "Command failed: " ++ Utf8.decodeLossy text
  | unexpectedReply description => "Unexpected reply: " ++ description
  | invalidCommand error => "Invalid command: " ++ error.display
  | topology error => "Partition error: " ++ error.message
  | protocol error => "Protocol error: " ++ error.message
  | config error => "Configuration error: " ++ error.message
  | timeout => "Operation timed out"
  | shutdown => "Client is shut down"

def connectTimedOut (endpoint : Endpoint) : ClusterError :=
  connection endpoint.addr "connect timed out"

/-- The error of a credential handshake: a refusal stays as it is, and every
other failure becomes one. -/
def ofHandshake (endpoint : Endpoint) : ClusterError -> ClusterError
  | auth address reason => auth address reason
  | other => auth endpoint.addr other.message

end ClusterError
end SlotCluster
