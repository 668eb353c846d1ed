import SlotCluster.Json.Reader
import SlotCluster.Main
import SlotCluster.Proofs.Client.Agreement
import SlotCluster.Proofs.Client.Departures
import SlotCluster.Proofs.Client.FirstLoad
import SlotCluster.Proofs.Client.Masters
import SlotCluster.Proofs.Client.Reloads
import SlotCluster.Proofs.Client.Scheduling
import SlotCluster.Proofs.Client.SharedLoads
import SlotCluster.Proofs.Client.Timetables
import SlotCluster.Proofs.Config.Overlays
import SlotCluster.Proofs.Discovery.Closings
import SlotCluster.Proofs.Discovery.Reconciliation
import SlotCluster.Proofs.Pool.Aliases
import SlotCluster.Proofs.Pool.Errors
import SlotCluster.Proofs.Pool.Evictions
import SlotCluster.Proofs.Pool.Informed
import SlotCluster.Proofs.Pool.NoLeak
import SlotCluster.Proofs.Pool.Reports
import SlotCluster.Proofs.Pool.SingleFlight
import SlotCluster.Proofs.Resp.Canonical
import SlotCluster.Proofs.Resp.Descent
import SlotCluster.Proofs.Resp.Intake
import SlotCluster.Proofs.Resp.Limit
import SlotCluster.Proofs.Resp.Numbers
import SlotCluster.Proofs.Resp.Requests
import SlotCluster.Proofs.Resp.Truncation
import SlotCluster.Proofs.Routing.Collisions
import SlotCluster.Proofs.Routing.Tags
import SlotCluster.Proofs.Routing.Verdicts
import SlotCluster.Proofs.Topology.Comparison
import SlotCluster.Proofs.Topology.Indexing
import SlotCluster.Proofs.Topology.Listings
import SlotCluster.Proofs.Transport.Replies
import SlotCluster.Rehearsal.Conversation
import SlotCluster.Rehearsal.Ticking
import SlotCluster.Topology.Record
