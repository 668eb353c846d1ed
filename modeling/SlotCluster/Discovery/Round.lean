import SlotCluster.Discovery.Views
import SlotCluster.Pool.State
import SlotCluster.Run
import SlotCluster.Topology.Listing

/-!
# Rounds of discovery

A round asks every candidate at the same time and ends when every query has
ended.  A source either reports views directly or is a node that is asked for
its listing over a connection of its own: the query connects, sends the
credential if there is one, asks, and closes the connection whatever the answer
was.

A query has one time limit for all of this.  Where it strikes, the query just
stops.
-/

namespace SlotCluster
namespace Discovery

/-- How an endpoint is asked for its view. -/
inductive Source where
  /-- It reports its view directly. -/
  | direct
  /-- It is asked for its node listing over a connection. -/
  | listing
  deriving DecidableEq, Repr

/-- What a query is doing. -/
inductive Phase where
  /-- Waits for a view that is reported directly. -/
  | viewing
  /-- Has asked for a link. -/
  | connecting
  /-- Has sent the credential. -/
  | authenticating
  /-- Has asked for the listing. -/
  | listing
  /-- Closes the link; the answer is known. -/
  | closing (answer : Except ClusterError Resp.Value)
  | finished (result : Except ClusterError (List Node))
  deriving Repr

/-- A query to one endpoint. -/
structure Query where
  endpoint : Endpoint
  phase : Phase
  /-- The link, from the time it is open. -/
  link : Option Link := none
  deriving Repr

def listingCommand : Command :=
  .make "CLUSTER" [Utf8.encode "NODES"]

def nodesOf (queried : Endpoint) :
    Except ClusterError Resp.Value -> Except ClusterError (List Node)
  | .error e => .error e
  | .ok (.error text) => .error (.command text)
  | .ok reply =>
      match reply.text? with
      | none => .error (.unexpectedReply reply.describe)
      | some text =>
          match Listing.parse text queried with
          | .ok nodes => .ok nodes
          | .error e => .error (.topology e)

namespace Query

def start (source : Source) (endpoint : Endpoint) : Query :=
  match source with
  | .direct => { endpoint, phase := .viewing }
  | .listing => { endpoint, phase := .connecting }

def close (q : Query) (answer : Except ClusterError Resp.Value) : Query :=
  { q with
    phase := .closing answer
    link :=
      q.link.map (fun l =>
        { l with isOpen := false, closings := l.closings + 1 }) }

def result? (q : Query) : Option (Except ClusterError (List Node)) :=
  match q.phase with
  | .finished result => some result
  | _ => none

def view? (q : Query) : Option (Endpoint × Table) :=
  match q.phase with
  | .finished (.ok nodes) =>
      match Table.build nodes with
      | .ok table => some (q.endpoint, table)
      | .error _ => none
  | _ => none

/-- What can happen to a query. -/
inductive Event where
  /-- A direct answer has come. -/
  | viewed (result : Except ClusterError (List Node))
  | linked
  | notLinked (error : ClusterError)
  | accepted
  | refused (error : ClusterError)
  /-- The answer to the request for the listing has come, or the link has
  failed. -/
  | answered (answer : Except ClusterError Resp.Value)
  /-- The link has closed by itself. -/
  | broke
  /-- The link has been closed. -/
  | closed
  | timedOut
  deriving Repr

/-- The query after an event. -/
def step (q : Query) : Event -> Option Query
  | .viewed result =>
      match q.phase with
      | .viewing => some { q with phase := .finished result }
      | _ => none
  | .linked =>
      match q.phase with
      | .connecting =>
          let link : Link := { endpoint := q.endpoint }
          match q.endpoint.credential with
          | some _ => some { q with phase := .authenticating, link }
          | none => some { q with phase := .listing, link }
      | _ => none
  | .notLinked error =>
      match q.phase with
      | .connecting => some { q with phase := .finished (.error error) }
      | _ => none
  | .accepted =>
      match q.phase with
      | .authenticating =>
          some
            { q with
              phase := .listing
              link := q.link.map (fun l => { l with isAuthenticated := true }) }
      | _ => none
  | .refused error =>
      match q.phase with
      | .authenticating => some (q.close (.error error))
      | _ => none
  | .answered answer =>
      match q.phase with
      | .listing => some (q.close answer)
      | _ => none
  | .broke =>
      match q.phase with
      | .listing =>
          some { q with
            link := q.link.map (fun l => { l with isOpen := false }) }
      | _ => none
  | .closed =>
      match q.phase with
      | .closing answer =>
          some { q with phase := .finished (nodesOf q.endpoint answer) }
      | _ => none
  | .timedOut =>
      match q.phase with
      | .finished _ => none
      | _ => some { q with phase := .finished (.error .timeout) }

end Query

/-- Queries that run at the same time. -/
structure Round where
  queries : List Query
  deriving Repr

namespace Round

def start (source : Source) (endpoints : List Endpoint) : Round :=
  ⟨(candidates endpoints).map (Query.start source)⟩

def isFinished (r : Round) : Bool :=
  r.queries.all (fun q => q.result?.isSome)

def views (r : Round) : Views :=
  r.queries.filterMap Query.view?

/-- The round after an event of the query at a position. -/
def step (r : Round) (position : Nat) (event : Query.Event) : Option Round :=
  match r.queries[position]? with
  | some q => (q.step event).map (fun q => ⟨r.queries.set position q⟩)
  | none => none

/-- The round after a sequence of events. -/
def run (r : Round) (events : List (Nat × Query.Event)) : Option Round :=
  SlotCluster.run (fun r (position, event) => r.step position event) r events

end Round
end Discovery
end SlotCluster
