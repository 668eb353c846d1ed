import SlotCluster.Error
import SlotCluster.Topology.Table

/-!
# Views of the cluster

Different nodes may see different clusters.  Every candidate is asked once, in
the order of addresses, and the first view in that order is the canonical one.
So the result depends on who answers what, and never on who answers first.
-/

namespace SlotCluster
namespace Discovery

/-- Drop every endpoint that has the address of the one before it. -/
def dropRepeated : List Endpoint -> List Endpoint
  | a :: b :: rest =>
      if a.Matches b.host b.port then
        dropRepeated (a :: rest)
      else
        a :: dropRepeated (b :: rest)
  | short => short
termination_by l => l.length

/-- The endpoints to ask: one for every address, in the order of addresses. -/
def candidates (seeds : List Endpoint) : List Endpoint :=
  dropRepeated (Endpoint.sort seeds)

/-- Views with the endpoints that reported them, in the order of addresses. -/
abbrev Views := List (Endpoint × Table)

namespace Views

def first? (views : Views) : Option Table :=
  views.head?.map Prod.snd

def viewedBy? (views : Views) (host : String) (port : UInt16) : Option Table :=
  (views.find? (fun v => v.1.Matches host port)).map Prod.snd

/-- The first view, whose nodes take over the credential of the endpoint that
reported it. -/
def canonical? : Views -> Option Table
  | [] => none
  | (endpoint, table) :: _ =>
      match endpoint.credential with
      | some password => some (table.withCredential password)
      | none => some table

def load (seeds : List Endpoint) (views : Views) : Except ClusterError Table :=
  match views.canonical? with
  | some table => .ok table
  | none => .error (.noViewAvailable seeds)

end Views
end Discovery
end SlotCluster
