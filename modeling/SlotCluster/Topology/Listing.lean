import SlotCluster.Text.Blank
import SlotCluster.Topology.Table

/-!
# Node listings

The answer of a node to the question which nodes it knows.  A listing has one
line per node:

```text
<id> <host:port@bus-port[,hostname]> <flags> <master>
    <ping> <pong> <epoch> <link> <slot> ...
```

A node may leave out its own host, which is then the host that was asked.  Slots
are single numbers or ranges with both ends included; tokens in brackets tell of
slots on the move and own nothing.
-/

namespace SlotCluster
namespace Listing

def parseAddress (field : List Char) (queried : Endpoint) :
    Except TopologyError Endpoint :=
  match Endpoint.splitAddress? (Text.upTo '@' (Text.upTo ',' field)) with
  | none => .error (.invalidEndpoint (String.ofList field))
  | some (host, port) =>
      .ok
        { host := if host.isEmpty then queried.host else String.ofList host
          port
          timeout := queried.timeout }

def parseSlot? (text : List Char) : Option UInt32 :=
  (Decimal.below? 4294967296 text).map UInt32.ofNat

def parseSlots (token : List Char) : Except TopologyError SlotRange :=
  let refused :=
    TopologyError.invalidEndpoint
      ("invalid slot token: " ++ String.ofList token)
  match Text.splitFirst '-' token with
  | some (first, last) =>
      match parseSlot? first, parseSlot? last with
      | some first, some last => SlotRange.inclusive first last
      | _, _ => .error refused
  | none =>
      match parseSlot? token with
      | some slot => SlotRange.single slot
      | none => .error refused

/-- The flags of a comma-separated list; unknown words are skipped. -/
def parseFlags (field : List Char) : FlagSet :=
  .ofList
    ((Text.splitAll ',' field).filterMap
      (fun word => Flag.ofWord? (String.ofList word)))

def parseMaster (field : List Char) : Option String :=
  if field = ['-'] then none else some (String.ofList field)

def parseRanges : List (List Char) -> Except TopologyError (List SlotRange)
  | [] => .ok []
  | token :: rest =>
      if token.head? = some '[' then
        parseRanges rest
      else
        match parseSlots token with
        | .error e => .error e
        | .ok range =>
            match parseRanges rest with
            | .error e => .error e
            | .ok ranges => .ok (range :: ranges)

/-- The node of a line that is not blank and has no white space around it. -/
def parseLine (queried : Endpoint) (line : List Char) :
    Except TopologyError Node :=
  match Text.words line with
  | id :: address :: flags :: master :: _ping :: _pong :: _epoch ::
      _link :: slots =>
      match parseAddress address queried with
      | .error e => .error e
      | .ok endpoint =>
          match parseRanges slots with
          | .error e => .error e
          | .ok ranges =>
              .ok
                { id := String.ofList id
                  endpoint
                  flags := parseFlags flags
                  masterId := parseMaster master
                  slots := ranges }
  | _ =>
      .error (.invalidEndpoint ("malformed node line: " ++ String.ofList line))

/-- The nodes of lines, up to the first line that cannot be read. -/
def parseLines (queried : Endpoint) :
    List (List Char) -> Except TopologyError (List Node)
  | [] => .ok []
  | line :: rest =>
      match parseLine queried line with
      | .error e => .error e
      | .ok node =>
          match parseLines queried rest with
          | .error e => .error e
          | .ok nodes => .ok (node :: nodes)

/-- The lines of a listing without white space around them, blank ones left
out. -/
def linesOf (text : List Char) : List (List Char) :=
  ((Text.splitAll '\n' text).map Text.trim).filter (fun line => !line.isEmpty)

def parse (text : String) (queried : Endpoint) :
    Except TopologyError (List Node) :=
  parseLines queried (linesOf text.toList)

end Listing
end SlotCluster
