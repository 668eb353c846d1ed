import SlotCluster.Text.Split

/-!
# Help

The pages that explain the program and its subcommands.  A page says what its
subject does, how it is called, and what stands in the call.
-/

namespace SlotCluster
namespace CommandLine

/-- What help can be asked about. -/
inductive Topic where
  | program
  | nodes
  | exec
  | help
  deriving DecidableEq, Repr

namespace Topic

def ofName? (name : String) : Option Topic :=
  match name with
  | "nodes" => some .nodes
  | "exec" => some .exec
  | "help" => some .help
  | _ => none

def summary : Topic -> String
  | program => "Cluster-aware client for Redis-compatible clusters"
  | nodes => "Print the discovered cluster nodes and their slots"
  | exec => "Route one command through the cluster and print the reply"
  | help => "Print this message or the help of the given subcommand(s)"

def call : Topic -> String
  | program => "rr-cluster [OPTIONS] <COMMAND>"
  | nodes => "rr-cluster nodes"
  | exec => "rr-cluster exec <ARGS>..."
  | help => "rr-cluster help [COMMAND]..."

/-- The sections of a page after its beginning: a title, and the terms with
their explanations. -/
def sections : Topic -> List (String × List (String × String))
  | program =>
      [("Commands",
        [("nodes", nodes.summary), ("exec", exec.summary),
          ("help", help.summary)]),
        ("Options",
          [("-s, --seed <SEEDS>", "Seed node address (host:port), repeatable"),
            ("-p, --password <PASSWORD>",
              "Password for seeds that do not set one"),
            ("    --config <CONFIG>", "Configuration file path (YAML format)"),
            ("    --log-level <LOG_LEVEL>", "Log level"),
            ("    --refresh-secs <REFRESH_SECS>",
              "Enable periodic topology refresh with this period (seconds)"),
            ("-h, --help", "Print help")])]
  | nodes => [("Options", [("-h, --help", "Print help")])]
  | exec =>
      [("Arguments", [("<ARGS>...", "")]),
        ("Options", [("-h, --help", "Print help")])]
  | help =>
      [("Arguments", [("[COMMAND]...", "Print help for the subcommand(s)")])]

/-- The lines of a section, whose explanations stand in one column. -/
def renderSection (title : String)
    (entries : List (String × String)) : String :=
  let width := entries.foldl (fun width e => max width e.1.length) 0
  let line (e : String × String) : String :=
    "\n  " ++ e.1 ++
      String.ofList (List.replicate (width - e.1.length + 2) ' ') ++ e.2
  "\n\n" ++ title ++ ":" ++ String.join (entries.map line)

def render (t : Topic) : String :=
  t.summary ++ "\n\nUsage: " ++ t.call ++
    String.join (t.sections.map (fun s => renderSection s.1 s.2)) ++ "\n"

end Topic
end CommandLine
end SlotCluster
