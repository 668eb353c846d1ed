import SlotCluster.CommandLine.Help
import SlotCluster.Text.Decimal

/-!
# Arguments of the command line

```text
[options] nodes
[options] exec <name> <argument> ...
[options] help <subcommand>
```

Options stand before the subcommand.  A value follows its option as the next
argument, after an equals sign, or, for short options, at once.  A next argument
that looks like an option is not a value.  From the first word after `exec` on,
every argument belongs to the command, however it looks.

A value that is a part of its option's argument is used at once.  A value in an
argument of its own is used when the next option is met, or at the end: help
that a subcommand is asked for in between is given, even if the value turns out
to be unusable.
-/

namespace SlotCluster
namespace CommandLine

/-- What to do. -/
inductive Action where
  /-- Print the nodes of the cluster. -/
  | nodes
  /-- Route one command through the cluster and print the reply. -/
  | exec (words : List String)
  deriving DecidableEq, Repr

/-- Options before the subcommand. -/
structure Options where
  seeds : List String := []
  password : Option String := none
  config : Option String := none
  logLevel : Option String := none
  refreshSeconds : Option UInt64 := none
  deriving DecidableEq, Repr

/-- What arguments ask for. -/
inductive Request where
  | run (options : Options) (action : Action)
  /-- Explain the usage. -/
  | help (topic : Topic)
  /-- The arguments cannot be understood. -/
  | misuse
  deriving DecidableEq, Repr

/-- Options that take a value. -/
inductive Opt where
  | seed
  | password
  | config
  | logLevel
  | refreshSeconds
  deriving DecidableEq, Repr

namespace Opt

def ofLong? (name : List Char) : Option Opt :=
  match String.ofList name with
  | "seed" => some .seed
  | "password" => some .password
  | "config" => some .config
  | "log-level" => some .logLevel
  | "refresh-secs" => some .refreshSeconds
  | _ => none

def ofShort? : Char -> Option Opt
  | 's' => some .seed
  | 'p' => some .password
  | _ => none

end Opt

def setOnce {α : Type} (old : Option α) (value : α) : Option (Option α) :=
  match old with
  | none => some (some value)
  | some _ => none

def Options.add (o : Options) (opt : Opt) (value : String) : Option Options :=
  match opt with
  | .seed => some { o with seeds := o.seeds ++ [value] }
  | .password =>
      (setOnce o.password value).map (fun password => { o with password })
  | .config =>
      if value.isEmpty then
        none
      else
        (setOnce o.config value).map (fun config => { o with config })
  | .logLevel =>
      (setOnce o.logLevel value).map (fun logLevel => { o with logLevel })
  | .refreshSeconds =>
      match Decimal.below? UInt64.size value.toList with
      | some n =>
          (setOnce o.refreshSeconds (UInt64.ofNat n)).map
            (fun refreshSeconds => { o with refreshSeconds })
      | none => none

/-- Whether an argument looks like an option or ends the options. -/
def looksLikeOption (arg : String) : Bool :=
  match arg.toList with
  | '-' :: _ :: _ => true
  | _ => false

/-- What an argument that looks like an option is. -/
inductive Reading where
  | help
  /-- An option with its value. -/
  | full (opt : Opt) (value : String)
  /-- An option whose value comes next. -/
  | awaiting (opt : Opt)
  | unknown
  deriving DecidableEq, Repr

def readShort : List Char -> Reading
  | 'h' :: _ => .help
  | c :: rest =>
      match Opt.ofShort? c, rest with
      | some opt, [] => .awaiting opt
      | some opt, '=' :: value => .full opt (String.ofList value)
      | some opt, value => .full opt (String.ofList value)
      | none, _ => .unknown
  | [] => .unknown

def readLong (text : List Char) : Reading :=
  match Text.splitFirst '=' text with
  | some (name, value) =>
      match Opt.ofLong? name with
      | some opt => .full opt (String.ofList value)
      | none => .unknown
  | none =>
      if text = "help".toList then .help
      else
        match Opt.ofLong? text with
        | some opt => .awaiting opt
        | none => .unknown

def readOption (arg : String) : Reading :=
  match arg.toList with
  | '-' :: '-' :: [] => .unknown
  | '-' :: '-' :: text => readLong text
  | '-' :: text => readShort text
  | _ => .unknown

/-- What the words after the options ask for. -/
inductive Words where
  | act (action : Action)
  | help (topic : Topic)
  | misuse
  deriving DecidableEq, Repr

def readNodes : List String -> Words
  | [] => .act .nodes
  | ["--"] => .act .nodes
  | arg :: _ =>
      if arg = "--help" || arg.toList.take 2 = ['-', 'h'] then
        .help .nodes
      else
        .misuse

/-- Whether the first word after `exec` asks for help: the long option, or
letters that all do. -/
def asksForHelp (arg : String) : Bool :=
  arg = "--help" ||
    match arg.toList with
    | '-' :: c :: rest => (c :: rest).all (fun x => x = 'h')
    | _ => false

/-- Read what follows `exec`.  The long option for help takes no value. -/
def readExec : List String -> Words
  | [] => .misuse
  | "--" :: rest => if rest.isEmpty then .misuse else .act (.exec rest)
  | arg :: rest =>
      if asksForHelp arg then .help .exec
      else if arg.toList.take 7 = "--help=".toList then .misuse
      else .act (.exec (arg :: rest))

/-- Read what follows `help`: nothing, or the name of a subcommand. -/
def readHelp : List String -> Words
  | [] => .help .program
  | [name] =>
      match Topic.ofName? name with
      | some topic => .help topic
      | none => .misuse
  | _ => .misuse

def readWords (name : String) (rest : List String) : Words :=
  match Topic.ofName? name with
  | some .nodes => readNodes rest
  | some .exec => readExec rest
  | some .help => readHelp rest
  | _ => .misuse

/-- Read arguments after some options.  There are no options if the last value
cannot be used. -/
def readFrom (options : Option Options) : List String -> Request
  | [] => .misuse
  | arg :: rest =>
      if looksLikeOption arg then
        match options, readOption arg, rest with
        | some _, .help, _ => .help .program
        | some options, .full opt value, rest =>
            match options.add opt value with
            | some options => readFrom (some options) rest
            | none => .misuse
        | some options, .awaiting opt, value :: rest =>
            if looksLikeOption value then
              .misuse
            else
              readFrom (options.add opt value) rest
        | _, _, _ => .misuse
      else
        match readWords arg rest, options with
        | .help topic, _ => .help topic
        | .act action, some options => .run options action
        | _, _ => .misuse

def read (args : List String) : Request :=
  readFrom (some {}) args

end CommandLine
end SlotCluster
