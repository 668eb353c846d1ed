import SlotCluster.Address.Endpoint

/-!
# Settings of a client

What a client is told before it starts: the nodes to ask first, how often to
look for changes, how long to wait, and how much to log.  Every setting but the
seeds has a default.

Settings are merged by overlaying: a value that is empty, zero or false leaves
the value below it alone.
-/

namespace SlotCluster

/-- Why settings cannot drive a client. -/
inductive SettingsFault where
  | noSeeds
  | invalidSeed (host : String) (port : UInt16)
  | zeroPeriod
  deriving DecidableEq, Repr

/-- What can be wrong with settings and their files. -/
inductive ConfigError where
  | missingFile
  /-- The path cannot name a file. -/
  | unusablePath
  /-- The file does not hold text. -/
  | notText
  /-- The text cannot be read as settings. -/
  | malformed
  | invalid (fault : SettingsFault)
  deriving DecidableEq, Repr

def SettingsFault.message : SettingsFault -> String
  | noSeeds => "at least one seed is required"
  | invalidSeed host port =>
      "invalid seed address " ++ host ++ ":" ++ toString port.toNat
  | zeroPeriod => "refresh_period_secs must be > 0"

def ConfigError.message : ConfigError -> String
  | missingFile => "IO error: No such file or directory (os error 2)"
  | unusablePath => "IO error: file name contained an unexpected NUL byte"
  | notText => "IO error: stream did not contain valid UTF-8"
  | malformed => "Parse error: the text is not a configuration"
  | invalid fault => "Invalid configuration: " ++ fault.message

/-- What is wrong with a path at which there is no file: no name holds a
character of code zero. -/
def ConfigError.ofPath (path : String) : ConfigError :=
  if path.toList.contains '\x00' then unusablePath else missingFile

/-- A node to ask first. -/
structure Seed where
  host : String
  port : UInt16
  password : Option String := none
  deriving DecidableEq, Repr

/-- Settings for looking at the cluster. -/
structure ViewSettings where
  /-- Whether the view is renewed periodically. -/
  refresh : Bool := false
  refreshSeconds : UInt64 := 60
  /-- How long one node may take to report its view. -/
  discoveryMillis : UInt64 := 1000
  deriving DecidableEq, Repr

/-- Settings for talking to nodes. -/
structure LinkSettings where
  connectMillis : UInt64 := 10000
  /-- How long a command may take; zero leaves that to the first seed. -/
  commandMillis : UInt64 := 0
  deriving DecidableEq, Repr

/-- Settings of a client. -/
structure Settings where
  seeds : List Seed := []
  view : ViewSettings := {}
  link : LinkSettings := {}
  logLevel : String := "info"
  deriving DecidableEq, Repr

def overlayNumber (lower upper : UInt64) : UInt64 :=
  if 0 < upper then upper else lower

/-- The settings for looking at the cluster with others laid over them. -/
def ViewSettings.merge (lower upper : ViewSettings) : ViewSettings :=
  { refresh := lower.refresh || upper.refresh
    refreshSeconds := overlayNumber lower.refreshSeconds upper.refreshSeconds
    discoveryMillis :=
      overlayNumber lower.discoveryMillis upper.discoveryMillis }

/-- The settings for talking to nodes with others laid over them. -/
def LinkSettings.merge (lower upper : LinkSettings) : LinkSettings :=
  { connectMillis := overlayNumber lower.connectMillis upper.connectMillis
    commandMillis := overlayNumber lower.commandMillis upper.commandMillis }

namespace Settings

def ofSeeds (seeds : List Seed) : Settings :=
  { seeds }

def merge (lower upper : Settings) : Settings :=
  { seeds := if upper.seeds.isEmpty then lower.seeds else upper.seeds
    view := lower.view.merge upper.view
    link := lower.link.merge upper.link
    logLevel :=
      if upper.logLevel.isEmpty then lower.logLevel else upper.logLevel }

def isUnusable (seed : Seed) : Bool :=
  seed.host.isEmpty || seed.port = 0

def validate (s : Settings) : Except ConfigError Unit :=
  if s.seeds.isEmpty then
    .error (.invalid .noSeeds)
  else
    match s.seeds.find? isUnusable with
    | some seed => .error (.invalid (.invalidSeed seed.host seed.port))
    | none =>
        if s.view.refreshSeconds = 0 then
          .error (.invalid .zeroPeriod)
        else
          .ok ()

def connectTimeout (s : Settings) : Duration :=
  .ofMillis s.link.connectMillis.toNat

def commandTimeout (s : Settings) : Option Duration :=
  if 0 < s.link.commandMillis then
    some (.ofMillis s.link.commandMillis.toNat)
  else
    none

def refreshPeriod (s : Settings) : Duration :=
  .ofSeconds s.view.refreshSeconds.toNat

def discoveryTimeout (s : Settings) : Duration :=
  .ofMillis s.view.discoveryMillis.toNat

def seedEndpoints (s : Settings) : List Endpoint :=
  s.seeds.map (fun seed =>
    { host := seed.host
      port := seed.port
      password := seed.password
      timeout := s.connectTimeout })

end Settings
end SlotCluster
