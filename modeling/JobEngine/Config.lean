import JobEngine.Job.Retry
import JobEngine.Log.Filter.Parser
import JobEngine.Log.Format
import JobEngine.Text.Numeral
/-! Settings, read from an environment by name. A malformed number is reported and its default
taken; nothing in the environment but a filter with a broken character keeps the process from
starting. -/

namespace JobEngine

/-- The settings of a process: the value of each name that is set. -/
abbrev Environment := String → Option String

def Environment.ofList (vars : List (String × String)) : Environment := fun name =>
  Assoc.get? vars name

namespace Config

/-- Reads a number with its blanks trimmed, or reports it and takes the default. -/
def readOr (env : Environment) (name : String) (read : String → Except Text.NumeralError α)
    (show' : α → String) (default : α) : Act σ α := do
  match env name with
  | none => return default
  | some raw =>
    match read (Text.trim raw) with
    | .ok value => return value
    | .error _ =>
      Act.log .jobs .warn "invalid configuration value, using default"
        [("key", .str name), ("value", .shown raw), ("default", .shown (show' default))]
      return default

/-- Numbers below 2^64. -/
def readWide (s : String) : Except Text.NumeralError Nat := Text.readUnsigned (twoTo 64 - 1) s

end Config

structure HarnessConfig where
  /-- A negative limit is none. -/
  maxRetries : Int := RetryPolicy.defaultMaxRetries
  refireDelay : Duration := Duration.zero

namespace HarnessConfig

def maxRetriesName : String := "JOBWRIGHT_MAX_RETRIES"

def refireDelayName : String := "JOBWRIGHT_REFIRE_DELAY_MS"

def ofEnvironment (env : Environment) : Act σ HarnessConfig := do
  let maxRetries ← Config.readOr env maxRetriesName (Text.readSigned (twoTo 31) (twoTo 31 - 1))
    toString RetryPolicy.defaultMaxRetries
  let millis ← Config.readOr env refireDelayName Config.readWide toString 0
  return { maxRetries, refireDelay := Duration.ofMillis millis }

def retryPolicy (c : HarnessConfig) : RetryPolicy :=
  { maxRetries := c.maxRetries, backoff := Backoff.constant c.refireDelay }

end HarnessConfig

structure ExecutorConfig where
  /-- How long a worker sleeps at most when nothing is due. -/
  pollInterval : Duration := Duration.ofMillis 100
  workers : Nat := 4
  name : String := "job-executor"

namespace ExecutorConfig

def workersName : String := "JOBWRIGHT_WORKERS"

def pollIntervalName : String := "JOBWRIGHT_POLL_INTERVAL_MS"

/-- At least one worker. -/
def withWorkers (c : ExecutorConfig) (workers : Nat) : ExecutorConfig :=
  { c with workers := max workers 1 }

def ofEnvironment (env : Environment) : Act σ ExecutorConfig := do
  let base : ExecutorConfig := {}
  let millis ← Config.readOr env pollIntervalName Config.readWide toString 100
  let workers ← Config.readOr env workersName Config.readWide toString base.workers
  return { base with pollInterval := Duration.ofMillis millis }.withWorkers workers

end ExecutorConfig

inductive StoreBackend where
  | inMemory
  | postgres (databaseUrl : String)
  deriving DecidableEq

structure StoreConfig where
  backend : StoreBackend := .inMemory
  maxConnections : Nat := 5

namespace StoreConfig

def databaseUrlName : String := "DATABASE_URL"

def persistentName : String := "USE_PERSISTENT_STORES"

def maxConnectionsName : String := "JOBWRIGHT_DB_MAX_CONNECTIONS"

/-- The database is used only when it is asked for by the exact word `true` and has an address. -/
def readBackend (env : Environment) : Act σ StoreBackend := do
  if env persistentName = some "true" then
    match env databaseUrlName with
    | some url => return .postgres url
    | none =>
      Act.log .infra .warn
        (persistentName ++ "=true but " ++ databaseUrlName ++
          " is not set, falling back to in-memory")
      return .inMemory
  else return .inMemory

/-- The number of connections is read as it stands, blanks included. -/
def readMaxConnections (env : Environment) (default : Nat) : Act σ Nat := do
  match env maxConnectionsName with
  | none => return default
  | some raw =>
    match Text.readUnsigned (twoTo 32 - 1) raw with
    | .ok n => return n
    | .error e =>
      Act.log .infra .warn "invalid value, using default"
        [("key", .str maxConnectionsName), ("value", .shown raw), ("error", .shown e.message)]
      return default

def ofEnvironment (env : Environment) : Act σ StoreConfig := do
  let base : StoreConfig := {}
  let backend ← readBackend env
  let maxConnections ← readMaxConnections env base.maxConnections
  return { backend, maxConnections := max maxConnections 1 }

end StoreConfig

def LogFormat.settingName : String := "JOBWRIGHT_LOG_FORMAT"

def LogFormat.ofEnvironment (env : Environment) : LogFormat := ofSetting (env settingName)

def Filter.settingName : String := "RUST_LOG"

/-- The exit code of a process that cannot have a filter. -/
def Filter.crashCode : Nat := 101

def Filter.ofEnvironment (env : Environment) : Option Filter := ofSetting (env settingName)

end JobEngine
