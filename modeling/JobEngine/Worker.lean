import JobEngine.Event.Broadcast
import JobEngine.Executor
import JobEngine.Pools.Refresh
import JobEngine.Registration
import JobEngine.Statistic.History
import JobEngine.Stores
import JobEngine.Text.Blank
/-! The worker process. It opens its stores, registers the daily statistics under a fixed key,
submits one refresh for each owner that the settings name, and then fires what is due until it is
told to stop. Every event that leaves a run is written to the log. -/

namespace JobEngine

/-- The jobs that a worker knows. -/
inductive WorkerJob where
  | statistics
  | refresh

/-- What a worker keeps. -/
structure Worker where
  storage : Storage := {}
  pools : PoolStore := {}
  bus : Broadcast OutboundEvent := { historyLimit := some 1024 }
  scheduler : Scheduler WorkerJob Unit :=
    { registry := [(StatisticHistory.kind, .statistics), (PoolRefresh.kind, .refresh)]
      listeners := [(StatusListener.name, ())] }

inductive WorkerError where
  | stores (e : StoreError)
  | registration (e : RegistrationError)
  | scheduler (e : SchedulerError)

def WorkerError.message : WorkerError → String
  | .stores e => e.message
  | .registration e => e.message
  | .scheduler e => e.message

/-- A worker that has started. -/
structure WorkerSession where
  stores : Stores Worker
  harness : HarnessConfig
  executor : ExecutorConfig
  /-- The subscription whose events are logged. -/
  relay : Nat
  startedAt : Instant

namespace Worker

def storagePart : Part Worker Storage := ⟨(·.storage), fun t s => { s with storage := t }⟩

def poolsPart : Part Worker PoolStore := ⟨(·.pools), fun t s => { s with pools := t }⟩

def busPart : Part Worker (Broadcast OutboundEvent) := ⟨(·.bus), fun t s => { s with bus := t }⟩

def schedulerPart : Part Worker (Scheduler WorkerJob Unit) :=
  ⟨(·.scheduler), fun t s => { s with scheduler := t }⟩

def service : JobScheduler Worker := Scheduler.service schedulerPart

def refreshJob : Job Worker := PoolRefresh.job (PoolRefresh.inMemory poolsPart)

def job (stores : Stores Worker) (thread : ThreadName) : WorkerJob → Job Worker
  | .statistics =>
    StatisticHistory.job (StatisticHistory.countRows (stores.ledger thread))
      (stores.statistics thread)
  | .refresh => refreshJob

/-- Registers the daily statistics. A row that is there already is kept, and the trigger is attached
all the same, because the scheduler starts empty. -/
def registerStatistics (stores : Stores Worker) : Act Worker (Except WorkerError Unit) := do
  let definition : JobDefinition :=
    { key := ⟨StatisticHistory.kind⟩, kind := StatisticHistory.kind }
  let trigger : Trigger := { schedule := .every StatisticHistory.interval (← Act.now) }
  match ← Registration.scheduleJob (stores.ledger .main) service definition (some trigger) with
  | .error e => return .error (.registration e)
  | .ok status =>
    unless ← schedulerPart.read (·.contains definition.key) do
      if let .error e ← service.scheduleJob definition trigger then return .error (.scheduler e)
    Act.log .worker .info "statistics history scheduled"
      [("job_id", .shown status.id.text), ("state", .shown status.state.name)]
    return .ok ()

def refreshOwnersName : String := "JOBWRIGHT_REFRESH_OWNERS"

/-- Every name under which a setting of the process may stand. -/
def settingNames : List String :=
  [HarnessConfig.maxRetriesName, HarnessConfig.refireDelayName, ExecutorConfig.workersName,
    ExecutorConfig.pollIntervalName, StoreConfig.databaseUrlName, StoreConfig.persistentName,
    StoreConfig.maxConnectionsName, LogFormat.settingName, Filter.settingName, refreshOwnersName]

/-- Owners separated by commas, without their blanks; empty places are skipped. -/
def refreshOwners (setting : Option String) : List TenantKey :=
  ((setting.getD "").splitOn ",").filterMap fun s => (TenantKey.ofText s).toOption

/-- Submits a lazy refresh of one owner's pools. -/
def submitRefresh (stores : Stores Worker) (owner : TenantKey) : Act Worker Unit := do
  let definition ← PoolRefresh.definition owner true
  match ← Registration.submitNow (stores.ledger .main) service refreshJob definition with
  | .ok status =>
    Act.log .worker .info "pool refresh submitted"
      [("job_id", .shown status.id.text), ("owner", .shown owner.text)]
  | .error (.notSchedulable key) =>
    Act.log .worker .info "pool refresh already running"
      [("job_id", .shown key.text), ("owner", .shown owner.text)]
  | .error e =>
    Act.log .worker .warn "could not submit pool refresh"
      [("owner", .shown owner.text), ("error", .shown e.message)]

def submitAll (stores : Stores Worker) : List TenantKey → Act Worker Unit
  | [] => pure ()
  | owner :: rest => do
    submitRefresh stores owner
    submitAll stores rest

/-- Reads the settings, opens the stores, registers the jobs and starts the executor. -/
def start (env : Environment) : Act Worker (Except WorkerError WorkerSession) := do
  let harness ← HarnessConfig.ofEnvironment env
  match ← Stores.ofConfig storagePart (← StoreConfig.ofEnvironment env) with
  | .error e => return .error (.stores e)
  | .ok stores =>
    let relay ← busPart.run (·.subscribe)
    if let .error e ← registerStatistics stores then return .error e
    submitAll stores (refreshOwners (env refreshOwnersName))
    let executor ← ExecutorConfig.ofEnvironment env
    Executor.start executor
    return .ok { stores, harness, executor, relay, startedAt := ← Act.now }

def engine (s : WorkerSession) : Engine Worker WorkerJob Unit where
  scheduler := schedulerPart
  harness :=
    { policy := s.harness.retryPolicy
      bus := Broadcast.service busPart
      unitOfWork := some (s.stores.unitOfWork .worker) }
  job := job s.stores .worker
  listener _ := StatusListener.listener (s.stores.ledger .worker)

def logEvent (e : OutboundEvent) : Act σ Unit :=
  Act.log .worker .info "event published"
    ([("event_id", .shown e.eventId.text), ("event_type", .str e.eventType),
        ("target", .str e.target)] ++
      (e.tenant.map fun t => ("tenant", Log.Value.str t.text)).toList)

def logEvents : List OutboundEvent → Act σ Unit
  | [] => pure ()
  | e :: rest => do
    logEvent e
    logEvents rest

/-- Logs the events that have been published since the last time. -/
def relayEvents (s : WorkerSession) : Act Worker Unit := do
  logEvents (← busPart.run (·.drain s.relay))

/-- One turn of the workers. -/
def turn (s : WorkerSession) (stats : ExecutorStats) : Act Worker ExecutorStats := do
  let stats ← Executor.turn (engine s) s.executor.pollInterval stats
  relayEvents s
  return stats

/-- Whether no fire is due. -/
def isIdle : Act Worker Bool := do
  let now ← Act.now
  return match ← schedulerPart.read Scheduler.nextDue with
    | none => true
    | some due => now < due

/-- Turns until enough jobs have succeeded and no fire is due, or so many turns have passed. -/
def turns (s : WorkerSession) (enough : Nat) : Nat → ExecutorStats → Act Worker ExecutorStats
  | 0, stats => pure stats
  | n + 1, stats => do
    if enough ≤ stats.succeeded then
      if ← isIdle then return stats
    turns s enough n (← turn s stats)

/-- Stops the executor and tells what it has done. -/
def shutdown (s : WorkerSession) (stats : ExecutorStats) : Act Worker Unit := do
  Act.log .worker .info "shutdown requested"
  Executor.stop s.executor
  let now ← Act.now
  Act.log .worker .info "job executor stopped"
    [("fires", .int stats.processed), ("succeeded", .int stats.succeeded),
      ("refired", .int stats.refired), ("failed", .int stats.failed),
      ("vetoed", .int stats.vetoed), ("uptime_secs", .int (now.seconds - s.startedAt.seconds))]

/-- A whole life of a worker, which is told to stop when so many jobs have succeeded and it has
nothing left to do. -/
def live (env : Environment) (successes mostTurns : Nat) :
    Act Worker (Except WorkerError Unit) := do
  match ← start env with
  | .error e => return .error e
  | .ok s =>
    shutdown s (← turns s successes mostTurns {})
    return .ok ()

end Worker

end JobEngine
