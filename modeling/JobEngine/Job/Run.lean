import JobEngine.Job.Definition
/-! One fire of a job, one attempt at it, and the context under which the attempt is logged. -/

namespace JobEngine

/-- What the scheduler hands over for one fire. -/
structure FireContext where
  definition : JobDefinition
  /-- The options of the job with those of the trigger laid over them. -/
  data : TriggerData
  refireCount : Nat
  scheduledFor : Instant
  firedAt : Instant

namespace FireContext

def key (f : FireContext) : JobKey := f.definition.key

def create (definition : JobDefinition) (triggerData : TriggerData) (refireCount : Nat) :
    Act σ FireContext := do
  let now ← Act.now
  return {
    definition
    data := definition.data.merged triggerData
    refireCount
    scheduledFor := now
    firedAt := now }

end FireContext

structure JobRun where
  key : JobKey
  runId : Uuid
  attempt : Nat
  tenant : Option TenantKey
  logLevel : Option Level
  startedAt : Instant
  finishedAt : Option Instant

namespace JobRun

def start (fire : FireContext) : Act σ JobRun := do
  let runId ← Act.freshId
  let tenant ← fire.data.readOwner
  let logLevel ← fire.data.readLogLevel
  return {
    key := fire.key
    runId
    attempt := fire.refireCount
    tenant
    logLevel
    startedAt := ← Act.now
    finishedAt := none }

def finish (run : JobRun) : Act σ JobRun := do
  return { run with finishedAt := some (← Act.now) }

end JobRun

/-- What every log line of a run is tagged with. -/
structure ExecutionContext where
  jobId : String
  runId : Uuid
  tenant : Option TenantKey
  logLevel : Option Level

namespace ExecutionContext

/-- The type of request that a job run is. -/
def requestType : String := "job"

def ofRun (run : JobRun) : ExecutionContext :=
  { jobId := run.key.text, runId := run.runId, tenant := run.tenant, logLevel := run.logLevel }

def spanKind : Log.SpanKind where
  name := "job_run"
  origin := Component.observability.origin
  declared := ["request_type", "job_id", "run_id", "tenant_id", Log.overrideField]

def span (c : ExecutionContext) : Log.NewSpan where
  kind := spanKind
  values := [("request_type", .str requestType), ("job_id", .shown c.jobId),
    ("run_id", .shown c.runId.text)]
  later :=
    (c.tenant.map fun t => [("tenant_id", Log.Value.str t.text)]).toList ++
      (c.logLevel.map fun l => [(Log.overrideField, Log.Value.str l.name)]).toList

end ExecutionContext

end JobEngine
