import JobEngine.Job.Body
import JobEngine.Scheduler.Engine
/-! Registering jobs with a scheduler and a ledger together. The row is created first. A key that
has a row keeps it, and the scheduler is then left alone; a job that the scheduler refuses leaves a
row that says so. -/

namespace JobEngine

inductive RegistrationError where
  | scheduler (key : JobKey) (source : SchedulerError)
  | ledger (key : JobKey) (source : LedgerError)
  | notSchedulable (key : JobKey)
  deriving DecidableEq

namespace RegistrationError

def key : RegistrationError → JobKey
  | .scheduler key _ | .ledger key _ | .notSchedulable key => key

def message : RegistrationError → String
  | .scheduler key source => "scheduling job " ++ key.text ++ " failed: " ++ source.message
  | .ledger key source => "recording status of job " ++ key.text ++ " failed: " ++ source.message
  | .notSchedulable key => "job " ++ key.text ++ " is not schedulable at this time"

def beneath : RegistrationError → List String
  | .scheduler _ source => [source.message]
  | .ledger _ source => [source.message]
  | .notSchedulable _ => []

end RegistrationError

namespace Registration

/-- Keeps the row that a key already has. -/
def adoptExisting (ledger : StatusLedger σ) (key : JobKey) :
    Act σ (Except RegistrationError JobStatus) := do
  match ← ledger.get key with
  | .error e => return .error (.ledger key e)
  | .ok none => return .error (.ledger key (.notFound key))
  | .ok (some existing) =>
    match ← ledger.merge existing with
    | .error e => return .error (.ledger key e)
    | .ok merged =>
      Act.log .jobs .warn "job already registered, keeping existing status"
        [("job_id", .shown key.text), ("state", .shown merged.state.name)]
      return .ok merged

/-- Records in the row that the scheduler refused the job. -/
def failStatus (ledger : StatusLedger σ) (key : JobKey) (cause : SchedulerError) : Act σ Unit := do
  Act.log .jobs .error "job registration failed"
    [("job_id", .shown key.text), ("error", .shown cause.message)]
  if let .error e ← ledger.transition key (.failed cause.message) then
    Act.log .jobs .warn "could not mark job status failed"
      [("job_id", .shown key.text), ("error", .shown e.message)]

/-- Stores the job with its trigger, or without one. -/
def attach (scheduler : JobScheduler σ) (definition : JobDefinition) :
    Option Trigger → Act σ (Except SchedulerError Unit)
  | some trigger => scheduler.scheduleJob definition trigger
  | none => scheduler.addJob definition false

/-- Registers a job: with a trigger its row starts pending, without one created. -/
def scheduleJob (ledger : StatusLedger σ) (scheduler : JobScheduler σ)
    (definition : JobDefinition) (trigger : Option Trigger) :
    Act σ (Except RegistrationError JobStatus) := do
  let key := definition.key
  match ← scheduler.addMatcher StatusListener.name key with
  | .error source => return .error (.scheduler key source)
  | .ok () =>
    let status ← JobStatus.register definition trigger.isSome
    match ← ledger.create status with
    | .error (.alreadyExists _) => adoptExisting ledger key
    | .error source => return .error (.ledger key source)
    | .ok () =>
      match ← attach scheduler definition trigger with
      | .error source =>
        failStatus ledger key source
        return .error (.scheduler key source)
      | .ok () =>
        Act.log .jobs .info "job registered"
          [("job_id", .shown key.text), ("kind", .shown definition.kind),
            ("triggered", .bool trigger.isSome)]
        return .ok status

/-- Registers a job without a trigger and fires it once, unless the job itself objects. -/
def submitNow (ledger : StatusLedger σ) (scheduler : JobScheduler σ) (job : Job σ)
    (definition : JobDefinition) : Act σ (Except RegistrationError JobStatus) := do
  let key := definition.key
  let candidate ← JobStatus.register definition false
  if ← job.isSchedulable ledger candidate then
    match ← scheduleJob ledger scheduler definition none with
    | .error e => return .error e
    | .ok status =>
      match ← scheduler.triggerNow key Dict.empty with
      | .ok () => return .ok status
      | .error source =>
        failStatus ledger key source
        return .error (.scheduler key source)
  else
    Act.log .jobs .info "job not schedulable, skipping"
      [("job_id", .shown key.text), ("kind", .shown definition.kind)]
    return .error (.notSchedulable key)

end Registration

end JobEngine
