import JobEngine.Job.Body
import JobEngine.Job.Retry
import JobEngine.UnitOfWork.Basic
/-! One attempt at a job, wrapped. The body runs inside a request scope, a span and a unit of work.
Its events leave only after it succeeded and the unit it opened was closed with its work kept; on
any failure the events are dropped, a unit this run opened and has not closed is aborted, and the
retry policy decides what comes next. -/

namespace JobEngine

/-- Ambient state per request, entered and left around each run. -/
structure RequestScope (σ : Type) where
  enter : ExecutionContext → Act σ Unit
  leave : Act σ Unit

structure Harness (σ : Type) where
  policy : RetryPolicy
  bus : EventBus σ OutboundEvent
  unitOfWork : WorkScope σ := none
  requestScope : Option (RequestScope σ) := none

namespace Harness

/-- Classifies a failure and lets the policy decide. -/
def onFailure (h : Harness σ) (job : Job σ) (run : JobRun) (cause : JobError) :
    Act σ DispatchError := do
  let failed (aftermath : Aftermath) : DispatchError :=
    { key := run.key, attempt := run.attempt, aftermath, cause }
  let kind := job.classify cause
  if kind.isRetryable then
    let decision ← h.policy.judge run.attempt kind cause
    return failed (if decision.retry then .refire decision.delay else .exhausted)
  else
    Act.log .jobs .error "job failed"
      [("attempt", .int run.attempt), ("error", .shown cause.message)]
    return failed .fatal

/-- Sends the events of a run that succeeded. -/
def flush (h : Harness σ) (run : JobRun) (events : Outbox) : Act σ (Except DispatchError Unit) := do
  match ← Outbox.send h.bus events with
  | .ok sent =>
    Act.log .jobs .debug "job completed" [("sent", .int sent)]
    return .ok ()
  | .error e =>
    Act.log .jobs .error "job completed but its events could not be sent"
      [("error", .shown e.message)]
    return .error
      { key := run.key, attempt := run.attempt, aftermath := .fatal, cause := .fatalText e.message }

/-- Closes the unit of work when this run opened it. -/
def commit (h : Harness σ) (owns : Bool) : Act σ (Except UnitOfWorkError Unit) :=
  if owns then h.unitOfWork.finish else pure (.ok ())

/-- Ends a run whose body succeeded, by what became of its unit of work. -/
def conclude (h : Harness σ) (job : Job σ) (run : JobRun) (events : Outbox) :
    Except UnitOfWorkError Unit → Act σ (Except DispatchError Unit)
  | .ok () => h.flush run events
  | .error e => do
    let _ ← events.discard
    let cause := JobError.retry ("unit of work commit failed: " ++ e.message)
    return .error (← h.onFailure job run cause)

/-- Settles a run by how its body ended. The unit of work is closed here when the body succeeded;
otherwise it is left to the cleanup. The flag says whether this run still has a unit to abort. -/
def settle (h : Harness σ) (job : Job σ) (run : JobRun) (owns : Bool) (ended : Except Stop Unit)
    (events : Outbox) : Act σ (Except DispatchError Unit × Bool) := do
  match ended with
  | .ok () =>
    let closed ← h.commit owns
    return (← h.conclude job run events closed, false)
  | .error stop =>
    let _ ← events.discard
    return (.error (← h.onFailure job run stop.error), owns)

/-- Aborts the unit of work when this run opened it and has not closed it. -/
def rollback (h : Harness σ) (owns : Bool) : Act σ Unit :=
  if owns then h.unitOfWork.abort else pure ()

/-- Leaves the request scope, when there is one. -/
def leave (h : Harness σ) : Act σ Unit :=
  match h.requestScope with
  | none => pure ()
  | some scope => scope.leave

/-- Reports how long a run took. -/
def reportTime (job : Job σ) (started : Instant) : Act σ Unit := do
  if job.logsTime then
    let ended ← Act.now
    Act.log .jobs .info "job execution time"
      [("elapsed_ms", .int ((ended.nanos - started.nanos) / 1000000))]

/-- What is owed however an attempt ends. -/
def cleanup (h : Harness σ) (job : Job σ) (owns : Bool) (started : Instant) : Act σ Unit := do
  h.leave
  h.rollback owns
  reportTime job started

/-- Enters the request scope, when there is one, and the span of the run. -/
def enter (h : Harness σ) (context : ExecutionContext) : Act σ Unit := do
  if let some scope := h.requestScope then scope.enter context
  Act.enterSpan context.span

/-- Reports that a run starts, and says when. -/
def announce (job : Job σ) (run : JobRun) (fire : FireContext) : Act σ Instant := do
  let started ← Act.now
  if job.logsTime then
    Act.log .jobs .info "starting job" [("job", .str job.name), ("attempt", .int run.attempt)]
  Act.log .jobs .debug "job fired"
    [("scheduled_for", .shown fire.scheduledFor.text), ("fired_at", .shown fire.firedAt.text)]
  return started

/-- Runs one attempt. -/
def run (h : Harness σ) (job : Job σ) (fire : FireContext) : Act σ (Except DispatchError Unit) := do
  let run ← JobRun.start fire
  let context := ExecutionContext.ofRun run
  h.enter context
  let started ← announce job run fire
  let owns ← h.unitOfWork.begin
  let (ended, events) ← (job.body { run, data := fire.data, context }).execute
  let run ← run.finish
  let (result, owns) ← h.settle job run owns ended events
  h.cleanup job owns started
  Act.leaveSpan
  return result

end Harness

end JobEngine
