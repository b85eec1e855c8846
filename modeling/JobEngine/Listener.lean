import JobEngine.Job.Failure
import JobEngine.Job.Run
import JobEngine.Ledger.Service
/-! Listeners see every fire of the jobs they are matched to, before and after it runs, and may veto
it. The status listener records each attempt in a ledger. -/

namespace JobEngine

inductive Verdict where
  | proceed
  | veto
  deriving DecidableEq

structure JobListener (σ : Type) where
  before : FireContext → Act σ Verdict
  after : FireContext → Except DispatchError Unit → Act σ Unit

namespace StatusListener

/-- The name under which registration looks for the listener. -/
def name : String := "job-status"

/-- The change of the row that an outcome asks for. -/
def updateFor : Except DispatchError Unit → StatusUpdate
  | .ok () => .finished
  | .error e => if e.asksRefire then .refire e.cause.message else .failed e.cause.message

/-- Only a cancelled job is held back; when the ledger fails otherwise, the job runs all the same.
-/
def before (ledger : StatusLedger σ) (fire : FireContext) : Act σ Verdict := do
  match ← ledger.transition fire.key (.running fire.refireCount) with
  | .ok _ => return .proceed
  | .error (.invalidTransition _ .cancelled _) =>
    Act.log .jobs .debug "skipping fire of inactive job"
      [("job_id", .shown fire.key.text), ("state", .shown JobState.cancelled.name)]
    return .veto
  | .error e =>
    Act.log .jobs .warn "could not mark job running"
      [("job_id", .shown fire.key.text), ("error", .shown e.message)]
    return .proceed

def after (ledger : StatusLedger σ) (fire : FireContext) (outcome : Except DispatchError Unit) :
    Act σ Unit := do
  if let .error e ← ledger.transition fire.key (updateFor outcome) then
    Act.log .jobs .warn "could not record job outcome"
      [("job_id", .shown fire.key.text), ("error", .shown e.message)]

def listener (ledger : StatusLedger σ) : JobListener σ :=
  { before := before ledger, after := after ledger }

end StatusListener

end JobEngine
