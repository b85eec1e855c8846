import JobEngine.Job.Failure
import JobEngine.Job.Status
/-! State changes of a ledger row, and the errors of a ledger. -/

namespace JobEngine

inductive LedgerError where
  | alreadyExists (key : JobKey)
  | notFound (key : JobKey)
  | invalidTransition (key : JobKey) (source target : JobState)
  | storage (reason : String)
  deriving DecidableEq

namespace LedgerError

def message : LedgerError → String
  | .alreadyExists key => "job status already exists: " ++ key.text
  | .notFound key => "job status not found: " ++ key.text
  | .invalidTransition key source target =>
    "job " ++ key.text ++ ": cannot move from " ++ source.name ++ " to " ++ target.name
  | .storage reason => "storage error: " ++ reason

/-- Duplicate keys and storage failures are worth another attempt; the rest is not. -/
def toJobError (e : LedgerError) : JobError :=
  match e with
  | .alreadyExists _ | .storage _ => .conflict e.message
  | _ => .fatalText e.message

end LedgerError

structure StatusUpdate where
  state : JobState
  result : Option String := none
  /-- The attempt that the update describes. -/
  attempt : Option Nat := none
  deriving DecidableEq

namespace StatusUpdate

def running (attempt : Nat) : StatusUpdate := { state := .running, attempt := some attempt }

def finished : StatusUpdate := { state := .finished }

def failed (message : String) : StatusUpdate := { state := .failed, result := some message }

/-- Back to pending, until the job is fired again. -/
def refire (message : String) : StatusUpdate := { state := .pending, result := some message }

def cancelled : StatusUpdate := { state := .cancelled }

/-- A cancellation keeps the result of the last run. -/
def apply (u : StatusUpdate) (row : JobStatus) (now : Instant) : Except LedgerError JobStatus :=
  match row.moveTo u.state now with
  | none => .error (.invalidTransition row.id row.state u.state)
  | some moved =>
    .ok { moved with
      result := if u.state = .cancelled then row.result else u.result
      attempts := u.attempt.getD row.attempts }

end StatusUpdate

end JobEngine
