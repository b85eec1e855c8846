import JobEngine.Data.Key
import JobEngine.Time.Duration
/-! How jobs fail. A failure of the body has a kind, by which it is retried or not; a failed attempt
says what happens to the job next. -/

namespace JobEngine

inductive FailureKind where
  | persistenceConflict
  | explicitRetry
  | fatal
  deriving DecidableEq

namespace FailureKind

def isRetryable : FailureKind → Bool
  | .fatal => false
  | _ => true

def name : FailureKind → String
  | .persistenceConflict => "persistence_conflict"
  | .explicitRetry => "explicit_retry"
  | .fatal => "fatal"

end FailureKind

/-- An error and the errors beneath it, nearest first. -/
structure Cause where
  text : String
  beneath : List String := []
  deriving DecidableEq

inductive JobError where
  | conflict (reason : String)
  | retry (reason : String)
  | fatal (cause : Cause)
  deriving DecidableEq

namespace JobError

def fatalText (reason : String) : JobError := .fatal { text := reason }

def kind : JobError → FailureKind
  | .conflict _ => .persistenceConflict
  | .retry _ => .explicitRetry
  | .fatal _ => .fatal

def message : JobError → String
  | .conflict reason => "persistence conflict: " ++ reason
  | .retry reason => "retry requested: " ++ reason
  | .fatal cause => cause.text

/-- The texts of the errors beneath this one. -/
def beneath : JobError → List String
  | .fatal cause => cause.beneath
  | _ => []

end JobError

/-- What becomes of a job after a failed attempt. -/
inductive Aftermath where
  | refire (delay : Duration)
  | exhausted
  | fatal
  deriving DecidableEq

structure DispatchError where
  key : JobKey
  attempt : Nat
  aftermath : Aftermath
  cause : JobError
  deriving DecidableEq

namespace DispatchError

def refireDelay (e : DispatchError) : Option Duration :=
  match e.aftermath with
  | .refire delay => some delay
  | _ => none

def asksRefire (e : DispatchError) : Bool := e.refireDelay.isSome

def message (e : DispatchError) : String :=
  let job := "job " ++ e.key.text
  let attempt := toString e.attempt
  match e.aftermath with
  | .refire _ =>
    job ++ " attempt " ++ attempt ++ " failed, refire requested: " ++ e.cause.message
  | .exhausted => job ++ " gave up after attempt " ++ attempt ++ ": " ++ e.cause.message
  | .fatal => job ++ " attempt " ++ attempt ++ " failed: " ++ e.cause.message

def beneath (e : DispatchError) : List String := e.cause.message :: e.cause.beneath

end DispatchError

end JobEngine
