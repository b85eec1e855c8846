import JobEngine.Job.Failure
import JobEngine.Host
/-! Retrying. A failed attempt is run again when its failure is retryable and the attempt is below
the limit; the delay before it grows with the attempt as the backoff says. -/

namespace JobEngine

inductive BackoffStrategy where
  | fixed
  | linear
  | exponential
  deriving DecidableEq

def BackoffStrategy.name : BackoffStrategy → String
  | .fixed => "fixed"
  | .linear => "linear"
  | .exponential => "exponential"

/-- A delay grows from `base` by the strategy and is cut at `cap`; a cap of zero is none. -/
structure Backoff where
  strategy : BackoffStrategy := .fixed
  base : Duration := Duration.zero
  cap : Duration := Duration.zero
  deriving DecidableEq

namespace Backoff

def immediate : Backoff := {}

def constant (delay : Duration) : Backoff := { strategy := .fixed, base := delay, cap := delay }

/-- The highest number an attempt can carry. -/
def maxAttempt : Nat := twoTo 32 - 1

/-- The multiple of the base delay before an attempt, counted from 1; it doubles up to 2^31. -/
def factor (strategy : BackoffStrategy) (attempt : Nat) : Nat :=
  match strategy with
  | .fixed => 1
  | .linear => attempt
  | .exponential => if attempt - 1 < 32 then twoTo (attempt - 1) else maxAttempt

def delayFor (b : Backoff) (attempt : Nat) : Duration :=
  if attempt = 0 || b.base.isZero then Duration.zero
  else
    let delay := b.base.scale (factor b.strategy attempt)
    if b.cap.isZero then delay else delay.min b.cap

end Backoff

structure RetryPolicy where
  /-- A negative limit is none. -/
  maxRetries : Int
  backoff : Backoff := Backoff.immediate
  deriving DecidableEq

structure RetryDecision where
  retry : Bool
  reason : FailureKind
  attempt : Nat
  delay : Duration
  deriving DecidableEq

namespace RetryPolicy

/-- The limit when none is configured. -/
def defaultMaxRetries : Int := 10

def default : RetryPolicy := { maxRetries := defaultMaxRetries }

def unlimited : RetryPolicy := { maxRetries := -1 }

def noRetry : RetryPolicy := { maxRetries := 0 }

def isUnlimited (p : RetryPolicy) : Bool := p.maxRetries < 0

/-- Attempts are counted from zero, delays from one. -/
def decide (p : RetryPolicy) (attempt : Nat) (kind : FailureKind) : RetryDecision :=
  let retry := kind.isRetryable && (p.isUnlimited || (attempt : Int) < p.maxRetries)
  { retry
    reason := kind
    attempt
    delay :=
      if retry then p.backoff.delayFor (Nat.min (attempt + 1) Backoff.maxAttempt)
      else Duration.zero }

/-- Decides, and reports the failure whether it is retried or not. -/
def judge (p : RetryPolicy) (attempt : Nat) (kind : FailureKind) (cause : JobError) :
    Act σ RetryDecision := do
  let decision := p.decide attempt kind
  Act.log .jobs .error "job attempt failed"
    [("attempt", .int attempt), ("max_retries", .int p.maxRetries), ("reason", .str kind.name),
      ("refire", .bool decision.retry), ("error", .shown cause.message)]
  return decision

end RetryPolicy

end JobEngine
