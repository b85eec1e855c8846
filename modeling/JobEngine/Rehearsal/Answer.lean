import JobEngine.Executor
import JobEngine.Registration
import JobEngine.Rehearsal.Request
/-! What a step of a rehearsal can come to. -/

namespace JobEngine

inductive Refusal where
  | request (e : RequestError)
  | ledger (e : LedgerError)
  | scheduler (e : SchedulerError)
  | registration (e : RegistrationError)
  | unit (e : UnitOfWorkError)
  | publish (e : PublishError)
  | dispatch (e : DispatchError)
  | statistic (e : StatisticError)
  | counting (e : Cause)
  /-- A refire lay past the end of the calendar. -/
  | crash

inductive Answer where
  | nothing
  | flag (b : Bool)
  | number (n : Nat)
  | size (n : Nat)
  | keys (keys : List JobKey)
  | row (row : JobStatus)
  | rows (rows : List JobStatus)
  | stats (stats : LedgerStats)
  | events (events : List OutboundEvent)
  | report (report : FireReport)
  | reports (reports : List FireReport)
  | statistics (statistics : List Statistic)
  | refresh (outcome : RefreshOutcome)
  | versions (pools : Dict Nat)
  | policy (policy : RetryPolicy)
  | due (due now : Instant)
  | units (active : Bool) (opened closed aborted : Nat)
  | executor (stats : ExecutorStats)

abbrev Outcome := Except Refusal Answer

/-- A step that may be refused. -/
abbrev Trial (σ α : Type) := ExceptT Refusal (Act σ) α

namespace Trial

def act (a : Act σ α) : Trial σ α := ExceptT.lift a

def orRefuse (toRefusal : ε → Refusal) (a : Act σ (Except ε α)) : Trial σ α := do
  match ← act a with
  | .ok v => pure v
  | .error e => throw (toRefusal e)

def build (r : Request σ α) : Trial σ α := orRefuse .request r.run

end Trial

end JobEngine
