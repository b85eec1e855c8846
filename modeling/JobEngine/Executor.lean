import JobEngine.Config
import JobEngine.Scheduler.Engine
/-! Workers that fire what is due, and what they count. An idle worker sleeps until the next fire is
due, but no longer than its poll interval. -/

namespace JobEngine

structure ExecutorStats where
  processed : Nat := 0
  succeeded : Nat := 0
  refired : Nat := 0
  failed : Nat := 0
  vetoed : Nat := 0
  deriving DecidableEq

namespace ExecutorStats

def record (s : ExecutorStats) (r : FireReport) : ExecutorStats :=
  let s := { s with processed := s.processed + 1 }
  match r.outcome with
  | .dispatched (.ok ()) => { s with succeeded := s.succeeded + 1 }
  | .dispatched (.error e) =>
    if e.asksRefire then { s with refired := s.refired + 1 }
    else { s with failed := s.failed + 1 }
  | .noHandler => { s with failed := s.failed + 1 }
  | .vetoed => { s with vetoed := s.vetoed + 1 }

end ExecutorStats

namespace Executor

/-- How long an idle worker sleeps. -/
def idleSleep (nextDue : Option Instant) (now : Instant) (poll : Duration) : Duration :=
  match nextDue with
  | none => poll
  | some due => (Duration.clamp (due.nanos - now.nanos).toNat).min poll

/-- One turn of a worker: a fire, or some sleep. -/
def turn (e : Engine σ η ν) (poll : Duration) (stats : ExecutorStats) : Act σ ExecutorStats := do
  match ← e.fireNext with
  | .fired report => return stats.record report
  | .idle | .crashed =>
    let now ← Act.now
    let nextDue ← e.scheduler.read Scheduler.nextDue
    Act.wait (idleSleep nextDue now poll)
    return stats

/-- Turns of one worker until enough has been processed, or so many turns have passed. -/
def work (e : Engine σ η ν) (poll : Duration) (enough : ExecutorStats → Bool) :
    Nat → ExecutorStats → Act σ ExecutorStats
  | 0, stats => pure stats
  | turns + 1, stats => do
    if enough stats then return stats
    work e poll enough turns (← turn e poll stats)

def logWorkers (config : ExecutorConfig) (message : String) : Nat → Act σ Unit
  | 0 => pure ()
  | n + 1 => do
    logWorkers config message n
    Act.log .jobs .debug message [("executor", .shown config.name), ("worker", .int n)]

def start (config : ExecutorConfig) : Act σ Unit := do
  Act.log .jobs .info "job executor started"
    [("executor", .shown config.name), ("workers", .int config.workers)]
  logWorkers config "worker started" config.workers

def stop (config : ExecutorConfig) : Act σ Unit := logWorkers config "worker stopped" config.workers

/-- Starts the workers, lets them work, and stops them. -/
def run (e : Engine σ η ν) (config : ExecutorConfig) (enough : ExecutorStats → Bool)
    (turns : Nat) : Act σ ExecutorStats := do
  start config
  let stats ← work e config.pollInterval enough turns {}
  stop config
  return stats

end Executor

end JobEngine
