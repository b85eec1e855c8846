import JobEngine.Worker
import Std.Async.Signal
/-! The command line. A worker runs on the settings of the process until it is interrupted; its
clock follows the clock of the system, and each line of its log is printed as soon as its turn is
over. -/

namespace JobEngine

namespace Worker

def systemTime : IO Instant := do
  let time ← Std.Time.Timestamp.now
  return (Instant.ofNanos? time.toNanosecondsSinceUnixEpoch.toInt).getD Instant.last

def readEnvironment : IO Environment := do
  let settings ← settingNames.mapM fun name => do return (name, ← IO.getEnv name)
  return .ofList (settings.filterMap fun (name, value) => value.map (name, ·))

/-- Takes a step on the host, whose clock is brought up to the system's first, and prints what it
has written to the log. -/
def step (format : LogFormat) (act : Act Worker α) (h : Host Worker) : IO (α × Host Worker) := do
  let time ← systemTime
  let h := if h.clock < time then { h with clock := time } else h
  let (result, h) := act.run h
  let (lines, h) := Act.drainLog.run h
  let output ← IO.getStdout
  for l in lines do
    output.putStrLn (l.printed format time)
  output.flush
  return (result, h)

/-- Sleeps until the system's clock has caught up with the host's, or there is an interrupt. -/
partial def sleepUntil (time : Instant) (interrupted : IO Bool) : IO Unit := do
  let now ← systemTime
  if now < time then
    unless ← interrupted do
      IO.sleep (min 50 (((time.nanos - now.nanos) / 1000000).toNat + 1)).toUInt32
      sleepUntil time interrupted

/-- Takes turns until there is an interrupt, and tells what they have come to. -/
partial def serve (format : LogFormat) (s : WorkerSession) (interrupted : IO Bool)
    (stats : ExecutorStats) (h : Host Worker) : IO (ExecutorStats × Host Worker) := do
  if ← interrupted then return (stats, h)
  let (stats, h) ← step format (turn s stats) h
  sleepUntil h.clock interrupted
  serve format s interrupted stats h

end Worker

end JobEngine

/-- Runs a worker until it is interrupted. A worker that cannot start ends the process with an
error; no database can be reached from here. -/
def main : IO UInt32 := do
  let env ← JobEngine.Worker.readEnvironment
  let format := JobEngine.LogFormat.ofEnvironment env
  let some base := JobEngine.Filter.ofEnvironment env
    | return JobEngine.Filter.crashCode.toUInt32
  let app : JobEngine.Worker := { storage := { pool := { isReachable := false } } }
  let h : JobEngine.Host JobEngine.Worker :=
    { clock := ← JobEngine.Worker.systemTime, journal := { base }, app }
  let (started, h) ← JobEngine.Worker.step format (JobEngine.Worker.start env) h
  match started with
  | .error e =>
    IO.eprintln ("Error: " ++ e.message)
    return 1
  | .ok s =>
    let signal ← Std.Async.Signal.Waiter.mk .sigint false
    let received ← signal.wait
    let (stats, h) ← JobEngine.Worker.serve format s (IO.hasFinished received) {} h
    let _ ← JobEngine.Worker.step format (JobEngine.Worker.shutdown s stats) h
    return 0
