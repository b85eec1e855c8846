import JobEngine.Event.Outbox
import JobEngine.Job.Failure
import JobEngine.Job.Run
import JobEngine.Ledger.Service
/-! The body of a job. It acts on the application, queues events, and ends normally, with an error,
or by a panic; whatever it has queued by then is known to the run. -/

namespace JobEngine

inductive Stop where
  | failed (e : JobError)
  | panicked (text : String)
  deriving DecidableEq

def Stop.error : Stop → JobError
  | .failed e => e
  | .panicked text => .fatalText ("job panicked: " ++ text)

abbrev Body (σ : Type) := ExceptT Stop (StateT Outbox (Act σ))

namespace Body

/-- Runs a body; the result holds how it ended and what it queued. -/
def execute (b : Body σ α) : Act σ (Except Stop α × Outbox) := StateT.run (ExceptT.run b) []

def act (a : Act σ α) : Body σ α := ExceptT.lift (StateT.lift a)

def stop (s : Stop) : Body σ α := throw s

def fail (e : JobError) : Body σ α := stop (.failed e)

/-- Goes on with the value, or ends the body with the error it stands for. -/
def orFail (toError : ε → JobError) : Except ε α → Body σ α
  | .ok a => pure a
  | .error e => fail (toError e)

def queue (e : OutboundEvent) : Body σ Unit := ExceptT.lift (modify (· ++ [e]))

section

variable {m : Body σ α} {f : α → Body σ β} {out out' : Outbox} {h h' : Host σ}

/-- A body that begins with an act. -/
theorem run_act (a : Act σ α) (f : α → Body σ β) (out : Outbox) :
    StateT.run (ExceptT.run (act a >>= f)) out =
      a >>= fun x => StateT.run (ExceptT.run (f x)) out :=
  rfl

/-- A body goes on from where its first part has come to. -/
theorem run_ok {x : α} (hm : StateT.run (ExceptT.run m) out h = ((.ok x, out'), h')) :
    StateT.run (ExceptT.run (m >>= f)) out h = StateT.run (ExceptT.run (f x)) out' h' := by
  rw [ExceptT.run_bind, StateT.run_bind]
  change StateT.bind (StateT.run (ExceptT.run m) out) _ h = _
  unfold StateT.bind
  rw [hm]
  rfl

/-- A body ends where its first part has stopped. -/
theorem run_stopped {s : Stop}
    (hm : StateT.run (ExceptT.run m) out h = ((.error s, out'), h')) :
    StateT.run (ExceptT.run (m >>= f)) out h = ((.error s, out'), h') := by
  rw [ExceptT.run_bind, StateT.run_bind]
  change StateT.bind (StateT.run (ExceptT.run m) out) _ h = _
  unfold StateT.bind
  rw [hm]
  rfl

end

end Body

/-- What a body sees of its run. -/
structure JobContext where
  run : JobRun
  data : TriggerData
  context : ExecutionContext

namespace JobContext

def attempt (c : JobContext) : Nat := c.run.attempt

/-- An event that names no tenant belongs to the tenant of the run. -/
def attributed (c : JobContext) (e : OutboundEvent) : OutboundEvent :=
  { e with tenant := e.tenant.or c.run.tenant }

def emit (c : JobContext) (e : OutboundEvent) : Body σ Unit := Body.queue (c.attributed e)

end JobContext

structure Job (σ : Type) where
  name : String
  body : JobContext → Body σ Unit
  /-- Whether runs report their start and how long they took. -/
  logsTime : Bool := true
  classify : JobError → FailureKind := JobError.kind
  /-- Asked before a single run is submitted, with the row that would be created. -/
  isSchedulable : StatusLedger σ → JobStatus → Act σ Bool := fun _ _ => pure true

end JobEngine
