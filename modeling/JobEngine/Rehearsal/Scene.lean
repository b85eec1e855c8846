import JobEngine.Rehearsal.Script
/-! A scene: an engine with scripted jobs, played step by step. Every step comes to an outcome, the
notes taken during it and the log lines written during it. -/

namespace JobEngine

structure Scene where
  policy : RetryPolicy := RetryPolicy.default
  bus : FragileBus := {}
  /-- The unit of work, if there is one, and whether it can discard. -/
  unitDiscards : Option Bool := none
  hasRequestScope : Bool := false
  handlers : List (String × JobScript) := []
  listeners : List ListenerScript := [.status]

inductive Step where
  | register (job : JobRequest) (trigger : Option TriggerRequest)
  | submit (job : JobRequest)
  | schedule (job : JobRequest) (trigger : TriggerRequest)
  | addJob (job : JobRequest) (replace : Bool)
  | trigger (key : String) (data : List (String × String))
  | delete (key : String)
  | matchKey (listener key : String)
  | addListener (listener : ListenerScript)
  | fire
  | runDue (most : Nat)
  | runJob (job : JobRequest) (attempt : Nat) (triggerData : List (String × String))
  | pending
  | contains (key : String)
  | policy
  | published
  | subscribe
  | drain (subscription : Nat)
  | nextDue
  | fault (name message : String) (times : Nat)
  | ledger (call : LedgerCall)
  | pools (owner : String) (call : PoolCall)
  | history (request : HistoryRequest)
  | unit (call : String)
  | execute (expect : Nat)

structure StepResult where
  outcome : Outcome
  notes : List Note
  lines : List Log.Line

namespace Scene

def stage (s : Scene) : Theatre :=
  let registry : Registry JobScript := s.handlers.foldl (fun r h => Registry.register r h.1 h.2) []
  let scheduler := s.listeners.foldl (fun t l => t.addListener l.name l) { registry }
  { scheduler, bus := s.bus }

def service : JobScheduler Theatre := Scheduler.service Stage.schedulerPart

def harness (s : Scene) (thread : ThreadName) : Harness Theatre where
  policy := s.policy
  bus := FragileBus.service Stage.busPart
  unitOfWork := s.unitDiscards.map (Stage.unitService thread)
  requestScope := if s.hasRequestScope then some Stage.requestScope else none

def jobOf (thread : ThreadName) (script : JobScript) : Job Theatre :=
  script.job { thread, scheduler := service }

def engine (s : Scene) (thread : ThreadName) : Engine Theatre JobScript ListenerScript where
  scheduler := Stage.schedulerPart
  harness := s.harness thread
  job := jobOf thread
  listener := ListenerScript.listener

/-- The job that a kind is routed to; an empty one where there is none. -/
def routed (kind : String) : Act Theatre (Job Theatre) := do
  let found ← Stage.schedulerPart.read (·.registry.resolve kind)
  return jobOf .main (found.getD (.scripted { name := "unrouted", plain := true }))

def units (thread : ThreadName) : Act Theatre Answer :=
  Stage.unitsPart.read fun u => .units (u.isActive thread) u.opened u.closed u.aborted

/-- More turns than any run of an executor needs. -/
def manyTurns : Nat := 100000

def play (s : Scene) : Step → Trial Theatre Answer
  | .register job trigger => do
    let definition ← Trial.build job.build
    let trigger ← Trial.build (Request.given TriggerRequest.build trigger)
    return .row (← Trial.orRefuse .registration
      (Registration.scheduleJob Stage.ledgerService service definition trigger))
  | .submit job => do
    let definition ← Trial.build job.build
    let body ← Trial.act (routed definition.kind)
    return .row (← Trial.orRefuse .registration
      (Registration.submitNow Stage.ledgerService service body definition))
  | .schedule job trigger => do
    let definition ← Trial.build job.build
    let trigger ← Trial.build trigger.build
    Trial.orRefuse .scheduler (service.scheduleJob definition trigger)
    return .nothing
  | .addJob job replace => do
    let definition ← Trial.build job.build
    Trial.orRefuse .scheduler (service.addJob definition replace)
    return .nothing
  | .trigger key data => do
    let key ← Trial.build (Request.key key)
    Trial.orRefuse .scheduler (service.triggerNow key (Dict.ofList data))
    return .nothing
  | .delete key => do
    let key ← Trial.build (Request.key key)
    return .flag (← Trial.act (service.deleteJob key))
  | .matchKey listener key => do
    let key ← Trial.build (Request.key key)
    Trial.orRefuse .scheduler (service.addMatcher listener key)
    return .nothing
  | .addListener listener => do
    Trial.act (Stage.schedulerPart.modify (·.addListener listener.name listener))
    return .nothing
  | .fire => do
    match ← Trial.act (s.engine .main).fireNext with
    | .idle => return .nothing
    | .fired report => return .report report
    | .crashed => throw .crash
  | .runDue most => do
    match ← Trial.act ((s.engine .main).runDue most) with
    | some reports => return .reports reports
    | none => throw .crash
  | .runJob job attempt triggerData => do
    let definition ← Trial.build job.build
    let body ← Trial.act (routed definition.kind)
    let fire ← Trial.act (FireContext.create definition (Dict.ofList triggerData) attempt)
    Trial.orRefuse .dispatch ((s.harness .main).run body fire)
    return .nothing
  | .pending => return .number (← Trial.act (Stage.schedulerPart.read (·.pendingFires)))
  | .contains key => do
    let key ← Trial.build (Request.key key)
    return .flag (← Trial.act (Stage.schedulerPart.read (·.contains key)))
  | .policy => return .policy s.policy
  | .published => return .events (← Trial.act (Stage.busPart.read (·.broadcast.history)))
  | .subscribe => do
    let id ← Trial.act (Stage.busPart.run fun b =>
      let r := b.broadcast.subscribe
      (r.1, { b with broadcast := r.2 }))
    return .number id
  | .drain subscription => do
    let events ← Trial.act (Stage.busPart.run fun b =>
      let r := b.broadcast.drain subscription
      (r.1, { b with broadcast := r.2 }))
    return .events events
  | .nextDue => do
    match ← Trial.act (Stage.schedulerPart.read (·.nextDue)) with
    | none => return .nothing
    | some due => return .due due (← Trial.act Act.now)
  | .fault name message times => do
    Trial.act (Stage.faultsPart.modify (·.put name { message, times }))
    return .nothing
  | .ledger call => call.run (MemoryLedger.service Stage.ledgerPart)
  | .pools owner call => call.run Stage.poolsPart owner
  | .history request => request.run (MemoryStatistics.service Stage.statisticsPart)
  | .unit call => do
    Trial.orRefuse .unit (Script.callUnit .main call)
    Trial.act (units .main)
  | .execute expect => do
    let stats ← Trial.act (Act.unlogged
      (Executor.run (s.engine .worker) { workers := 1 } (·.processed ≥ expect) manyTurns))
    Trial.act (Stage.unitsPart.modify (·.forget .worker))
    return .executor stats

/-- Plays a step and takes down what happened during it. -/
def step (s : Scene) (st : Step) : Act Theatre StepResult := do
  let outcome ← (s.play st).run
  let notes := (← Act.app).notes.reverse
  Act.modifyApp ({ · with notes := [] })
  return { outcome, notes, lines := ← Act.drainLog }

def steps (s : Scene) : List Step → Act Theatre (List StepResult)
  | [] => pure []
  | st :: rest => do
    let r ← s.step st
    return r :: (← s.steps rest)

end Scene

end JobEngine
