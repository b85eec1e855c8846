import JobEngine.Harness
import JobEngine.Listener
import JobEngine.Scheduler.Basic
/-! A scheduler at work: each fire that is due is shown to its listeners, run by the harness, and
followed by what it asks for. A fire is launched and landed, and its run lies in between. -/

namespace JobEngine

/-- The scheduler as registration sees it. -/
structure JobScheduler (σ : Type) where
  addMatcher : String → JobKey → Act σ (Except SchedulerError Unit)
  scheduleJob : JobDefinition → Trigger → Act σ (Except SchedulerError Unit)
  addJob : JobDefinition → Bool → Act σ (Except SchedulerError Unit)
  triggerNow : JobKey → TriggerData → Act σ (Except SchedulerError Unit)
  deleteJob : JobKey → Act σ Bool

/-- What a try at firing came to. -/
inductive FireTry where
  /-- Nothing is due. -/
  | idle
  | fired (report : FireReport)
  /-- A refire was due past the end of the calendar, and is lost. -/
  | crashed

namespace Scheduler

variable {σ η ν : Type}

/-- Takes a step with the scheduler, which stays as it is when the step is refused. -/
def attempt (p : Part σ (Scheduler η ν))
    (step : Scheduler η ν → Except SchedulerError (Scheduler η ν)) :
    Act σ (Except SchedulerError Unit) :=
  p.run fun s =>
    match step s with
    | .error err => (.error err, s)
    | .ok next => (.ok (), next)

def service (p : Part σ (Scheduler η ν)) : JobScheduler σ where
  addMatcher name key := attempt p (·.addMatcher name key)
  scheduleJob definition trigger := do
    let r ← attempt p (·.scheduleJob definition trigger)
    if let .ok () := r then
      Act.log .jobs .debug "job scheduled"
        [("job_id", .shown definition.key.text),
          ("first_fire", .shown trigger.schedule.firstFire.text)]
    return r
  addJob definition replace := attempt p (·.addJob definition replace)
  triggerNow key data := do
    let now ← Act.now
    attempt p (·.triggerNow key data now)
  deleteJob key := p.run (·.deleteJob key)

end Scheduler

/-- A fire that its listeners let pass, from when it was taken until it is followed up. -/
structure Flight (η ν : Type) where
  taken : TakenFire ν
  context : FireContext
  handler : η

/-- What the first half of a try at firing came to. -/
inductive Launch (η ν : Type) where
  /-- Nothing is due. -/
  | idle
  /-- A fire was taken, but may not run. -/
  | grounded (taken : TakenFire ν) (outcome : FireOutcome)
  | airborne (flight : Flight η ν)

/-- A scheduler in its place, and what its handlers and listeners stand for. -/
structure Engine (σ η ν : Type) where
  scheduler : Part σ (Scheduler η ν)
  harness : Harness σ
  job : η → Job σ
  listener : ν → JobListener σ

namespace Engine

variable {σ η ν : Type}

/-- Asks the listeners in order, up to the first that vetoes, and gives its name. -/
def firstVeto (e : Engine σ η ν) (fire : FireContext) : Assoc String ν → Act σ (Option String)
  | [] => pure none
  | (name, l) :: rest => do
    match ← (e.listener l).before fire with
    | .veto => return some name
    | .proceed => e.firstVeto fire rest

def tellAll (e : Engine σ η ν) (fire : FireContext) (result : Except DispatchError Unit) :
    Assoc String ν → Act σ Unit
  | [] => pure ()
  | (_, l) :: rest => do
    (e.listener l).after fire result
    e.tellAll fire result rest

/-- The handler of a fire that may run, or what keeps the fire from running. -/
def permit (e : Engine σ η ν) (fire : FireContext) (listeners : Assoc String ν) :
    Act σ (Except FireOutcome η) := do
  match ← e.scheduler.read (·.registry.resolve fire.definition.kind) with
  | none =>
    Act.log .jobs .error "no job registered for kind"
      [("job_id", .shown fire.key.text), ("kind", .shown fire.definition.kind)]
    return .error .noHandler
  | some handler =>
    match ← e.firstVeto fire listeners with
    | some name =>
      Act.log .jobs .info "fire vetoed"
        [("job_id", .shown fire.key.text), ("listener", .str name)]
      return .error .vetoed
    | none => return .ok handler

/-- Takes the next waiting fire if it is due by that time, and asks whether it may run. -/
def launchBy (e : Engine σ η ν) (now : Instant) : Act σ (Launch η ν) := do
  match ← e.scheduler.run (·.take now) with
  | none => return .idle
  | some taken =>
    let p := taken.fire
    let fire ← FireContext.create taken.job.definition p.triggerData p.refireCount
    let context := { fire with scheduledFor := p.scheduledFor }
    match ← e.permit context taken.listeners with
    | .error outcome => return .grounded taken outcome
    | .ok handler => return .airborne { taken, context, handler }

/-- Takes the next waiting fire if it is due, and asks whether it may run. -/
def launch (e : Engine σ η ν) : Act σ (Launch η ν) := do
  let now ← Act.now
  e.launchBy now

/-- Queues what follows a fire; false when it lies past the end of the calendar. -/
def afterFire (e : Engine σ η ν) (fire : PendingFire) (trigger : Option Trigger)
    (outcome : FireOutcome) : Act σ Bool := do
  let now ← Act.now
  let kept ← e.scheduler.read (·.contains fire.key)
  if kept then
    if let .refire due := Scheduler.nextFire fire trigger outcome now then
      Act.log .jobs .debug "refire queued"
        [("job_id", .shown fire.key.text), ("attempt", .int (fire.refireCount + 1)),
          ("due", .shown due.text)]
  e.scheduler.run fun s =>
    let next := s.afterFire fire trigger outcome now
    (next.isSome, next.getD s)

/-- Queues what follows a fire and reports the fire. -/
def settle (e : Engine σ η ν) (taken : TakenFire ν) (outcome : FireOutcome) : Act σ FireTry := do
  let p := taken.fire
  if ← e.afterFire p taken.job.trigger outcome then
    return .fired { key := p.key, attempt := p.refireCount, outcome }
  else return .crashed

/-- Tells the listeners how a run ended and queues what follows. -/
def land (e : Engine σ η ν) (flight : Flight η ν) (result : Except DispatchError Unit) :
    Act σ FireTry := do
  e.tellAll flight.context result flight.taken.listeners
  e.settle flight.taken (.dispatched result)

/-- Fires the next waiting fire if it is due. -/
def fireNext (e : Engine σ η ν) : Act σ FireTry := do
  match ← e.launch with
  | .idle => return .idle
  | .grounded taken outcome => e.settle taken outcome
  | .airborne flight =>
    let result ← e.harness.run (e.job flight.handler) flight.context
    e.land flight result

/-- Fires what is due, up to a number of fires. There is no answer when a fire crashed. -/
def runDue (e : Engine σ η ν) : Nat → Act σ (Option (List FireReport))
  | 0 => pure (some [])
  | n + 1 => do
    match ← e.fireNext with
    | .idle => return some []
    | .crashed => return none
    | .fired report => return (← e.runDue n).map (report :: ·)

end Engine

end JobEngine
