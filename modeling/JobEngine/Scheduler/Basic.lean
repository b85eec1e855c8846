import JobEngine.Job.Failure
import JobEngine.Job.Trigger
import JobEngine.Scheduler.Registry
/-! The state of a scheduler and what can be done to it. Jobs are stored under their keys, fires
wait in the order of their due times and among equals in the order in which they were queued. Taking
a fire off the queue and queueing what follows it are two steps, with the run between them. -/

namespace JobEngine

inductive SchedulerError where
  | unknownListener (name : String)
  | noHandler (kind : String)
  | alreadyScheduled (key : JobKey)
  | jobNotFound (key : JobKey)
  deriving DecidableEq

def SchedulerError.message : SchedulerError → String
  | .unknownListener name => "unknown listener: " ++ name
  | .noHandler kind => "no job registered for kind: " ++ kind
  | .alreadyScheduled key => "job already scheduled: " ++ key.text
  | .jobNotFound key => "job not found: " ++ key.text

/-- Whether a fire was queued by its trigger or asked for by hand. -/
inductive FireOrigin where
  | trigger
  | manual
  deriving DecidableEq

/-- A fire that waits. A counter of 32 bits would overflow at `twoTo 32` refires, where the count
here goes on. -/
structure PendingFire where
  key : JobKey
  refireCount : Nat
  triggerData : TriggerData
  scheduledFor : Instant
  origin : FireOrigin

structure StoredJob where
  definition : JobDefinition
  trigger : Option Trigger

structure QueuedFire where
  due : Instant
  seq : Nat
  fire : PendingFire

/-- Due first, or queued first at the same time. -/
def QueuedFire.before (a b : QueuedFire) : Bool :=
  a.due < b.due || (a.due = b.due && a.seq < b.seq)

inductive FireOutcome where
  | dispatched (result : Except DispatchError Unit)
  | vetoed
  | noHandler

structure FireReport where
  key : JobKey
  attempt : Nat
  outcome : FireOutcome

namespace FireReport

def succeeded (r : FireReport) : Bool :=
  match r.outcome with
  | .dispatched (.ok ()) => true
  | _ => false

def refired (r : FireReport) : Bool :=
  match r.outcome with
  | .dispatched (.error e) => e.asksRefire
  | _ => false

end FireReport

/-- A scheduler over handlers `η` and listeners `ν`. -/
structure Scheduler (η ν : Type) where
  registry : Registry η
  jobs : Assoc JobKey StoredJob := []
  /-- The waiting fires, the next one first. -/
  queue : List QueuedFire := []
  seq : Nat := 0
  /-- The listeners by name, in the order in which they are asked. -/
  listeners : Assoc String ν := []
  /-- The keys that each listener is matched to. -/
  matchers : Assoc String (List JobKey) := []

/-- A fire that has been taken off the queue, with the job and the listeners as they were then. -/
structure TakenFire (ν : Type) where
  fire : PendingFire
  job : StoredJob
  listeners : Assoc String ν

/-- What has to be queued after a fire. -/
inductive NextFire where
  | nothing
  | refire (due : Instant)
  | slot (slot : Instant)
  /-- The delay leads past the end of the calendar. -/
  | beyondCalendar

namespace Scheduler

variable {η ν : Type}

def contains (s : Scheduler η ν) (key : JobKey) : Bool := s.jobs.has key

def nextDue (s : Scheduler η ν) : Option Instant := s.queue.head?.map (·.due)

def pendingFires (s : Scheduler η ν) : Nat := s.queue.length

/-- Puts a fire in its place among the waiting ones. -/
def place (q : QueuedFire) : List QueuedFire → List QueuedFire
  | [] => [q]
  | a :: rest => if q.before a then q :: a :: rest else a :: place q rest

def enqueue (s : Scheduler η ν) (due : Instant) (fire : PendingFire) : Scheduler η ν :=
  { s with seq := s.seq + 1, queue := place { due, seq := s.seq + 1, fire } s.queue }

def listens (s : Scheduler η ν) (name : String) (key : JobKey) : Bool :=
  match s.matchers.get? name with
  | none => false
  | some keys => keys.contains key

def listenersFor (s : Scheduler η ν) (key : JobKey) : Assoc String ν :=
  s.listeners.filter fun l => s.listens l.1 key

/-- Adds a listener at the end, in place of one of the same name. -/
def addListener (s : Scheduler η ν) (name : String) (listener : ν) : Scheduler η ν :=
  { s with listeners := s.listeners.erase name ++ [(name, listener)] }

/-- Lets a listener see the fires of a key. -/
def addMatcher (s : Scheduler η ν) (name : String) (key : JobKey) :
    Except SchedulerError (Scheduler η ν) :=
  if s.listeners.has name then
    let keys := (s.matchers.get? name).getD []
    let keys := if keys.contains key then keys else keys ++ [key]
    .ok { s with matchers := s.matchers.put name keys }
  else .error (.unknownListener name)

def hasHandler (s : Scheduler η ν) (kind : String) : Bool := (s.registry.resolve kind).isSome

/-- The first fire of a trigger. -/
def firstFire (key : JobKey) (trigger : Trigger) : PendingFire :=
  { key, refireCount := 0, triggerData := trigger.data
    scheduledFor := trigger.schedule.firstFire, origin := .trigger }

/-- Stores a job and queues the first fire of its trigger. -/
def scheduleJob (s : Scheduler η ν) (definition : JobDefinition) (trigger : Trigger) :
    Except SchedulerError (Scheduler η ν) :=
  if !s.hasHandler definition.kind then .error (.noHandler definition.kind)
  else if s.contains definition.key then .error (.alreadyScheduled definition.key)
  else
    let job : StoredJob := { definition, trigger := some trigger }
    let stored := { s with jobs := s.jobs.put definition.key job }
    .ok (stored.enqueue trigger.schedule.firstFire (firstFire definition.key trigger))

/-- Stores a job without a trigger. Replacing a stored one keeps the trigger it has. -/
def addJob (s : Scheduler η ν) (definition : JobDefinition) (replace : Bool) :
    Except SchedulerError (Scheduler η ν) :=
  if !s.hasHandler definition.kind then .error (.noHandler definition.kind)
  else match s.jobs.get? definition.key with
    | none => .ok { s with jobs := s.jobs.put definition.key { definition, trigger := none } }
    | some old =>
      if replace then .ok { s with jobs := s.jobs.put definition.key { old with definition } }
      else .error (.alreadyScheduled definition.key)

/-- Queues one fire of a stored job for the present. -/
def triggerNow (s : Scheduler η ν) (key : JobKey) (data : TriggerData) (now : Instant) :
    Except SchedulerError (Scheduler η ν) :=
  if s.contains key then
    .ok (s.enqueue now
      { key, refireCount := 0, triggerData := data, scheduledFor := now, origin := .manual })
  else .error (.jobNotFound key)

/-- Removes a job with its waiting fires and its matchers, and says whether it was there. -/
def deleteJob (s : Scheduler η ν) (key : JobKey) : Bool × Scheduler η ν :=
  (s.contains key,
    { s with
      jobs := s.jobs.erase key
      queue := s.queue.filter fun q => q.fire.key ≠ key
      matchers := s.matchers.map fun m => (m.1, m.2.filter (· ≠ key)) })

/-- Takes the next fire if it is due. -/
def take (s : Scheduler η ν) (now : Instant) : Option (TakenFire ν) × Scheduler η ν :=
  match s.queue with
  | [] => (none, s)
  | q :: rest =>
    if now < q.due then (none, s)
    else
      let taken : Option (TakenFire ν) := (s.jobs.get? q.fire.key).map fun job =>
        { fire := q.fire, job, listeners := s.listenersFor q.fire.key }
      (taken, { s with queue := rest })

/-- Only the fires of a repeating trigger have a successor. -/
def nextSlot (fire : PendingFire) (trigger : Option Trigger) (now : Instant) : NextFire :=
  match fire.origin, trigger with
  | .trigger, some t =>
    match t.schedule.nextFireAfter fire.scheduledFor now with
    | some next => .slot next
    | none => .nothing
  | _, _ => .nothing

/-- A refire is due after its delay, where a delay too long to add counts as none. Otherwise the
next slot follows, and nothing after a veto. -/
def nextFire (fire : PendingFire) (trigger : Option Trigger) (outcome : FireOutcome)
    (now : Instant) : NextFire :=
  match outcome with
  | .vetoed => .nothing
  | .noHandler => nextSlot fire trigger now
  | .dispatched (.ok ()) => nextSlot fire trigger now
  | .dispatched (.error e) =>
    match e.refireDelay with
    | none => nextSlot fire trigger now
    | some delay =>
      match now.shift? (if delay.isOffset then delay.nanos else 0) with
      | some due => .refire due
      | none => .beyondCalendar

/-- Queues what follows a fire, if its job is still stored. It fails only where a refire would be
due past the end of the calendar; the count of refires is never too large. -/
def afterFire (s : Scheduler η ν) (fire : PendingFire) (trigger : Option Trigger)
    (outcome : FireOutcome) (now : Instant) : Option (Scheduler η ν) :=
  if s.contains fire.key then
    match nextFire fire trigger outcome now with
    | .nothing => some s
    | .refire due => some (s.enqueue due { fire with refireCount := fire.refireCount + 1 })
    | .slot t =>
      some (s.enqueue t
        { fire with
          refireCount := 0
          triggerData := (trigger.map (·.data)).getD Dict.empty
          scheduledFor := t
          origin := .trigger })
    | .beyondCalendar => none
  else some s

end Scheduler

end JobEngine
