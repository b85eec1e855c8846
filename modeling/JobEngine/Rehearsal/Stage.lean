import JobEngine.Event.Broadcast
import JobEngine.Ledger.Memory
import JobEngine.Pools.Refresh
import JobEngine.Scheduler.Engine
import JobEngine.Statistic.Memory
import JobEngine.UnitOfWork.Threads
/-! The stage of a rehearsal: stores in memory that fail on demand, and a record of what was called.
Faults are armed by name and used up by the calls they hit. -/

namespace JobEngine

/-- A fault that is armed: what it says, and how often it will strike. -/
structure Fault where
  message : String
  times : Nat

/-- What a rehearsal notes as it happens. -/
inductive Note where
  | unit (call : String) (result : Except UnitOfWorkError Unit)
  | scopeEntered (context : ExecutionContext)
  | scopeLeft
  | before (listener : String) (fire : FireContext)
  | after (listener : String) (fire : FireContext) (outcome : Except DispatchError Unit)
  | schedulable (kind : String) (state : JobState)
  | echo (job : String) (context : JobContext) (unitActive : Bool)
  | state (row : Option JobStatus)
  | jobCall (action : String) (result : Except String (Except SchedulerError (Option Bool)))

/-- A bus in memory that may stop working after a number of messages. -/
structure FragileBus where
  broadcast : Broadcast OutboundEvent := {}
  left : Option Nat := none

namespace FragileBus

def publish (e : OutboundEvent) (b : FragileBus) : Except String Unit × FragileBus :=
  match b.left with
  | some 0 => (.error "connection reset", b)
  | left => (.ok (), { broadcast := b.broadcast.deliver [e], left := left.map (· - 1) })

/-- Without a limit the bus takes batches whole; with one it takes message after message. -/
def service (p : Part σ FragileBus) : EventBus σ OutboundEvent :=
  let single : EventBus σ OutboundEvent := .ofPublish fun e => p.run (publish e)
  { publish := single.publish
    publishBatch := fun es => do
      if ← p.read (·.left.isSome) then single.publishBatch es
      else
        p.modify fun b => { b with broadcast := b.broadcast.deliver es }
        return .ok es.length }

end FragileBus

structure Stage (η ν : Type) where
  scheduler : Scheduler η ν
  faults : Assoc String Fault := []
  /-- The notes, newest first. -/
  notes : List Note := []
  ledger : MemoryLedger := {}
  pools : PoolStore := {}
  statistics : MemoryStatistics := {}
  bus : FragileBus := {}
  units : ThreadUnits := {}

namespace Stage

variable {η ν : Type}

def schedulerPart : Part (Stage η ν) (Scheduler η ν) :=
  ⟨(·.scheduler), fun t s => { s with scheduler := t }⟩

def faultsPart : Part (Stage η ν) (Assoc String Fault) :=
  ⟨(·.faults), fun t s => { s with faults := t }⟩

def ledgerPart : Part (Stage η ν) MemoryLedger := ⟨(·.ledger), fun t s => { s with ledger := t }⟩

def poolsPart : Part (Stage η ν) PoolStore := ⟨(·.pools), fun t s => { s with pools := t }⟩

def statisticsPart : Part (Stage η ν) MemoryStatistics :=
  ⟨(·.statistics), fun t s => { s with statistics := t }⟩

def busPart : Part (Stage η ν) FragileBus := ⟨(·.bus), fun t s => { s with bus := t }⟩

def unitsPart : Part (Stage η ν) ThreadUnits := ⟨(·.units), fun t s => { s with units := t }⟩

def note (n : Note) : Act (Stage η ν) Unit :=
  Act.modifyApp fun s => { s with notes := n :: s.notes }

/-- Uses up one stroke of a fault, if it is armed. -/
def strike (name : String) (faults : Assoc String Fault) : Option String × Assoc String Fault :=
  match faults.get? name with
  | some ⟨message, times + 1⟩ => (some message, faults.put name ⟨message, times⟩)
  | _ => (none, faults)

def fault (name : String) : Act (Stage η ν) (Option String) := faultsPart.run (strike name)

/-- Runs a ledger call unless the fault of that name is armed. -/
def faulted (name : String) (call : Act (Stage η ν) (Except LedgerError α)) :
    Act (Stage η ν) (Except LedgerError α) := do
  match ← fault name with
  | some message => return .error (.storage message)
  | none => call

/-- The ledger with its faults. -/
def ledgerService : StatusLedger (Stage η ν) :=
  let plain : StatusLedger (Stage η ν) := MemoryLedger.service ledgerPart
  { create := fun row => faulted "ledger.create" (plain.create row)
    get := fun key => faulted "ledger.get" do
      match ← fault "ledger.get_none" with
      | some _ => return .ok none
      | none => plain.get key
    merge := fun row => faulted "ledger.merge" (plain.merge row)
    transition := fun key u => faulted "ledger.transition" (plain.transition key u)
    list := fun q => faulted "ledger.list" (plain.list q)
    stats := fun owner => faulted "ledger.stats" (plain.stats owner) }

def statisticService : StatisticStore (Stage η ν) :=
  let plain : StatisticStore (Stage η ν) := MemoryStatistics.service statisticsPart
  { record := fun s => do
      match ← fault "statistics.conflict" with
      | some message => return .error (.conflict message)
      | none =>
        match ← fault "statistics.storage" with
        | some message => return .error (.storage message)
        | none => plain.record s
    history := plain.history }

def refresher : PoolRefresh.Refresher (Stage η ν) := fun owner lazy => do
  if (← fault "pools.advanced").isSome then return .error (.alreadyAdvanced owner)
  match ← fault "pools.conflict" with
  | some message => return .error (.conflict message)
  | none =>
    match ← fault "pools.other" with
    | some message => return .error (.other { text := message })
    | none => PoolRefresh.inMemory poolsPart owner lazy

/-- A call on the unit of work, with its fault and its note. -/
def noted (call : String) (run : Act (Stage η ν) (Except UnitOfWorkError Unit)) :
    Act (Stage η ν) (Except UnitOfWorkError Unit) := do
  let r ←
    match ← fault ("uow." ++ call) with
    | some message => pure (.error (.backend message))
    | none => run
  note (.unit call r)
  return r

/-- The units of a thread; where closing is all there is, discarding is closing. -/
def unitService (thread : ThreadName) (discards : Bool) : UnitOfWork (Stage η ν) :=
  let plain : UnitOfWork (Stage η ν) := ThreadUnits.service unitsPart thread
  let begin := noted "begin" plain.begin
  let finish := noted "end" plain.finish
  if discards then { begin, finish, abort := noted "abort" plain.abort }
  else .ofClosing begin finish

def requestScope : RequestScope (Stage η ν) :=
  { enter := fun context => note (.scopeEntered context), leave := note .scopeLeft }

end Stage

end JobEngine
