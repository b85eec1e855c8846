import JobEngine.Ledger.Service
import JobEngine.Event.Basic
import JobEngine.Job.Trigger
import JobEngine.Pools.Refresh
import JobEngine.Statistic.Basic
/-! Requests as they come from outside: names not yet checked, times that may be the present, and
fields left out. Building a request checks it and reads the clock where a time was left open. -/

namespace JobEngine

inductive RequestError where
  | value (e : ValueError)
  | state (e : UnknownState)
  | name (e : UnknownName)
  | level (e : UnknownLevel)
  deriving DecidableEq

def RequestError.message : RequestError → String
  | .value e => e.message
  | .state e => e.message
  | .name e => e.message
  | .level e => e.message

abbrev Request (σ α : Type) := ExceptT RequestError (Act σ) α

namespace Request

def act (a : Act σ α) : Request σ α := ExceptT.lift a

def check (toError : ε → RequestError) : Except ε α → Request σ α
  | .ok a => pure a
  | .error e => throw (toError e)

def key (s : String) : Request σ JobKey := check .value (JobKey.ofText s)

def tenant (s : String) : Request σ TenantKey := check .value (TenantKey.ofText s)

def state (s : String) : Request σ JobState := check .state (JobState.ofName s)

def entry (s : String) : Request σ EntryType := check .name (EntryType.ofName s)

/-- Checks a field if it is given. -/
def given (f : α → Request σ β) : Option α → Request σ (Option β)
  | none => pure none
  | some a => do return some (← f a)

/-- A job that makes a bad request fails with its text. -/
def orFail (r : Request σ α) : Body σ α := do
  Body.orFail (fun e => JobError.fatalText e.message) (← Body.act r.run)

end Request

inductive When where
  | now
  | fixed (t : Instant)

def When.read : When → Request σ Instant
  | .now => Request.act Act.now
  | .fixed t => pure t

structure RowRequest where
  id : String
  kind : String := "k"
  triggered : Bool := true
  state : Option String := none
  owner : Option String := none
  result : Option String := none
  attempts : Nat := 0
  createdAt : When := .now
  updatedAt : When := .now
  startedAt : Option When := none
  finishedAt : Option When := none

/-- A row is pending when it is triggered and created otherwise, unless its state is given. -/
def RowRequest.build (r : RowRequest) : Request σ JobStatus := do
  let id ← Request.key r.id
  let state ← Request.given Request.state r.state
  let owner ← Request.given Request.tenant r.owner
  return {
    id
    kind := r.kind
    state := state.getD (if r.triggered then .pending else .created)
    triggered := r.triggered
    owner
    result := r.result
    attempts := r.attempts
    createdAt := ← r.createdAt.read
    updatedAt := ← r.updatedAt.read
    startedAt := (← Request.given When.read r.startedAt).map Stamp.ofInstant
    finishedAt := (← Request.given When.read r.finishedAt).map Stamp.ofInstant }

inductive JobSource where
  | kind (kind : String)
  /-- A refresh of one owner's pools. -/
  | refresh (owner : String) (lazy : Bool)

structure JobRequest where
  source : JobSource
  key : Option String := none
  data : List (String × String) := []
  owner : Option String := none

def JobRequest.build (r : JobRequest) : Request σ JobDefinition := do
  let base ←
    match r.source with
    | .kind kind => Request.act (JobDefinition.fresh kind)
    | .refresh owner lazy =>
      let owner ← Request.tenant owner
      Request.act (PoolRefresh.definition owner lazy)
  let key ← Request.given Request.key r.key
  let base := { base with key := key.getD base.key }
  let base := r.data.foldl (fun d o => d.withData o.1 o.2) base
  match ← Request.given Request.tenant r.owner with
  | none => return base
  | some owner => return base.withOwner owner

structure TriggerRequest where
  /-- The interval of a repeating trigger. -/
  interval : Option Duration
  start : When
  data : List (String × String) := []

def TriggerRequest.build (r : TriggerRequest) : Request σ Trigger := do
  let start ← r.start.read
  let schedule :=
    match r.interval with
    | none => .once start
    | some interval => .every interval start
  return { schedule, data := Dict.ofList r.data }

inductive UpdateRequest where
  | known (u : StatusUpdate)
  | fields (state : String) (result : Option String) (attempt : Option Nat)

def UpdateRequest.build : UpdateRequest → Request σ StatusUpdate
  | .known u => pure u
  | .fields state result attempt => do
    return { state := ← Request.state state, result, attempt }

structure QueryRequest where
  owner : Option String := none
  state : Option String := none
  kind : Option String := none
  limit : Option Nat := none

def QueryRequest.build (r : QueryRequest) : Request σ StatusQuery := do
  return {
    owner := ← Request.given Request.tenant r.owner
    state := ← Request.given Request.state r.state
    kind := r.kind
    limit := r.limit }

structure EventRequest where
  eventType : String
  target : String
  payload : Json := .null
  tenant : Option String := none

def EventRequest.build (r : EventRequest) : Request σ OutboundEvent := do
  let tenant ← Request.given Request.tenant r.tenant
  Request.act (OutboundEvent.create r.eventType r.target r.payload tenant)

end JobEngine
