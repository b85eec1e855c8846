import JobEngine.Job.Definition
/-! The lifecycle of a job and the row that records it. A row that has been cancelled stays so, none
goes back to its first state, and none finishes without having run. -/

namespace JobEngine

inductive JobState where
  | created
  | pending
  | running
  | finished
  | failed
  | cancelled
  deriving DecidableEq, Inhabited

structure UnknownState where
  given : String
  deriving DecidableEq

def UnknownState.message (e : UnknownState) : String := "unknown job state: " ++ e.given

namespace JobState

def all : List JobState := [.created, .pending, .running, .finished, .failed, .cancelled]

def name : JobState → String
  | .created => "created"
  | .pending => "pending"
  | .running => "running"
  | .finished => "finished"
  | .failed => "failed"
  | .cancelled => "cancelled"

def ofName (s : String) : Except UnknownState JobState :=
  match all.find? (·.name = s) with
  | some state => .ok state
  | none => .error ⟨s⟩

def isTerminal : JobState → Bool
  | .finished | .failed | .cancelled => true
  | _ => false

/-- Attempts of one key may report out of order, so almost every move is allowed. -/
def canMoveTo : JobState → JobState → Bool
  | .cancelled, _ => false
  | _, .created => false
  | .created, .finished => false
  | _, _ => true

@[simp] theorem ofName_name (s : JobState) : ofName s.name = .ok s := by cases s <;> rfl

end JobState

structure JobStatus where
  id : JobKey
  kind : String
  state : JobState
  /-- Registered with a trigger, and not for a single run. -/
  triggered : Bool
  owner : Option TenantKey
  /-- What the last run left: nothing, or the text of its failure. -/
  result : Option String
  /-- The number of refires before the last attempt. -/
  attempts : Nat
  createdAt : Stamp
  updatedAt : Stamp
  startedAt : Option Stamp
  finishedAt : Option Stamp
  deriving DecidableEq

namespace JobStatus

def initial (definition : JobDefinition) (triggered : Bool) (now : Instant) : JobStatus where
  id := definition.key
  kind := definition.kind
  state := if triggered then .pending else .created
  triggered := triggered
  owner := definition.data.owner?
  result := none
  attempts := 0
  createdAt := now
  updatedAt := now
  startedAt := none
  finishedAt := none

/-- The row of a definition that is about to be registered. -/
def register (definition : JobDefinition) (triggered : Bool) : Act σ JobStatus := do
  let now ← Act.now
  let _ ← definition.data.readOwner
  return initial definition triggered now

/-- Moves to another state and stamps the row, or refuses. -/
def moveTo (s : JobStatus) (next : JobState) (now : Instant) : Option JobStatus :=
  if s.state.canMoveTo next then
    some { s with
      state := next
      updatedAt := now
      startedAt := if next = .running then some now else s.startedAt
      finishedAt :=
        if next = .running then none else if next.isTerminal then some now else s.finishedAt }
  else none

end JobStatus

end JobEngine
