import JobEngine.Ledger.Update
import JobEngine.Statistic.Basic
import JobEngine.Time.Stamp
/-! Rows as the columns of the database hold them: names as text, attempts as an integer that may be
anything, times in whole microseconds. A value always has a row, and reading the row gives the value
back; a row may also hold what no value can, and is then refused. -/

namespace JobEngine

structure StatusRow where
  id : String
  kind : String
  state : String
  triggered : Bool
  owner : Option String
  result : Option String
  attempts : Int
  createdAt : Instant
  updatedAt : Instant
  startedAt : Option Instant
  finishedAt : Option Instant
  deriving DecidableEq

namespace StatusRow

/-- The greatest number of attempts that a row can hold. -/
def maxAttempts : Nat := twoTo 31 - 1

def attemptsColumn (attempts : Nat) : Except LedgerError Int :=
  if attempts ≤ maxAttempts then .ok attempts
  else .error (.storage ("attempt count " ++ toString attempts ++ " out of range"))

def ofStatus (s : JobStatus) : Except LedgerError StatusRow := do
  let attempts ← attemptsColumn s.attempts
  return {
    id := s.id.text
    kind := s.kind
    state := s.state.name
    triggered := s.triggered
    owner := s.owner.map (·.text)
    result := s.result
    attempts
    createdAt := s.createdAt.stored
    updatedAt := s.updatedAt.stored
    startedAt := s.startedAt.map Stamp.stored
    finishedAt := s.finishedAt.map Stamp.stored }

/-- Reads a column that may be empty. -/
def ofColumn (read : α → Except ε β) : Option α → Except ε (Option β)
  | none => .ok none
  | some a => (read a).map some

def toStatus (r : StatusRow) : Except LedgerError JobStatus := do
  let id ← (JobKey.ofText r.id).mapError fun e => .storage ("invalid job key: " ++ e.message)
  let state ← (JobState.ofName r.state).mapError fun e => .storage e.message
  let owner ← (ofColumn TenantKey.ofText r.owner).mapError fun e =>
    .storage ("invalid owner id: " ++ e.message)
  if r.attempts < 0 then
    throw (.storage ("negative attempt count " ++ toString r.attempts))
  return {
    id
    kind := r.kind
    state
    triggered := r.triggered
    owner
    result := r.result
    attempts := r.attempts.toNat
    createdAt := r.createdAt
    updatedAt := r.updatedAt
    startedAt := r.startedAt.map Stamp.ofInstant
    finishedAt := r.finishedAt.map Stamp.ofInstant }

/-- The row with one column null; there is none where the column may not be null. -/
def nulled (column : String) (r : StatusRow) : Option StatusRow :=
  match column with
  | "id" | "kind" | "state" | "triggered" | "attempts" | "created_at" | "updated_at" => none
  | "owner_id" => some { r with owner := none }
  | "result" => some { r with result := none }
  | "started_at" => some { r with startedAt := none }
  | "finished_at" => some { r with finishedAt := none }
  | _ => some r

end StatusRow

structure StatisticRow where
  id : Uuid
  entryType : String
  valueType : String
  owner : Option String
  value : Int
  recordedAt : Instant
  deriving DecidableEq

namespace StatisticRow

def ofStatistic (s : Statistic) : StatisticRow where
  id := s.id
  entryType := s.entryType.name
  valueType := s.valueType.name
  owner := s.owner.map (·.text)
  value := s.value
  recordedAt := s.recordedAt.stored

def toStatistic (r : StatisticRow) : Except StatisticError Statistic := do
  let entryType ← (EntryType.ofName r.entryType).mapError fun e => .storage e.message
  let valueType ← (ValueType.ofName r.valueType).mapError fun e => .storage e.message
  let owner ← (StatusRow.ofColumn TenantKey.ofText r.owner).mapError fun e =>
    .storage ("invalid owner id: " ++ e.message)
  return { id := r.id, entryType, valueType, owner, value := r.value, recordedAt := r.recordedAt }

/-- The row with one column null; there is none where the column may not be null. -/
def nulled (column : String) (r : StatisticRow) : Option StatisticRow :=
  match column with
  | "id" | "entry_type" | "value_type" | "value" | "recorded_at" => none
  | "owner_id" => some { r with owner := none }
  | _ => some r

end StatisticRow

end JobEngine
