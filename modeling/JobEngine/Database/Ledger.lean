import JobEngine.Database.Query
import JobEngine.Ledger.Query
/-! The ledger as programs over a connection, one row of the status table per key. -/

namespace JobEngine.DatabaseLedger

/-- A storage error that names the operation. -/
def failure (operation : String) (e : DatabaseError) : LedgerError :=
  .storage (e.during operation)

def ask (operation : String) (s : Statement) : Query LedgerError Reply :=
  Query.ask (failure operation) s

/-- Reads a row of an answer. -/
def decode : Option StatusRow → Except LedgerError JobStatus
  | none => .error (.storage "failed to deserialize status row")
  | some row => row.toStatus

def first (reply : Reply) : Except LedgerError (Option JobStatus) :=
  match reply.statusRows.head? with
  | none => .ok none
  | some row => (decode row).map some

def create (status : JobStatus) : Query LedgerError Unit := do
  let row ← Query.check (StatusRow.ofStatus status)
  let onError := fun (e : DatabaseError) =>
    if e.isUniqueViolation then LedgerError.alreadyExists status.id else failure "create_status" e
  let _ ← Query.ask onError (.insertStatus row)

def load (key : JobKey) : Query LedgerError (Option JobStatus) := do
  Query.check (first (← ask "load_status" (.loadStatus key.text)))

/-- A row that was not written because the stored one is cancelled is read back. -/
def merge (status : JobStatus) : Query LedgerError JobStatus := do
  let row ← Query.check (StatusRow.ofStatus status)
  match ← Query.check (first (← ask "merge_status" (.mergeStatus row))) with
  | some merged => return merged
  | none =>
    match ← load status.id with
    | some stored => return stored
    | none => throw (.notFound status.id)

/-- Applies an update to the locked row and writes it back with the later of two times. -/
def change (key : JobKey) (update : StatusUpdate) (now later : Instant) :
    Query LedgerError (Except LedgerError JobStatus) := do
  match ← Query.check (first (← ask "lock_status" (.lockStatus key.text))) with
  | none => return .error (.notFound key)
  | some status =>
    match update.apply status now with
    | .error refusal => return .error refusal
    | .ok moved =>
      let moved := { moved with updatedAt := later }
      let row ← Query.check (StatusRow.ofStatus moved)
      let change : StatusChange :=
        { state := row.state, result := row.result, attempts := row.attempts
          updatedAt := row.updatedAt, startedAt := row.startedAt, finishedAt := row.finishedAt }
      let _ ← ask "update_status" (.changeStatus row.id change)
      return .ok moved

def transition (key : JobKey) (update : StatusUpdate) (now later : Instant) :
    Query LedgerError JobStatus :=
  Query.atomically failure (change key update now later)

def list (q : StatusQuery) : Query LedgerError (List JobStatus) := do
  let statement :=
    Statement.listStatuses (q.owner.map (·.text)) (q.state.map (·.name)) q.kind q.limit
  Query.check ((← ask "list_statuses" statement).statusRows.mapM decode)

/-- Adds the count of one group. -/
def addGroup (stats : LedgerStats) (group : Option String × Option Nat) :
    Except LedgerError LedgerStats :=
  match group with
  | (none, _) => .error (.storage "sqlx error in read_state")
  | (_, none) => .error (.storage "sqlx error in read_total")
  | (some state, some total) => do
    let state ← (JobState.ofName state).mapError fun e => .storage e.message
    return stats.add state total

def stats (owner : Option TenantKey) : Query LedgerError LedgerStats := do
  let reply ← ask "count_by_state" (.countStates (owner.map (·.text)))
  Query.check (reply.countRows.foldlM addGroup {})

end JobEngine.DatabaseLedger
