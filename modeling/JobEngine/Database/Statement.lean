import JobEngine.Database.Row
/-! The statements that the stores send, their SQL, and what each one asks of the tables. A
statement reads the tables as they are and answers with rows, with writes to be applied, or with an
error; it changes nothing by itself. -/

namespace JobEngine

/-- An error that the database reports. -/
structure DatabaseError where
  code : String
  message : String
  deriving DecidableEq

namespace DatabaseError

/-- The error with the operation that met it. -/
def during (e : DatabaseError) (operation : String) : String :=
  "database error " ++ e.code ++ " in " ++ operation ++ ": " ++ e.message

def uniqueViolation : String := "23505"

def isUniqueViolation (e : DatabaseError) : Bool := e.code == uniqueViolation

def duplicateKey (constraint : String) : DatabaseError :=
  ⟨uniqueViolation, "duplicate key value violates unique constraint \"" ++ constraint ++ "\""⟩

def missingTable (table : String) : DatabaseError :=
  ⟨"42P01", "relation \"" ++ table ++ "\" does not exist"⟩

def aborted : DatabaseError :=
  ⟨"25P02", "current transaction is aborted, commands ignored until end of transaction block"⟩

end DatabaseError

/-- The columns that a change of state writes. -/
structure StatusChange where
  state : String
  result : Option String
  attempts : Int
  updatedAt : Instant
  startedAt : Option Instant
  finishedAt : Option Instant

namespace StatusRow

def change (r : StatusRow) (c : StatusChange) : StatusRow :=
  { r with
    state := c.state
    result := c.result
    attempts := c.attempts
    updatedAt := c.updatedAt
    startedAt := c.startedAt
    finishedAt := c.finishedAt }

/-- All columns of another row but its key and its age, and the time of the server. -/
def overwrite (r new : StatusRow) (now : Instant) : StatusRow :=
  { new with id := r.id, createdAt := r.createdAt, updatedAt := now.stored }

def listedBefore (a b : StatusRow) : Bool :=
  a.createdAt < b.createdAt || (a.createdAt = b.createdAt && a.id ≤ b.id)

end StatusRow

inductive Statement where
  | createTables
  | begin
  | commit
  | rollback
  | savepoint
  | releaseSavepoint
  | rollbackToSavepoint
  | insertStatus (row : StatusRow)
  | mergeStatus (row : StatusRow)
  | loadStatus (id : String)
  | lockStatus (id : String)
  | changeStatus (id : String) (change : StatusChange)
  | listStatuses (owner state kind : Option String) (limit : Option Nat)
  | countStates (owner : Option String)
  | insertStatistic (row : StatisticRow)
  | loadHistory (entry : String) (owner : Option String) (limit : Nat)

namespace Statement

def statusColumns : String :=
  "id, kind, state, triggered, owner_id, result, attempts, created_at, updated_at, started_at, " ++
    "finished_at"

def insertText : String :=
  "INSERT INTO job_status ( " ++ statusColumns ++
    " ) VALUES ($1, $2, $3, $4, $5, $6, $7, $8, $9, $10, $11)"

def loadText : String := "SELECT " ++ statusColumns ++ " FROM job_status WHERE id = $1"

def schemaText : String :=
  "-- One row per job key. CREATE TABLE IF NOT EXISTS job_status ( id TEXT PRIMARY KEY, " ++
    "kind TEXT NOT NULL, state TEXT NOT NULL CHECK (state IN ('created', 'pending', 'running', " ++
    "'finished', 'failed', 'cancelled')), triggered BOOLEAN NOT NULL, owner_id TEXT, " ++
    "result TEXT, attempts INTEGER NOT NULL DEFAULT 0 CHECK (attempts >= 0), " ++
    "created_at TIMESTAMPTZ NOT NULL, " ++
    "updated_at TIMESTAMPTZ NOT NULL, started_at TIMESTAMPTZ, finished_at TIMESTAMPTZ ); " ++
    "CREATE INDEX IF NOT EXISTS job_status_owner_state_kind_idx " ++
    "ON job_status (owner_id, state, kind); " ++
    "CREATE TABLE IF NOT EXISTS job_statistics ( id UUID PRIMARY KEY, entry_type TEXT NOT NULL, " ++
    "value_type TEXT NOT NULL, owner_id TEXT, value BIGINT NOT NULL, " ++
    "recorded_at TIMESTAMPTZ NOT NULL ); " ++
    "CREATE INDEX IF NOT EXISTS job_statistics_entry_owner_idx " ++
    "ON job_statistics (entry_type, owner_id, recorded_at DESC);"

/-- The SQL of a statement, with single blanks. -/
def text : Statement → String
  | .createTables => schemaText
  | .begin => "BEGIN"
  | .commit => "COMMIT"
  | .rollback => "ROLLBACK"
  | .savepoint => "SAVEPOINT _sqlx_savepoint_1"
  | .releaseSavepoint => "RELEASE SAVEPOINT _sqlx_savepoint_1"
  | .rollbackToSavepoint => "ROLLBACK TO SAVEPOINT _sqlx_savepoint_1"
  | .insertStatus _ => insertText
  | .mergeStatus _ =>
    insertText ++
    " ON CONFLICT (id) DO UPDATE SET kind = EXCLUDED.kind, state = EXCLUDED.state, " ++
      "triggered = EXCLUDED.triggered, owner_id = EXCLUDED.owner_id, result = EXCLUDED.result, " ++
      "attempts = EXCLUDED.attempts, updated_at = NOW(), started_at = EXCLUDED.started_at, " ++
      "finished_at = EXCLUDED.finished_at WHERE job_status.state <> 'cancelled' RETURNING " ++
      statusColumns
  | .loadStatus _ => loadText
  | .lockStatus _ => loadText ++ " FOR UPDATE"
  | .changeStatus .. =>
    "UPDATE job_status SET state = $2, result = $3, attempts = $4, updated_at = $5, " ++
      "started_at = $6, finished_at = $7 WHERE id = $1"
  | .listStatuses .. =>
    "SELECT " ++ statusColumns ++ " FROM job_status WHERE ($1::text IS NULL OR owner_id = $1) " ++
      "AND ($2::text IS NULL OR state = $2) AND ($3::text IS NULL OR kind = $3) " ++
      "ORDER BY created_at ASC, id ASC LIMIT $4"
  | .countStates _ =>
    "SELECT state, COUNT(*) AS total FROM job_status " ++
      "WHERE ($1::text IS NULL OR owner_id = $1) GROUP BY state"
  | .insertStatistic _ =>
    "INSERT INTO job_statistics (id, entry_type, value_type, owner_id, value, recorded_at) " ++
      "VALUES ($1, $2, $3, $4, $5, $6)"
  | .loadHistory .. =>
    "SELECT id, entry_type, value_type, owner_id, value, recorded_at FROM job_statistics " ++
      "WHERE entry_type = $1 AND owner_id IS NOT DISTINCT FROM $2 " ++
      "ORDER BY recorded_at DESC LIMIT $3"

end Statement

/-- The tables, as far as they have been made. -/
structure Tables where
  statuses : Option (List StatusRow) := none
  statistics : Option (List StatisticRow) := none

inductive Write where
  | createTables
  | addStatus (row : StatusRow)
  | changeStatus (id : String) (change : StatusRow → StatusRow)
  | addStatistic (row : StatisticRow)

def Write.apply (t : Tables) : Write → Tables
  | .createTables =>
    { statuses := some (t.statuses.getD []), statistics := some (t.statistics.getD []) }
  | .addStatus row => { t with statuses := t.statuses.map (· ++ [row]) }
  | .changeStatus id change =>
    { t with statuses := t.statuses.map (·.map fun r => if r.id = id then change r else r) }
  | .addStatistic row => { t with statistics := t.statistics.map (· ++ [row]) }

/-- The rows of an answer. A row that has a null where none may be is absent. -/
inductive Reply where
  | done
  | statuses (rows : List (Option StatusRow))
  | statistics (rows : List (Option StatisticRow))
  | counts (rows : List (Option String × Option Nat))

namespace Reply

/-- The answer with one column null. -/
def nulled (column : String) : Reply → Reply
  | .done => .done
  | .statuses rows => .statuses (rows.map (·.bind (StatusRow.nulled column)))
  | .statistics rows => .statistics (rows.map (·.bind (StatisticRow.nulled column)))
  | .counts rows =>
    .counts (rows.map fun r =>
      (if column = "state" then none else r.1, if column = "total" then none else r.2))

def statusRows : Reply → List (Option StatusRow)
  | .statuses rows => rows
  | _ => []

def statisticRows : Reply → List (Option StatisticRow)
  | .statistics rows => rows
  | _ => []

def countRows : Reply → List (Option String × Option Nat)
  | .counts rows => rows
  | _ => []

end Reply

namespace Tables

def statusTable (t : Tables) : Except DatabaseError (List StatusRow) :=
  match t.statuses with
  | some rows => .ok rows
  | none => .error (.missingTable "job_status")

def statisticTable (t : Tables) : Except DatabaseError (List StatisticRow) :=
  match t.statistics with
  | some rows => .ok rows
  | none => .error (.missingTable "job_statistics")

/-- Whether a filter that may be null lets a column pass. -/
def lets (wish column : Option String) : Bool := wish.isNone || wish == column

def list (rows : List StatusRow) (owner state kind : Option String) (limit : Option Nat) :
    List StatusRow :=
  let matching := rows.filter fun r =>
    lets owner r.owner && lets state (some r.state) && lets kind (some r.kind)
  let sorted := matching.mergeSort StatusRow.listedBefore
  match limit with
  | none => sorted
  | some n => sorted.take n

/-- One group per state, in the order in which the states appear. -/
def countStates (rows : List StatusRow) (owner : Option String) : List (String × Nat) :=
  (rows.filter fun r => lets owner r.owner).foldl
    (fun groups r => Assoc.put groups r.state (((Assoc.get? groups r.state).getD 0) + 1)) []

def history (rows : List StatisticRow) (entry : String) (owner : Option String) (limit : Nat) :
    List StatisticRow :=
  let matching := rows.filter fun r => r.entryType = entry && r.owner = owner
  (matching.mergeSort fun a b => b.recordedAt ≤ a.recordedAt).take limit

def merge (rows : List StatusRow) (row : StatusRow) (now : Instant) :
    List StatusRow × List Write :=
  match rows.find? (·.id = row.id) with
  | none => ([row], [.addStatus row])
  | some old =>
    if old.state = JobState.cancelled.name then ([], [])
    else ([old.overwrite row now], [.changeStatus row.id (·.overwrite row now)])

/-- What a statement on the tables answers, and what it writes. -/
def answer (t : Tables) (now : Instant) : Statement → Except DatabaseError (Reply × List Write)
  | .createTables => .ok (.done, [.createTables])
  | .insertStatus row => do
    if (← t.statusTable).any (·.id = row.id) then throw (.duplicateKey "job_status_pkey")
    return (.done, [.addStatus row])
  | .mergeStatus row => do
    let (returned, writes) := merge (← t.statusTable) row now
    return (.statuses (returned.map some), writes)
  | .loadStatus id | .lockStatus id => do
    return (.statuses (((← t.statusTable).filter (·.id = id)).map some), [])
  | .changeStatus id c => do
    let _ ← t.statusTable
    return (.done, [.changeStatus id (·.change c)])
  | .listStatuses owner state kind limit => do
    return (.statuses ((list (← t.statusTable) owner state kind limit).map some), [])
  | .countStates owner => do
    return (.counts ((countStates (← t.statusTable) owner).map fun g => (some g.1, some g.2)), [])
  | .insertStatistic row => do
    if (← t.statisticTable).any (·.id = row.id) then throw (.duplicateKey "job_statistics_pkey")
    return (.done, [.addStatistic row])
  | .loadHistory entry owner limit => do
    return (.statistics ((history (← t.statisticTable) entry owner limit).map some), [])
  | _ => .ok (.done, [])

end Tables

end JobEngine
