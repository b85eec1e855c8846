import JobEngine.Event.Broadcast
import JobEngine.Rehearsal.Calls
import JobEngine.Stores
/-! Rehearsals on the stores in a database: calls of several threads, jobs that write through the
stores, and a database that is told to fail or to hold what no store would write. -/

namespace JobEngine

/-- A job to run once. -/
structure DatabaseRun where
  key : String := "run"
  owner : Option String := none
  attempt : Nat := 0
  maxRetries : Int := RetryPolicy.defaultMaxRetries
  /-- Whether to run the statistics job in place of a scripted one. -/
  statistics : Bool := false

mutual

inductive DatabaseStep where
  | ledger (call : LedgerCall)
  | record (request : StatisticRequest)
  /-- Records a statistic once more, by its place among all that were made. -/
  | again (n : Nat)
  | history (request : HistoryRequest)
  | begin
  | finish
  | abort
  | active
  | run (job : DatabaseRun) (body : List DatabaseAction)
  | fault (fault : StatementFault)
  | nullColumn (column : Option String)
  | overwrite (table column : String) (value : Json)
  | rows (table : String)
  | closePool

inductive DatabaseAction where
  | emit (event : EventRequest)
  | fail (error : JobError)
  | panic (text : String)
  | record (request : StatisticRequest)
  | again (n : Nat)
  | create (row : RowRequest)
  | transition (key : String) (update : UpdateRequest)
  /-- Takes a step, whatever it comes to. -/
  | attempt (thread : Option ThreadName) (step : DatabaseStep)

end

inductive DatabaseResult where
  | plain (outcome : Outcome)
  | run (outcome : Except DispatchError Unit) (published : List OutboundEvent)
      (tried : List DatabaseResult)

structure DatabaseStage where
  storage : Storage := {}
  /-- The bus of the run that is going on. -/
  bus : Broadcast OutboundEvent := {}
  made : List Statistic := []
  /-- What the steps of the run that is going on came to, the newest first. -/
  tried : List DatabaseResult := []

/-- What a column of texts holds when it is set to a value of a related type. -/
def Json.columnText? : Json → Option String
  | .str s => some s
  | .int n => some (toString n)
  | _ => none

/-- What a column of integers holds then. -/
def Json.columnInt? : Json → Option Int
  | .int n => some n
  | .bool b => some (if b then 1 else 0)
  | _ => none

/-- What a column of flags holds then. -/
def Json.columnFlag? : Json → Option Bool
  | .bool b => some b
  | .int n => some (n ≠ 0)
  | _ => none

/-- A column that may be null. -/
def Json.columnOption? (read : Json → Option α) : Json → Option (Option α)
  | .null => some none
  | j => (read j).map some

namespace StatusRow

/-- The row with one column set, past all checks. A value that does not fit changes nothing. -/
def overwritten (column : String) (value : Json) (r : StatusRow) : StatusRow :=
  let changed := match column with
    | "id" => value.columnText?.map fun s => { r with id := s }
    | "kind" => value.columnText?.map fun s => { r with kind := s }
    | "state" => value.columnText?.map fun s => { r with state := s }
    | "triggered" => value.columnFlag?.map fun b => { r with triggered := b }
    | "owner_id" => (value.columnOption? Json.columnText?).map fun s => { r with owner := s }
    | "result" => (value.columnOption? Json.columnText?).map fun s => { r with result := s }
    | "attempts" => value.columnInt?.map fun n => { r with attempts := n }
    | "started_at" => (value.columnOption? fun _ => none).map fun t => { r with startedAt := t }
    | "finished_at" => (value.columnOption? fun _ => none).map fun t => { r with finishedAt := t }
    | _ => none
  changed.getD r

end StatusRow

namespace StatisticRow

/-- The row with one column set, past all checks. A value that does not fit changes nothing. -/
def overwritten (column : String) (value : Json) (r : StatisticRow) : StatisticRow :=
  let changed := match column with
    | "entry_type" => value.columnText?.map fun s => { r with entryType := s }
    | "value_type" => value.columnText?.map fun s => { r with valueType := s }
    | "owner_id" => (value.columnOption? Json.columnText?).map fun s => { r with owner := s }
    | "value" => value.columnInt?.map fun n => { r with value := n }
    | _ => none
  changed.getD r

end StatisticRow

namespace Tables

def statisticsName : String := "job_statistics"

/-- The number of rows of a table. -/
def count (t : Tables) (table : String) : Nat :=
  if table = statisticsName then (t.statistics.getD []).length else (t.statuses.getD []).length

def overwrite (t : Tables) (table column : String) (value : Json) : Tables :=
  if table = statisticsName then
    { t with statistics := t.statistics.map (·.map (·.overwritten column value)) }
  else { t with statuses := t.statuses.map (·.map (·.overwritten column value)) }

end Tables

namespace DatabaseStage

def storagePart : Part DatabaseStage Storage := ⟨(·.storage), fun t s => { s with storage := t }⟩

def poolPart : Part DatabaseStage DatabasePool := Storage.poolPart storagePart

def busPart : Part DatabaseStage (Broadcast OutboundEvent) :=
  ⟨(·.bus), fun t s => { s with bus := t }⟩

def databasePart : Part DatabaseStage Database :=
  ⟨fun s => (poolPart.get s).database,
    fun t s => poolPart.put { poolPart.get s with database := t } s⟩

def stores : Stores DatabaseStage := Stores.inDatabase storagePart

/-- Makes a statistic, which counts as made even if no store takes it. -/
def make (request : StatisticRequest) : Request DatabaseStage Statistic := do
  let statistic ← request.dated
  Request.act (Act.modifyApp fun s => { s with made := s.made ++ [statistic] })
  return statistic

def record (thread : ThreadName) (statistic : Statistic) :
    Act DatabaseStage (Except StatisticError Unit) :=
  (stores.statistics thread).record statistic

/-- Records a statistic that was made before; one that never was is no fault. -/
def again (thread : ThreadName) (n : Nat) : Act DatabaseStage (Except StatisticError Unit) := do
  match (← Act.app).made[n]? with
  | none => return .ok ()
  | some statistic => record thread statistic

/-- Starts a run with an empty bus and nothing tried, and gives what it left of both. -/
def apart (run : Act DatabaseStage α) :
    Act DatabaseStage (α × List OutboundEvent × List DatabaseResult) := do
  let before ← Act.app
  Act.modifyApp fun s => { s with bus := {}, tried := [] }
  let a ← run
  let after ← Act.app
  Act.modifyApp fun s => { s with bus := before.bus, tried := before.tried }
  return (a, after.bus.history, after.tried.reverse)

def harness (thread : ThreadName) (maxRetries : Int) : Harness DatabaseStage where
  policy := HarnessConfig.retryPolicy { maxRetries }
  bus := Broadcast.service busPart
  unitOfWork := some (stores.unitOfWork thread)

def runJob (thread : ThreadName) (r : DatabaseRun) (body : JobContext → Body DatabaseStage Unit) :
    Act DatabaseStage DatabaseResult := do
  let request : JobRequest := { source := .kind "pg.job", key := some r.key, owner := r.owner }
  match ← request.build.run with
  | .error e => return .plain (.error (.request e))
  | .ok definition =>
    let job : Job DatabaseStage :=
      if r.statistics then
        StatisticHistory.job (StatisticHistory.countRows (stores.ledger thread))
          (stores.statistics thread)
      else { name := "calls", body }
    let fire ← FireContext.create definition Dict.empty r.attempt
    let (result, published, tried) ← apart ((harness thread r.maxRetries).run job fire)
    return .run result published tried

def ledgerError (r : Except LedgerError α) : Body DatabaseStage Unit := do
  let _ ← Body.orFail LedgerError.toJobError r

def statisticError (r : Except StatisticError Unit) : Body DatabaseStage Unit :=
  Body.orFail StatisticError.toJobError r

end DatabaseStage

/-- Does something on a thread; only the log of the main thread is seen. -/
def onThread (thread : ThreadName) (a : Act σ α) : Act σ α :=
  if thread = .main then a else a.unlogged

/-- A step that is a trial. -/
def Trial.plain (t : Trial σ Answer) : Act σ DatabaseResult := do return .plain (← t.run)

open DatabaseStage in
mutual

def DatabaseStep.play (thread : ThreadName) : DatabaseStep → Act DatabaseStage DatabaseResult
  | .ledger call => (call.run (stores.ledger thread)).plain
  | .record request => Trial.plain do
    let statistic ← Trial.build (make request)
    Trial.orRefuse .statistic (DatabaseStage.record thread statistic)
    return .nothing
  | .again n => Trial.plain do
    Trial.orRefuse .statistic (DatabaseStage.again thread n)
    return .nothing
  | .history request => (request.run (stores.statistics thread)).plain
  | .begin => Trial.plain do
    Trial.orRefuse .unit (stores.unitOfWork thread).begin
    return .nothing
  | .finish => Trial.plain do
    Trial.orRefuse .unit (stores.unitOfWork thread).finish
    return .nothing
  | .abort => Trial.plain do
    Trial.orRefuse .unit (stores.unitOfWork thread).abort
    return .nothing
  | .active => Trial.plain do
    return .flag (← Trial.act (poolPart.read (·.isActive thread)))
  | .run job body => runJob thread job fun ctx => DatabaseAction.performAll thread ctx body
  | .fault fault => Trial.plain do
    Trial.act (databasePart.modify fun d => { d with faults := d.faults ++ [fault] })
    return .nothing
  | .nullColumn column => Trial.plain do
    Trial.act (databasePart.modify fun d => { d with nullColumn := column })
    return .nothing
  | .overwrite table column value => Trial.plain do
    Trial.act (databasePart.modify fun d =>
      { d with tables := d.tables.overwrite table column value })
    return .number (← Trial.act (databasePart.read (·.tables.count table)))
  | .rows table => Trial.plain do
    return .number (← Trial.act (databasePart.read (·.tables.count table)))
  | .closePool => Trial.plain do
    Trial.act (poolPart.modify fun p => { p with isClosed := true })
    return .nothing

def DatabaseAction.perform (thread : ThreadName) (ctx : JobContext) :
    DatabaseAction → Body DatabaseStage Unit
  | .emit event => do ctx.emit (← event.build.orFail)
  | .fail error => Body.fail error
  | .panic text => Body.stop (.panicked text)
  | .record request => do
    let statistic ← (make request).orFail
    statisticError (← Body.act (DatabaseStage.record thread statistic))
  | .again n => do statisticError (← Body.act (DatabaseStage.again thread n))
  | .create row => do
    let row ← row.build.orFail
    ledgerError (← Body.act ((stores.ledger thread).create row))
  | .transition key update => do
    let key ← (Request.key key).orFail
    let update ← update.build.orFail
    ledgerError (← Body.act ((stores.ledger thread).transition key update))
  | .attempt other step => Body.act do
    let thread := other.getD thread
    let result ← onThread thread (step.play thread)
    Act.modifyApp fun s => { s with tried := result :: s.tried }

def DatabaseAction.performAll (thread : ThreadName) (ctx : JobContext) :
    List DatabaseAction → Body DatabaseStage Unit
  | [] => pure ()
  | action :: rest => do
    action.perform thread ctx
    DatabaseAction.performAll thread ctx rest

end

/-- How the stores of a rehearsal are opened. -/
structure DatabaseScene where
  maxConnections : Nat := 3
  /-- Whether the stores are put together one by one, and not as the settings of a process say. -/
  isAssembled : Bool := false
  /-- Whether assembled stores get their tables. -/
  hasSchema : Bool := true

namespace DatabaseScene

/-- Opens the stores. Where they are assembled, all that can go wrong counts as connecting. -/
def openStores (s : DatabaseScene) : Act DatabaseStage (Except StoreError Unit) := do
  if s.isAssembled then
    if let .error e ← Stores.connect DatabaseStage.poolPart then return .error e
    if s.hasSchema then
      if let .error _ ← Stores.ensureSchema DatabaseStage.poolPart then return .error .connect
    return .ok ()
  else
    let config : StoreConfig := { backend := .postgres "", maxConnections := s.maxConnections }
    return (← Stores.ofConfig DatabaseStage.storagePart config).map fun _ => ()

/-- Takes a step. Only assembled stores show whether a thread has a transaction, and can be
closed. -/
def play (s : DatabaseScene) (thread : ThreadName) (step : DatabaseStep) :
    Act DatabaseStage DatabaseResult :=
  match step with
  | .active | .closePool =>
    if s.isAssembled then step.play thread else pure (.plain (.ok .nothing))
  | _ => step.play thread

/-- Something that is done, and the lines written meanwhile. -/
def logged (a : Act σ α) : Act σ (α × List Log.Line) := do
  let r ← a
  return (r, ← Act.drainLog)

/-- Opens the stores and, if that succeeds, takes the steps. The first lines are the opening's. -/
def run (s : DatabaseScene) (steps : List (ThreadName × DatabaseStep)) :
    Act DatabaseStage
      (Except StoreError (List Log.Line × List (DatabaseResult × List Log.Line))) := do
  match ← logged s.openStores with
  | (.error e, _) => return .error e
  | (.ok (), lines) =>
    return .ok (lines, ← steps.mapM fun st => logged (onThread st.1 (s.play st.1 st.2)))

end DatabaseScene

end JobEngine
