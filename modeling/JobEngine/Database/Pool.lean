import JobEngine.Database.Ledger
import JobEngine.Database.Statistics
import JobEngine.Ledger.Service
import JobEngine.UnitOfWork.Threads
/-! The connections to the database. A thread that has opened a unit of work keeps a connection with
its transaction; every call it makes runs on that one, and all other calls on a connection of their
own. -/

namespace JobEngine

structure DatabasePool where
  database : Database := {}
  /-- Whether the database can be reached at all. -/
  isReachable : Bool := true
  /-- Whether the pool gives out no more connections. -/
  isClosed : Bool := false
  /-- The connections that threads hold. -/
  held : Assoc ThreadName Session := []

namespace DatabasePool

variable {α : Type}

def isActive (p : DatabasePool) (thread : ThreadName) : Bool := p.held.has thread

/-- Runs a program on the connection of a thread, which stays open, or on one of its own. There is
none to be had from a closed pool. -/
def run (thread : ThreadName) (time : Instant) (program : StateM Connection α) (p : DatabasePool) :
    Option α × DatabasePool :=
  match p.held.get? thread with
  | some session =>
    let r := program.run { database := p.database, session, time }
    (some r.1, { p with database := r.2.database, held := p.held.put thread r.2.session })
  | none =>
    if p.isClosed then (none, p)
    else
      let r := program.run { database := p.database, time }
      (some r.1, { p with database := r.2.leave })

/-- Makes the tables that are missing. -/
def prepare (time : Instant) (p : DatabasePool) : Except DatabaseError Unit × DatabasePool :=
  let r := Connection.execute .createTables { database := p.database, time }
  (r.1.map fun _ => (), { p with database := r.2.leave })

def closedIn (operation : String) : String := "connection pool closed in " ++ operation

/-- Opens a transaction for a thread. -/
def begin (thread : ThreadName) (time : Instant) (p : DatabasePool) :
    Except UnitOfWorkError Unit × DatabasePool :=
  if p.isActive thread then (.error .alreadyActive, p)
  else if p.isClosed then (.error (.backend (closedIn "begin_unit_of_work")), p)
  else
    match Connection.begin { database := p.database, time } with
    | (.error e, c) =>
      (.error (.backend (e.during "begin_unit_of_work")), { p with database := c.leave })
    | (.ok (), c) =>
      (.ok (), { p with database := c.database, held := p.held.put thread c.session })

/-- Closes the transaction of a thread, which is gone whatever the database answers. -/
def close (step : Connection → Except DatabaseError Unit × Connection) (operation : String)
    (thread : ThreadName) (time : Instant) (p : DatabasePool) :
    Except UnitOfWorkError Unit × DatabasePool :=
  match p.held.get? thread with
  | none => (.error .notActive, p)
  | some session =>
    let p := { p with held := p.held.erase thread }
    match step { database := p.database, session, time } with
    | (.ok (), c) => (.ok (), { p with database := c.leave })
    | (.error e, c) =>
      (.error (.backend (e.during operation)), { p with database := c.abandon.leave })

def finish : ThreadName → Instant → DatabasePool → Except UnitOfWorkError Unit × DatabasePool :=
  close Connection.commit "commit_unit_of_work"

def abort : ThreadName → Instant → DatabasePool → Except UnitOfWorkError Unit × DatabasePool :=
  close Connection.rollback "rollback_unit_of_work"

/-- The time of the server and a program on the connection of a thread. -/
def call (p : Part σ DatabasePool) (thread : ThreadName) (noConnection : String → ε)
    (program : Query ε α) : Act σ (Except ε α) := do
  let time ← Act.now
  match ← p.run (run thread time program.run) with
  | some r => return r
  | none => return .error (noConnection (closedIn "acquire_connection"))

def ledger (p : Part σ DatabasePool) (thread : ThreadName) : StatusLedger σ where
  create status := do
    let r ← call p thread .storage (DatabaseLedger.create status)
    if r.toOption.isSome then
      Act.log .infra .debug "status row created"
        [("job_id", .shown status.id.text), ("state", .shown status.state.name)]
    return r
  get key := call p thread .storage (DatabaseLedger.load key)
  merge status := call p thread .storage (DatabaseLedger.merge status)
  transition key update := do
    let now ← Act.now
    let later ← Act.now
    let r ← call p thread .storage (DatabaseLedger.transition key update now later)
    if let .ok status := r then
      Act.log .infra .debug "status row updated"
        [("job_id", .shown key.text), ("state", .shown status.state.name),
          ("attempts", .int status.attempts)]
    return r
  list q := call p thread .storage (DatabaseLedger.list q)
  stats owner := call p thread .storage (DatabaseLedger.stats owner)

def statistics (p : Part σ DatabasePool) (thread : ThreadName) : StatisticStore σ where
  record s := call p thread .storage (DatabaseStatistics.record s)
  history entry owner limit := call p thread .storage (DatabaseStatistics.history entry owner limit)

/-- A step on the transaction of a thread, and the line that tells of its success. -/
def told (p : Part σ DatabasePool) (message : String)
    (step : Instant → DatabasePool → Except UnitOfWorkError Unit × DatabasePool) :
    Act σ (Except UnitOfWorkError Unit) := do
  let time ← Act.now
  let r ← p.run (step time)
  if r.toOption.isSome then Act.log .infra .debug message
  return r

def unitOfWork (p : Part σ DatabasePool) (thread : ThreadName) : UnitOfWork σ where
  begin := told p "unit of work opened" (begin thread)
  finish := told p "unit of work committed" (finish thread)
  abort := told p "unit of work rolled back" (abort thread)

end DatabasePool

end JobEngine
