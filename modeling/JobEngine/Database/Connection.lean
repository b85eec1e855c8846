import JobEngine.Database.Statement
/-! A database and one connection to it. Writes of an open transaction are seen on its connection
only, and reach the tables when it commits; outside a transaction each statement commits by itself.
A statement that fails inside a transaction aborts it, and a savepoint brings it back.

The client counts the transactions it has open, one inside the other, and abandons one by queueing
the statement that undoes it. What is queued goes out ahead of the next statement, and its failure
is met there. -/

namespace JobEngine

/-- An error armed for the next statements whose SQL begins in a certain way. -/
structure StatementFault where
  start : String
  error : DatabaseError
  times : Nat

namespace StatementFault

def hits (f : StatementFault) (s : Statement) : Bool :=
  f.times != 0 && f.start.toList.isPrefixOf s.text.toList

/-- Uses up one stroke of the oldest fault that hits a statement. -/
def strike (s : Statement) : List StatementFault → Option (DatabaseError × List StatementFault)
  | [] => none
  | f :: rest =>
    if f.hits s then some (f.error, { f with times := f.times - 1 } :: rest)
    else (strike s rest).map fun r => (r.1, f :: r.2)

end StatementFault

structure Database where
  /-- What has been committed. -/
  tables : Tables := {}
  faults : List StatementFault := []
  /-- A column that every answer leaves null. -/
  nullColumn : Option String := none

structure Transaction where
  /-- The writes so far, oldest first. -/
  writes : List Write := []
  /-- The writes at each open savepoint, the innermost first. -/
  saved : List (List Write) := []
  isAborted : Bool := false

/-- What a connection is in the middle of. -/
structure Session where
  /-- The transaction that is open in the database. -/
  transaction : Option Transaction := none
  /-- How many transactions the client has open. -/
  depth : Nat := 0
  /-- Statements to be sent ahead of the next one. -/
  queued : List Statement := []
  /-- What came of statements that were queued, as far as it has not been read. -/
  unread : List (Option DatabaseError) := []

structure Connection where
  database : Database
  session : Session := {}
  /-- The time of the server. -/
  time : Instant

namespace Transaction

/-- Back to the innermost savepoint, which is forgotten. -/
def revert (t : Transaction) : Transaction :=
  match t.saved with
  | [] => t
  | writes :: outer => { writes, saved := outer, isAborted := false }

def save (t : Transaction) : Transaction := { t with saved := t.writes :: t.saved }

def release (t : Transaction) : Transaction := { t with saved := t.saved.tail }

end Transaction

namespace Connection

/-! The database's side. -/

def applyAll (writes : List Write) (t : Tables) : Tables := writes.foldl Write.apply t

/-- The tables as the connection sees them. -/
def view (c : Connection) : Tables :=
  match c.session.transaction with
  | none => c.database.tables
  | some t => applyAll t.writes c.database.tables

def isAborted (c : Connection) : Bool := c.session.transaction.any (·.isAborted)

def withTransaction (f : Option Transaction → Option Transaction) (c : Connection) : Connection :=
  { c with session.transaction := f c.session.transaction }

/-- Whether a statement is heard even in an aborted transaction. -/
def ends : Statement → Bool
  | .commit | .rollback | .rollbackToSavepoint => true
  | _ => false

/-- What a failed statement leaves: closing a transaction ends it all the same, without keeping
anything; all else aborts the transaction. -/
def afterFailure (s : Statement) (c : Connection) : Connection :=
  match s with
  | .commit | .rollback => c.withTransaction fun _ => none
  | _ => c.withTransaction (·.map ({ · with isAborted := true }))

def keep (writes : List Write) (c : Connection) : Connection :=
  match c.session.transaction with
  | none => { c with database.tables := applyAll writes c.database.tables }
  | some t => c.withTransaction fun _ => some { t with writes := t.writes ++ writes }

/-- Ends the transaction and keeps its writes, unless it was aborted. -/
def settleWrites (c : Connection) : Connection :=
  match c.session.transaction with
  | none => c
  | some t =>
    let writes := if t.isAborted then [] else t.writes
    { c with session.transaction := none, database.tables := applyAll writes c.database.tables }

/-- Carries out a statement that no fault hits. -/
def perform (s : Statement) (c : Connection) : Except DatabaseError Reply × Connection :=
  match s with
  | .begin => (.ok .done, c.withTransaction fun _ => some {})
  | .commit => (.ok .done, c.settleWrites)
  | .rollback => (.ok .done, c.withTransaction fun _ => none)
  | .savepoint => (.ok .done, c.withTransaction (·.map Transaction.save))
  | .releaseSavepoint => (.ok .done, c.withTransaction (·.map Transaction.release))
  | .rollbackToSavepoint => (.ok .done, c.withTransaction (·.map Transaction.revert))
  | _ =>
    match c.view.answer c.time s with
    | .error e => (.error e, c.afterFailure s)
    | .ok (reply, writes) =>
      let reply := match c.database.nullColumn with
        | none => reply
        | some column => reply.nulled column
      (.ok reply, c.keep writes)

/-- What the database makes of a statement. -/
def serve (s : Statement) (c : Connection) : Except DatabaseError Reply × Connection :=
  if c.isAborted && !ends s then (.error .aborted, c)
  else
    match StatementFault.strike s c.database.faults with
    | some (e, faults) => (.error e, { c.afterFailure s with database.faults := faults })
    | none => c.perform s

/-! The client's side. -/

def queue (s : Statement) (c : Connection) : Connection :=
  { c with session.queued := c.session.queued ++ [s] }

/-- Sends what is queued. -/
def flush (c : Connection) : Connection :=
  c.session.queued.foldl (fun c s =>
    let (r, c) := c.serve s
    let failure := match r with
      | .ok _ => none
      | .error e => some e
    { c with session.unread := c.session.unread ++ [failure] })
    { c with session.queued := [] }

/-- Sends what is queued and reads what came of it, up to the first failure. -/
def settle (c : Connection) : Except DatabaseError Unit × Connection :=
  let c := c.flush
  match c.session.unread.dropWhile Option.isNone with
  | some e :: rest => (.error e, { c with session.unread := rest })
  | _ => (.ok (), { c with session.unread := [] })

/-- Sends a statement after what is queued; it is not sent when that has failed. -/
def execute (s : Statement) (c : Connection) : Except DatabaseError Reply × Connection :=
  match c.settle with
  | (.error e, c) => (.error e, c)
  | (.ok (), c) => c.serve s

def withDepth (depth : Nat) (c : Connection) : Connection := { c with session.depth := depth }

/-- Gives up the innermost transaction, which will be undone before the next statement. -/
def abandon (c : Connection) : Connection :=
  match c.session.depth with
  | 0 => c
  | 1 => (c.queue .rollback).withDepth 0
  | depth + 1 => (c.queue .rollbackToSavepoint).withDepth depth

/-- Opens a transaction, or a savepoint inside the open one. Where that fails, the transaction
around it is given up. -/
def begin (c : Connection) : Except DatabaseError Unit × Connection :=
  let depth := c.session.depth
  match (c.queue (if depth = 0 then .begin else .savepoint)).settle with
  | (.ok (), c) => (.ok (), c.withDepth (depth + 1))
  | (.error e, c) => (.error e, c.abandon)

/-- Closes the innermost transaction by one statement, or by another when it is a savepoint. There
is nothing to close when all have been given up. -/
def close (whole nested : Statement) (c : Connection) : Except DatabaseError Unit × Connection :=
  match c.session.depth with
  | 0 => (.ok (), c)
  | depth + 1 =>
    match c.execute (if depth = 0 then whole else nested) with
    | (.ok _, c) => (.ok (), c.withDepth depth)
    | (.error e, c) => (.error e, c)

def commit : Connection → Except DatabaseError Unit × Connection := close .commit .releaseSavepoint

def rollback : Connection → Except DatabaseError Unit × Connection :=
  close .rollback .rollbackToSavepoint

/-- Gives the connection back; what is queued is sent before. -/
def leave (c : Connection) : Database := c.flush.database

end Connection

end JobEngine
