import JobEngine.UnitOfWork.Basic
/-! Units of work that hold nothing: at most one per thread, and a count of how they ended. -/

namespace JobEngine

/-- The thread that calls. -/
inductive ThreadName where
  | main
  | worker
  | named (name : String)
  deriving DecidableEq

structure ThreadUnits where
  active : List ThreadName := []
  opened : Nat := 0
  closed : Nat := 0
  /-- How many of the closed ones were discarded. -/
  aborted : Nat := 0

namespace ThreadUnits

def isActive (u : ThreadUnits) (t : ThreadName) : Bool := u.active.contains t

def begin (t : ThreadName) (u : ThreadUnits) : Except UnitOfWorkError Unit × ThreadUnits :=
  if u.isActive t then (.error .alreadyActive, u)
  else (.ok (), { u with active := t :: u.active, opened := u.opened + 1 })

def finish (t : ThreadName) (u : ThreadUnits) : Except UnitOfWorkError Unit × ThreadUnits :=
  if u.isActive t then (.ok (), { u with active := u.active.erase t, closed := u.closed + 1 })
  else (.error .notActive, u)

def abort (t : ThreadName) (u : ThreadUnits) : Except UnitOfWorkError Unit × ThreadUnits :=
  match u.finish t with
  | (.ok (), next) => (.ok (), { next with aborted := next.aborted + 1 })
  | refused => refused

/-- What is left when a thread has ended: a unit that it had open is never closed. -/
def forget (t : ThreadName) (u : ThreadUnits) : ThreadUnits :=
  { u with active := u.active.filter (· ≠ t) }

/-- The unit of work of one thread. -/
def service (p : Part σ ThreadUnits) (t : ThreadName) : UnitOfWork σ where
  begin := p.run (begin t)
  finish := p.run (finish t)
  abort := p.run (abort t)

end ThreadUnits

end JobEngine
