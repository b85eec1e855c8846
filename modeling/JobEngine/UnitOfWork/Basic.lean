import JobEngine.Host
/-! Units of work: the persistence session that a job writes through. Whoever opens a unit closes
it, keeping its work or discarding it; whoever finds one open joins it. -/

namespace JobEngine

inductive UnitOfWorkError where
  | alreadyActive
  | notActive
  | backend (reason : String)
  deriving DecidableEq

def UnitOfWorkError.message : UnitOfWorkError → String
  | .alreadyActive => "unit of work already active"
  | .notActive => "no active unit of work"
  | .backend reason => "unit of work backend error: " ++ reason

structure UnitOfWork (σ : Type) where
  begin : Act σ (Except UnitOfWorkError Unit)
  /-- Closes the unit and keeps its work. -/
  finish : Act σ (Except UnitOfWorkError Unit)
  /-- Closes the unit and discards its work. -/
  abort : Act σ (Except UnitOfWorkError Unit)

/-- A unit with nothing to undo, where discarding is the same as closing. -/
def UnitOfWork.ofClosing (begin finish : Act σ (Except UnitOfWorkError Unit)) : UnitOfWork σ :=
  { begin, finish, abort := finish }

/-- What a run knows of units of work; there may be none at all. -/
abbrev WorkScope (σ : Type) := Option (UnitOfWork σ)

namespace WorkScope

/-- Opens a unit, and says whether this call opened it and so has to close it. -/
def begin : WorkScope σ → Act σ Bool
  | none => pure false
  | some u => do
    match ← u.begin with
    | .ok () => return true
    | .error .alreadyActive =>
      Act.log .jobs .debug "joining existing unit of work"
      return false
    | .error e =>
      Act.log .jobs .warn "could not open unit of work, running without one"
        [("error", .shown e.message)]
      return false

/-- Closes the unit and keeps its work; a unit that is closed already is no fault. -/
def finish : WorkScope σ → Act σ (Except UnitOfWorkError Unit)
  | none => pure (.ok ())
  | some u => do
    match ← u.finish with
    | .error .notActive =>
      Act.log .jobs .debug "unit of work already closed"
      return .ok ()
    | other => return other

/-- Closes the unit and discards its work. -/
def abort : WorkScope σ → Act σ Unit
  | none => pure ()
  | some u => do
    match ← u.abort with
    | .ok () => pure ()
    | .error .notActive => Act.log .jobs .debug "unit of work already closed"
    | .error e =>
      Act.log .jobs .warn "failed to abort unit of work" [("error", .shown e.message)]

end WorkScope

end JobEngine
