import JobEngine.Rehearsal.Answer
import JobEngine.UnitOfWork.Threads
/-! Calls on units of work, as data. They go to the units of threads, or to a single session that
fails as it is told to; or there is no unit of work at all. -/

namespace JobEngine

/-- A session with one open flag for everyone. -/
structure FailingSession where
  isOpen : Bool := false
  beginError : Option String := none
  endError : Option String := none

namespace FailingSession

def begin (s : FailingSession) : Except UnitOfWorkError Unit × FailingSession :=
  match s.beginError with
  | some reason => (.error (.backend reason), s)
  | none => if s.isOpen then (.error .alreadyActive, s) else (.ok (), { s with isOpen := true })

def finish (s : FailingSession) : Except UnitOfWorkError Unit × FailingSession :=
  match s.endError with
  | some reason => (.error (.backend reason), s)
  | none => if s.isOpen then (.ok (), { s with isOpen := false }) else (.error .notActive, s)

end FailingSession

structure UnitStage where
  threads : ThreadUnits := {}
  /-- The session that takes the place of the units of threads. -/
  session : Option FailingSession := none
  disabled : Bool := false

inductive UnitCall where
  | scopeBegin
  | scopeEnd
  | scopeAbort
  | begin
  | finish
  | abort
  | state

namespace UnitStage

def threadsPart : Part UnitStage ThreadUnits := ⟨(·.threads), fun t s => { s with threads := t }⟩

def sessionPart : Part UnitStage FailingSession :=
  ⟨fun s => s.session.getD {}, fun t s => { s with session := some t }⟩

def unit (s : UnitStage) (thread : ThreadName) : UnitOfWork UnitStage :=
  if s.session.isSome then
    .ofClosing (sessionPart.run FailingSession.begin) (sessionPart.run FailingSession.finish)
  else ThreadUnits.service threadsPart thread

def call (thread : ThreadName) (c : UnitCall) : Trial UnitStage Answer := do
  let s ← Trial.act Act.app
  let unit := s.unit thread
  let scope : WorkScope UnitStage := if s.disabled then none else some unit
  match c with
  | .scopeBegin => return .flag (← Trial.act scope.begin)
  | .scopeEnd => Trial.orRefuse .unit scope.finish; return .nothing
  | .scopeAbort => Trial.act scope.abort; return .nothing
  | .begin => Trial.orRefuse .unit unit.begin; return .nothing
  | .finish => Trial.orRefuse .unit unit.finish; return .nothing
  | .abort => Trial.orRefuse .unit unit.abort; return .nothing
  | .state => return .nothing

/-- A call and, after it, how the units of its thread stand. -/
def play (thread : ThreadName) (c : UnitCall) : Act UnitStage (Outcome × Answer) := do
  let r ← (call thread c).run
  let u ← threadsPart.read id
  return (r, .units (u.isActive thread) u.opened u.closed u.aborted)

end UnitStage

end JobEngine
