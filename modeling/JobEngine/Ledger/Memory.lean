import JobEngine.Data.Assoc
import JobEngine.Ledger.Service
/-! A ledger kept in memory. -/

namespace JobEngine

structure MemoryLedger where
  rows : Assoc JobKey JobStatus := []

namespace MemoryLedger

def size (l : MemoryLedger) : Nat := l.rows.length

def get? (l : MemoryLedger) (key : JobKey) : Option JobStatus := l.rows.get? key

def put (l : MemoryLedger) (row : JobStatus) : MemoryLedger := { rows := l.rows.put row.id row }

def create (l : MemoryLedger) (row : JobStatus) : Except LedgerError MemoryLedger :=
  if l.rows.has row.id then .error (.alreadyExists row.id) else .ok (l.put row)

/-- The row that is kept when one is written over another. -/
def mergedRow (existing : Option JobStatus) (row : JobStatus) (now : Instant) : JobStatus :=
  match existing with
  | none => row
  | some old =>
    if old.state = .cancelled then old
    else { row with createdAt := old.createdAt, updatedAt := now }

def merge (l : MemoryLedger) (row : JobStatus) (now : Instant) : JobStatus × MemoryLedger :=
  let merged := mergedRow (l.get? row.id) row now
  (merged, l.put merged)

def transition (l : MemoryLedger) (key : JobKey) (u : StatusUpdate) (now : Instant) :
    Except LedgerError (JobStatus × MemoryLedger) :=
  match l.get? key with
  | none => .error (.notFound key)
  | some row => (u.apply row now).map fun moved => (moved, { rows := l.rows.put key moved })

def list (l : MemoryLedger) (q : StatusQuery) : List JobStatus := q.select l.rows.values

def stats (l : MemoryLedger) (owner : Option TenantKey) : LedgerStats :=
  LedgerStats.ofRows owner l.rows.values

/-- Keeps the store when a step is refused. -/
def attempt (step : MemoryLedger → Except LedgerError (α × MemoryLedger)) (l : MemoryLedger) :
    Except LedgerError α × MemoryLedger :=
  match step l with
  | .error e => (.error e, l)
  | .ok (a, next) => (.ok a, next)

def service (p : Part σ MemoryLedger) : StatusLedger σ where
  create row := p.run (attempt fun l => (l.create row).map ((), ·))
  get key := p.read fun l => .ok (l.get? key)
  merge row := do
    let now ← Act.now
    p.run fun l => let r := l.merge row now; (.ok r.1, r.2)
  transition key u := do
    let now ← Act.now
    p.run (attempt fun l => l.transition key u now)
  list q := p.read fun l => .ok (l.list q)
  stats owner := p.read fun l => .ok (l.stats owner)

end MemoryLedger

end JobEngine
