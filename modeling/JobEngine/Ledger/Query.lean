import JobEngine.Job.Status
/-! Questions to a ledger: which rows match, in which order they are listed, and how many there are
in each state. -/

namespace JobEngine

structure StatusQuery where
  owner : Option TenantKey := none
  state : Option JobState := none
  kind : Option String := none
  limit : Option Nat := none

namespace StatusQuery

/-- Whether a wish, when there is one, is met. -/
def meets [DecidableEq α] (wish : Option α) (value : α) : Bool :=
  match wish with
  | none => true
  | some a => value = a

def isMatch (q : StatusQuery) (row : JobStatus) : Bool :=
  (match q.owner with
    | none => true
    | some o => row.owner = some o) &&
    meets q.state row.state && meets q.kind row.kind

end StatusQuery

/-- Rows are listed by age, rows of one age by key. -/
def JobStatus.listedBefore (a b : JobStatus) : Bool :=
  a.createdAt < b.createdAt || (a.createdAt = b.createdAt && a.id.text ≤ b.id.text)

/-- The rows that a query asks for, out of rows in any order. -/
def StatusQuery.select (q : StatusQuery) (rows : List JobStatus) : List JobStatus :=
  let matching := (rows.filter q.isMatch).mergeSort JobStatus.listedBefore
  match q.limit with
  | none => matching
  | some n => matching.take n

structure LedgerStats where
  created : Nat := 0
  pending : Nat := 0
  running : Nat := 0
  finished : Nat := 0
  failed : Nat := 0
  cancelled : Nat := 0
  deriving DecidableEq

namespace LedgerStats

def add (s : LedgerStats) (state : JobState) (n : Nat) : LedgerStats :=
  match state with
  | .created => { s with created := s.created + n }
  | .pending => { s with pending := s.pending + n }
  | .running => { s with running := s.running + n }
  | .finished => { s with finished := s.finished + n }
  | .failed => { s with failed := s.failed + n }
  | .cancelled => { s with cancelled := s.cancelled + n }

def get (s : LedgerStats) : JobState → Nat
  | .created => s.created
  | .pending => s.pending
  | .running => s.running
  | .finished => s.finished
  | .failed => s.failed
  | .cancelled => s.cancelled

def total (s : LedgerStats) : Nat :=
  s.created + s.pending + s.running + s.finished + s.failed + s.cancelled

/-- Counts the rows of an owner, or all rows. -/
def ofRows (owner : Option TenantKey) (rows : List JobStatus) : LedgerStats :=
  (rows.filter fun row => StatusQuery.isMatch { owner } row).foldl
    (fun s row => s.add row.state 1) {}

@[simp] theorem get_add (s : LedgerStats) (a b : JobState) (n : Nat) :
    (s.add a n).get b = s.get b + if a = b then n else 0 := by
  cases a <;> cases b <;> rfl

end LedgerStats

end JobEngine
