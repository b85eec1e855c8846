import JobEngine.Job.Failure
import JobEngine.Ledger.Query
import JobEngine.Host
/-! Recorded counts of jobs, and the stores that keep them. -/

namespace JobEngine

structure UnknownName where
  what : String
  given : String
  deriving DecidableEq

def UnknownName.message (e : UnknownName) : String :=
  "unknown statistic " ++ e.what ++ " type: " ++ e.given

inductive EntryType where
  | totalJobs
  | activeJobs
  | failedJobs
  deriving DecidableEq, Inhabited

namespace EntryType

def all : List EntryType := [.totalJobs, .activeJobs, .failedJobs]

def name : EntryType → String
  | .totalJobs => "total_jobs"
  | .activeJobs => "active_jobs"
  | .failedJobs => "failed_jobs"

def ofName (s : String) : Except UnknownName EntryType :=
  match all.find? (·.name = s) with
  | some e => .ok e
  | none => .error ⟨"entry", s⟩

/-- The number of rows that an entry counts. -/
def count (entry : EntryType) (stats : LedgerStats) : Nat :=
  match entry with
  | .totalJobs => stats.total
  | .activeJobs => stats.pending + stats.running
  | .failedJobs => stats.failed

end EntryType

inductive ValueType where
  | raw
  | percentage
  deriving DecidableEq, Inhabited

namespace ValueType

def all : List ValueType := [.raw, .percentage]

def name : ValueType → String
  | .raw => "raw"
  | .percentage => "percentage"

def ofName (s : String) : Except UnknownName ValueType :=
  match all.find? (·.name = s) with
  | some v => .ok v
  | none => .error ⟨"value", s⟩

end ValueType

structure Statistic where
  id : Uuid
  entryType : EntryType
  valueType : ValueType
  owner : Option TenantKey
  value : Int
  recordedAt : Stamp
  deriving DecidableEq

def Statistic.raw (entry : EntryType) (owner : Option TenantKey) (value : Int) :
    Act σ Statistic := do
  return {
    id := ← Act.freshId
    entryType := entry
    valueType := .raw
    owner, value
    recordedAt := ← Act.now }

inductive StatisticError where
  | conflict (id : String)
  | storage (reason : String)
  deriving DecidableEq

namespace StatisticError

def message : StatisticError → String
  | .conflict id => "statistic already recorded: " ++ id
  | .storage reason => "storage error: " ++ reason

def toJobError (e : StatisticError) : JobError := .conflict e.message

end StatisticError

structure StatisticStore (σ : Type) where
  record : Statistic → Act σ (Except StatisticError Unit)
  /-- The statistics of one entry and one owner, the newest first. -/
  history : EntryType → Option TenantKey → (limit : Nat) →
    Act σ (Except StatisticError (List Statistic))

end JobEngine
