import JobEngine.Ledger.Memory
import JobEngine.Pools.Store
import JobEngine.Statistic.History
import JobEngine.Statistic.Memory
import JobEngine.Rehearsal.Answer
/-! Calls on the stores, as data: on a ledger, on a statistic store and on pools. -/

namespace JobEngine

inductive LedgerCall where
  | create (row : RowRequest)
  | get (key : String)
  | merge (row : RowRequest)
  | transition (key : String) (update : UpdateRequest)
  | cancel (key : String)
  | list (query : QueryRequest)
  | ids (query : QueryRequest)
  | stats (owner : Option String)
  | count (entry : String) (owner : Option String)

namespace LedgerCall

def run (ledger : StatusLedger σ) : LedgerCall → Trial σ Answer
  | .create row => do
    let row ← Trial.build row.build
    Trial.orRefuse .ledger (ledger.create row)
    return .nothing
  | .get key => do
    let key ← Trial.build (Request.key key)
    match ← Trial.orRefuse .ledger (ledger.get key) with
    | none => return .nothing
    | some row => return .row row
  | .merge row => do
    let row ← Trial.build row.build
    return .row (← Trial.orRefuse .ledger (ledger.merge row))
  | .transition key update => do
    let key ← Trial.build (Request.key key)
    let update ← Trial.build update.build
    return .row (← Trial.orRefuse .ledger (ledger.transition key update))
  | .cancel key => do
    let key ← Trial.build (Request.key key)
    return .row (← Trial.orRefuse .ledger (ledger.cancel key))
  | .list query => do
    let query ← Trial.build query.build
    return .rows (← Trial.orRefuse .ledger (ledger.list query))
  | .ids query => do
    let query ← Trial.build query.build
    return .keys ((← Trial.orRefuse .ledger (ledger.list query)).map (·.id))
  | .stats owner => do
    let owner ← Trial.build (Request.given Request.tenant owner)
    return .stats (← Trial.orRefuse .ledger (ledger.stats owner))
  | .count entry owner => do
    let entry ← Trial.build (Request.entry entry)
    let owner ← Trial.build (Request.given Request.tenant owner)
    return .number (← Trial.orRefuse .counting (StatisticHistory.countRows ledger entry owner))

end LedgerCall

/-- A statistic to record, by the name of its entry. -/
structure StatisticRequest where
  entry : String
  value : Int
  owner : Option String := none
  percentage : Bool := false
  recordedAt : When := .now

/-- The statistic as of now, whatever time was asked for. -/
def StatisticRequest.counted (r : StatisticRequest) : Request σ Statistic := do
  let entry ← Request.entry r.entry
  let owner ← Request.given Request.tenant r.owner
  let base ← Request.act (Statistic.raw entry owner r.value)
  return { base with valueType := if r.percentage then .percentage else .raw }

/-- The statistic as of the time that was asked for. -/
def StatisticRequest.dated (r : StatisticRequest) : Request σ Statistic := do
  let statistic ← r.counted
  return { statistic with recordedAt := ← r.recordedAt.read }

structure HistoryRequest where
  entry : String
  owner : Option String := none
  limit : Nat

def HistoryRequest.run (r : HistoryRequest) (store : StatisticStore σ) : Trial σ Answer := do
  let entry ← Trial.build (Request.entry r.entry)
  let owner ← Trial.build (Request.given Request.tenant r.owner)
  return .statistics (← Trial.orRefuse .statistic (store.history entry owner r.limit))

inductive PoolCall where
  | assign (ids : List String)
  | refresh (lazy : Bool)
  | pools
  | generation
  | advance

def PoolCall.run (p : Part σ PoolStore) (owner : String) (call : PoolCall) : Trial σ Answer := do
  let owner ← Trial.build (Request.tenant owner)
  match call with
  | .assign ids =>
    Trial.act (p.modify (·.assign owner ids))
    return .nothing
  | .refresh lazy =>
    match ← Trial.act (p.run (·.refresh owner lazy)) with
    | .ok outcome => return .refresh outcome
    | .error _ => return .nothing
  | .pools => return .versions (← Trial.act (p.read (·.pools owner)))
  | .generation => return .number (← Trial.act (p.read (·.generation owner)))
  | .advance =>
    Trial.act (p.modify (·.advance owner))
    return .number (← Trial.act (p.read (·.generation owner)))

end JobEngine
