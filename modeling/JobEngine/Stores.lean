import JobEngine.Config
import JobEngine.Database.Pool
import JobEngine.Ledger.Memory
import JobEngine.Statistic.Memory
/-! The stores that a process runs on: a ledger, a statistic store and the unit of work that joins
their writes, kept in memory or in a database as the settings say. -/

namespace JobEngine

/-- What both kinds of stores are kept in. -/
structure Storage where
  ledger : MemoryLedger := {}
  statistics : MemoryStatistics := {}
  units : ThreadUnits := {}
  pool : DatabasePool := {}

namespace Storage

def ledgerPart (p : Part σ Storage) : Part σ MemoryLedger :=
  ⟨fun s => (p.get s).ledger, fun t s => p.put { p.get s with ledger := t } s⟩

def statisticsPart (p : Part σ Storage) : Part σ MemoryStatistics :=
  ⟨fun s => (p.get s).statistics, fun t s => p.put { p.get s with statistics := t } s⟩

def unitsPart (p : Part σ Storage) : Part σ ThreadUnits :=
  ⟨fun s => (p.get s).units, fun t s => p.put { p.get s with units := t } s⟩

def poolPart (p : Part σ Storage) : Part σ DatabasePool :=
  ⟨fun s => (p.get s).pool, fun t s => p.put { p.get s with pool := t } s⟩

end Storage

inductive StoreError where
  | connect
  | schema
  deriving DecidableEq

def StoreError.message : StoreError → String
  | .connect => "failed to connect to postgres"
  | .schema => "failed to prepare schema"

/-- The stores as one thread uses them. -/
structure Stores (σ : Type) where
  ledger : ThreadName → StatusLedger σ
  statistics : ThreadName → StatisticStore σ
  unitOfWork : ThreadName → UnitOfWork σ

namespace Stores

def inMemory (p : Part σ Storage) : Stores σ where
  ledger _ := MemoryLedger.service (Storage.ledgerPart p)
  statistics _ := MemoryStatistics.service (Storage.statisticsPart p)
  unitOfWork := ThreadUnits.service (Storage.unitsPart p)

def inDatabase (p : Part σ Storage) : Stores σ where
  ledger := DatabasePool.ledger (Storage.poolPart p)
  statistics := DatabasePool.statistics (Storage.poolPart p)
  unitOfWork := DatabasePool.unitOfWork (Storage.poolPart p)

def connect (p : Part σ DatabasePool) : Act σ (Except StoreError Unit) := do
  return if ← p.read (·.isReachable) then .ok () else .error .connect

/-- Makes the tables if they are missing; done again on every start. -/
def ensureSchema (p : Part σ DatabasePool) : Act σ (Except StoreError Unit) := do
  let time ← Act.now
  match ← p.run (·.prepare time) with
  | .error _ => return .error .schema
  | .ok () =>
    Act.log .infra .info "job status schema ready"
    return .ok ()

/-- The stores that the settings ask for. -/
def ofConfig (p : Part σ Storage) (config : StoreConfig) :
    Act σ (Except StoreError (Stores σ)) := do
  match config.backend with
  | .inMemory =>
    Act.log .infra .info "using in-memory stores"
    return .ok (inMemory p)
  | .postgres _ =>
    let pool := Storage.poolPart p
    if let .error e ← connect pool then return .error e
    if let .error e ← ensureSchema pool then return .error e
    Act.log .infra .info "using postgres stores" [("max_connections", .int config.maxConnections)]
    return .ok (inDatabase p)

end Stores

end JobEngine
