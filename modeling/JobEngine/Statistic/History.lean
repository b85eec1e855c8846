import JobEngine.Job.Body
import JobEngine.Ledger.Service
import JobEngine.Statistic.Basic
/-! The job that records one statistic per entry, for the tenant of the run or for all, and
announces each of them. -/

namespace JobEngine

namespace StatisticHistory

def kind : String := "statistics.history"

/-- Once a day. -/
def interval : Duration := Duration.ofSeconds 86400

/-- Where the counted totals come from. -/
abbrev Source (σ : Type) := EntryType → Option TenantKey → Act σ (Except Cause Nat)

/-- Counts the rows of a ledger. -/
def countRows (ledger : StatusLedger σ) : Source σ := fun entry owner => do
  match ← ledger.stats owner with
  | .ok stats => return .ok (entry.count stats)
  | .error e => return .error { text := e.message }

/-- The greatest value a statistic can hold. -/
def maxValue : Nat := twoTo 63 - 1

def tooLarge : Cause := { text := "number too large to fit in target type" }

def payload (s : Statistic) : Json :=
  .obj [("statistic_id", .str s.id.text), ("value_type", .str s.valueType.name),
    ("value", .int s.value)]

/-- Counts, records and announces one entry. -/
def snapshot (source : Source σ) (store : StatisticStore σ) (ctx : JobContext)
    (entry : EntryType) : Body σ Unit := do
  let owner := ctx.run.tenant
  let count ← Body.orFail .fatal (← Body.act (source entry owner))
  if count > maxValue then Body.fail (.fatal tooLarge)
  let statistic ← Body.act (Statistic.raw entry owner count)
  Body.orFail StatisticError.toJobError (← Body.act (store.record statistic))
  ctx.emit (← Body.act
    (OutboundEvent.create "statistic.recorded" entry.name (payload statistic)))

def snapshots (source : Source σ) (store : StatisticStore σ) (ctx : JobContext) :
    List EntryType → Body σ Unit
  | [] => pure ()
  | entry :: rest => do
    snapshot source store ctx entry
    snapshots source store ctx rest

def job (source : Source σ) (store : StatisticStore σ) (entries : List EntryType := EntryType.all) :
    Job σ where
  name := kind
  body ctx := do
    Body.act (Act.log .tasks .info "executing statistic history job")
    snapshots source store ctx entries

end StatisticHistory

end JobEngine
