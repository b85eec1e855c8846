import JobEngine.Job.Body
import JobEngine.Pools.Store
/-! The job that refreshes the pools of one owner and announces every pool it created, changed or
deleted. -/

namespace JobEngine

inductive RefreshError where
  | alreadyAdvanced (owner : TenantKey)
  | conflict (reason : String)
  | other (cause : Cause)
  deriving DecidableEq

namespace RefreshError

def message : RefreshError → String
  | .alreadyAdvanced owner => "pools of " ++ owner.text ++ " were refreshed concurrently"
  | .conflict reason => "pool conflict: " ++ reason
  | .other cause => cause.text

/-- A lost race is run again; a conflict is one of persistence. -/
def toJobError (e : RefreshError) : JobError :=
  match e with
  | .alreadyAdvanced _ => .retry e.message
  | .conflict reason => .conflict reason
  | .other cause => .fatal cause

end RefreshError

namespace PoolRefresh

def kind : String := "pools.refresh"

/-- The option by which kept pools are left alone; only `false` regenerates them. -/
def lazyOption : String := "lazy_regen"

/-- The definition of a refresh of one owner's pools. -/
def definition (owner : TenantKey) (lazy : Bool) : Act σ JobDefinition := do
  let base ← JobDefinition.fresh kind
  return (base.withOwner owner).withData lazyOption (toString lazy)

abbrev Refresher (σ : Type) := TenantKey → Bool → Act σ (Except RefreshError RefreshOutcome)

def announce (ctx : JobContext) (owner : TenantKey) (eventType : String) :
    List String → Body σ Unit
  | [] => pure ()
  | id :: rest => do
    let payload := Json.obj [("owner_id", .str owner.text), ("pool_id", .str id)]
    ctx.emit (← Body.act (OutboundEvent.create eventType id payload))
    announce ctx owner eventType rest

def body (refresh : Refresher σ) (ctx : JobContext) : Body σ Unit := do
  match ctx.run.tenant with
  | none => Body.fail (.fatalText "pool refresh requires an owner id")
  | some owner =>
    let lazy := ctx.data.get? lazyOption ≠ some "false"
    Body.act (Act.log .tasks .info "refreshing pools"
      [("owner", .shown owner.text), ("lazy_regen", .bool lazy)])
    let outcome ← Body.orFail RefreshError.toJobError (← Body.act (refresh owner lazy))
    announce ctx owner "pool.created" outcome.created
    announce ctx owner "pool.modified" outcome.updated
    announce ctx owner "pool.deleted" outcome.deleted

/-- One running refresh per owner; when the ledger does not answer, the refresh may go ahead. -/
def isSchedulable (ledger : StatusLedger σ) (status : JobStatus) : Act σ Bool := do
  match status.owner with
  | none => return true
  | some owner =>
    match ← ledger.list
      { owner := some owner, state := some .running, kind := some kind, limit := some 1 } with
    | .ok running => return running.isEmpty
    | .error e =>
      Act.log .tasks .warn "could not check for running refresh"
        [("job", .shown status.id.text), ("error", .shown e.message)]
      return true

def job (refresh : Refresher σ) : Job σ where
  name := kind
  body := body refresh
  logsTime := false
  isSchedulable := isSchedulable

/-- A refresh of pools that are kept in memory. -/
def inMemory (p : Part σ PoolStore) : Refresher σ := fun owner lazy => do
  match ← p.run (·.refresh owner lazy) with
  | .ok outcome => return .ok outcome
  | .error e => return .error (.alreadyAdvanced e.owner)

end PoolRefresh

end JobEngine
