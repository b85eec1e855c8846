import JobEngine.Json.Fields
import JobEngine.Rehearsal.Calls
import JobEngine.Job.Retry
/-! Requests and calls as they are written in JSON. A time is a pair of seconds and nanoseconds, or
the word `now`. -/

namespace JobEngine.Reading

def duration : Json → Option Duration
  | .arr [s, n] => do Duration.ofParts? (← s.nat?) (← n.nat?)
  | _ => none

def instant : Json → Option Instant
  | .arr [s, n] => do Instant.ofParts? (← s.int?) (← n.nat?)
  | _ => none

/-- The present or a fixed time. -/
def moment : Json → Option When
  | .str "now" => some .now
  | j => (instant j).map .fixed

def row (j : Json) : Option RowRequest := do
  some {
    id := ← j.need "id" Json.text?
    kind := ← j.givenOr "kind" Json.text? "k"
    triggered := ← j.givenOr "triggered" Json.bool? true
    state := ← j.given "state" Json.text?
    owner := ← j.given "owner_id" Json.text?
    result := ← j.given "result" Json.text?
    attempts := ← j.givenOr "attempts" Json.nat? 0
    createdAt := ← j.givenOr "created_at" moment .now
    updatedAt := ← j.givenOr "updated_at" moment .now
    startedAt := ← j.given "started_at" moment
    finishedAt := ← j.given "finished_at" moment }

def jobRequest (j : Json) : Option JobRequest := do
  let source ←
    match ← j.given "refresh" Json.text? with
    | some owner => pure (.refresh owner (← j.givenOr "lazy" Json.bool? false))
    | none => pure (.kind (← j.need "kind" Json.text?))
  some {
    source
    key := ← j.given "key" Json.text?
    data := ← j.givenOr "data" Json.bindings? []
    owner := ← j.given "owner" Json.text? }

def trigger (j : Json) : Option TriggerRequest := do
  let data ← j.givenOr "data" Json.bindings? []
  match ← j.given "once" moment with
  | some start => some { interval := none, start, data }
  | none =>
    let interval ← j.need "every" duration
    some { interval := some interval, start := ← j.need "from" moment, data }

def update (j : Json) : Option UpdateRequest := do
  match ← j.given "to" Json.text? with
  | some "running" => some (.known (.running (← j.need "attempt" Json.nat?)))
  | some "finished" => some (.known .finished)
  | some "failed" => some (.known (.failed (← j.need "message" Json.text?)))
  | some "refire" => some (.known (.refire (← j.need "message" Json.text?)))
  | some "cancelled" => some (.known .cancelled)
  | some _ => none
  | none =>
    let state ← j.need "state" Json.text?
    some (.fields state (← j.given "result" Json.text?) (← j.given "attempt" Json.nat?))

def query (j : Json) : Option QueryRequest := do
  some {
    owner := ← j.given "owner" Json.text?
    state := ← j.given "state" Json.text?
    kind := ← j.given "kind" Json.text?
    limit := ← j.given "limit" Json.nat? }

def event (j : Json) : Option EventRequest := do
  some {
    eventType := ← j.need "type" Json.text?
    target := ← j.need "target" Json.text?
    payload := (j.field? "payload").getD .null
    tenant := ← j.given "tenant" Json.text? }

/-- A strategy with both its delays, the immediate one, or else one delay for every attempt. -/
def backoff (j : Json) : Option Backoff := do
  let base ← j.givenOr "base" duration Duration.zero
  let cap ← j.givenOr "max" duration Duration.zero
  match ← j.need "strategy" Json.text? with
  | "immediate" => some Backoff.immediate
  | "exponential" => some { strategy := .exponential, base, cap }
  | "linear" => some { strategy := .linear, base, cap }
  | "fixed" => some { strategy := .fixed, base, cap }
  | _ => some (Backoff.constant base)

def policy (j : Json) : Option RetryPolicy := do
  let base ←
    match j.field? "max_retries" with
    | none | some .null => some RetryPolicy.default
    | some (.str "unlimited") => some RetryPolicy.unlimited
    | some (.str "none") => some RetryPolicy.noRetry
    | some v => v.int?.map fun n => { maxRetries := n }
  some { base with backoff := ← j.givenOr "backoff" backoff base.backoff }

def failureKind : Json → Option FailureKind
  | .str "conflict" => some .persistenceConflict
  | .str "retry" => some .explicitRetry
  | .str "fatal" => some .fatal
  | _ => none

/-- A failure of the named kind; a plain fatal one for any other word. -/
def jobError (kind message : String) : JobError :=
  match kind with
  | "conflict" => .conflict message
  | "retry" => .retry message
  | "fatal_chain" =>
    .fatal { text := "top: " ++ message, beneath := ["mid: " ++ message, "root: " ++ message] }
  | _ => .fatalText message

def ledgerCall (j : Json) : Option LedgerCall := do
  let key := j.need "key" Json.text?
  match ← j.need "do" Json.text? with
  | "create" => some (.create (← row j))
  | "get" => some (.get (← key))
  | "merge" => some (.merge (← row j))
  | "transition" => some (.transition (← key) (← update j))
  | "cancel" => some (.cancel (← key))
  | "list" => some (.list (← query j))
  | "ids" => some (.ids (← query j))
  | "stats" => some (.stats (← j.given "owner" Json.text?))
  | "count" => some (.count (← j.need "entry" Json.text?) (← j.given "owner" Json.text?))
  | _ => none

def history (j : Json) : Option HistoryRequest := do
  some {
    entry := ← j.need "entry" Json.text?
    owner := ← j.given "owner" Json.text?
    limit := ← j.need "limit" Json.nat? }

def statistic (j : Json) : Option StatisticRequest := do
  some {
    entry := ← j.need "entry" Json.text?
    value := ← j.need "value" Json.int?
    owner := ← j.given "owner" Json.text?
    percentage := ← j.givenOr "percentage" Json.bool? false
    recordedAt := ← j.givenOr "recorded_at" moment .now }

def poolCall (j : Json) : Option (String × PoolCall) := do
  let owner ← j.need "owner" Json.text?
  match ← j.given "ids" (Json.list? Json.text?) with
  | some ids => some (owner, .assign ids)
  | none =>
    match ← j.need "do" Json.text? with
    | "refresh" => some (owner, .refresh (← j.givenOr "lazy" Json.bool? false))
    | "pools" => some (owner, .pools)
    | "generation" => some (owner, .generation)
    | "advance" => some (owner, .advance)
    | _ => none

end JobEngine.Reading
