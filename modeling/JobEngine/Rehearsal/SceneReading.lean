import JobEngine.Rehearsal.Reading
import JobEngine.Rehearsal.Scene
import JobEngine.Rehearsal.Spans
import JobEngine.Text.Quoted
/-! Scripts and scenes as they are written in JSON. -/

namespace JobEngine.Reading

def action (j : Json) : Option Action := do
  let key ← j.given "key" Json.text?
  match ← j.need "do" Json.text? with
  | "emit" => some (.emit (← event j))
  | "fail" =>
    let message ← j.givenOr "message" Json.text? "failed"
    some (.fail (jobError (← j.need "kind" Json.text?) message))
  | "panic" =>
    match ← j.given "payload" Json.text? with
    | some "static" => some (.panic "static text")
    | some "int" => some (.panic "non-string panic payload")
    | _ => some (.panic (← j.givenOr "message" Json.text? "failed"))
  | "echo" => some .echo
  | "log" => some (.log (← j.givenOr "message" Json.text? ""))
  | "state" => some (.state key)
  | "ledger_create" => some (.createRow key)
  | "transition" => some (.transition key (← update j))
  | "cancel" => some (.cancel key)
  | "uow" => some (.unit (← j.need "call" Json.text?))
  | "delete" => some (.delete key)
  | "trigger" => some (.trigger key (← j.givenOr "data" Json.bindings? []))
  | "add_job" => some (.addJob (← jobRequest j) (← j.givenOr "replace" Json.bool? false))
  | word => some (.unknown word)

def cue (j : Json) : Option Cue := do
  some {
    action := ← action j
    below := ← j.given "below" Json.nat?
    onward := ← j.given "from" Json.nat? }

def counts (j : Json) : Option (List (String × Nat)) :=
  j.fields?.bind (·.mapM fun e => e.2.nat?.map (e.1, ·))

/-- The names of entries may be unknown, which is told apart from a script that cannot be read. -/
def jobScript (j : Json) : Option (Except UnknownName JobScript) := do
  match ← j.given "builtin" Json.text? with
  | some "refresh_pools" => some (.ok .refreshPools)
  | some "statistics" =>
    let entries ← j.given "entries" (Json.list? Json.text?)
    let counts ← j.givenOr "counts" counts []
    some do
      let entries ← (entries.map (·.mapM EntryType.ofName)).getD (.ok EntryType.all)
      let counts ← counts.mapM fun c => (EntryType.ofName c.1).map (·, c.2)
      return .statistics entries counts
  | some _ => none
  | none =>
    some (.ok (.scripted {
      name := ← j.givenOr "name" Json.text? "script"
      body := ← j.givenOr "body" (Json.list? cue) []
      classify := ← j.given "classify" failureKind
      logsTime := ← j.givenOr "log_time" Json.bool? true
      schedulable := ← j.givenOr "schedulable" Json.bool? true
      plain := ← j.givenOr "defaults" Json.bool? false }))

def listener : Json → Option ListenerScript
  | .str "status" => some .status
  | j => do
    let vetoes ← j.givenOr "veto" (Json.list? Json.text?) []
    some (.noting (← j.need "name" Json.text?) vetoes)

def bus (j : Json) : Option FragileBus := do
  some {
    broadcast := { historyLimit := ← j.given "history_limit" Json.nat? }
    left := ← j.given "fail_after" Json.nat? }

def scene (j : Json) : Option (Except UnknownName Scene) := do
  let config : HarnessConfig := {
    maxRetries := ← j.givenOr "max_retries" Json.int? RetryPolicy.defaultMaxRetries
    refireDelay := Duration.ofMillis (← j.givenOr "refire_delay_ms" Json.nat? 0) }
  let policy ← j.givenOr "policy" policy config.retryPolicy
  let bus ← j.givenOr "bus" bus {}
  let unit ← j.given "uow" Json.text?
  let hasRequestScope ← j.givenOr "request_scope" Json.bool? false
  let handlers ← j.givenOr "handlers"
    (Json.list? fun h => do some ((← h.need "pattern" Json.text?), (← jobScript h))) []
  let listeners ← j.givenOr "listeners" (Json.list? listener) [.status]
  some do
    let handlers ← handlers.mapM fun h => h.2.map (h.1, ·)
    return {
      policy, bus, hasRequestScope, handlers, listeners
      unitDiscards := unit.map (· == "traced") }

def step (j : Json) : Option Step := do
  let key := j.need "key" Json.text?
  match ← j.need "do" Json.text? with
  | "register" => some (.register (← jobRequest j) (← j.given "trigger" trigger))
  | "submit" => some (.submit (← jobRequest j))
  | "sched_schedule" => some (.schedule (← jobRequest j) (← j.need "trigger" trigger))
  | "add_job" => some (.addJob (← jobRequest j) (← j.givenOr "replace" Json.bool? false))
  | "trigger" => some (.trigger (← key) (← j.givenOr "data" Json.bindings? []))
  | "delete" => some (.delete (← key))
  | "match" => some (.matchKey (← j.need "listener" Json.text?) (← key))
  | "add_listener" => some (.addListener (← j.need "listener" listener))
  | "fire" => some .fire
  | "run_due" => some (.runDue (← j.need "max" Json.nat?))
  | "run_job" =>
    let data ← j.givenOr "trigger_data" Json.bindings? []
    some (.runJob (← jobRequest j) (← j.givenOr "attempt" Json.nat? 0) data)
  | "pending" => some .pending
  | "contains" => some (.contains (← key))
  | "policy" => some .policy
  | "published" => some .published
  | "subscribe" => some .subscribe
  | "drain" => some (.drain (← j.need "sub" Json.nat?))
  | "next_due" => some .nextDue
  | "fault" =>
    let message ← j.givenOr "message" Json.text? "injected"
    some (.fault (← j.need "what" Json.text?) message (← j.givenOr "times" Json.nat? 1))
  | "ledger" => some (.ledger (← j.need "op" ledgerCall))
  | "pools" => do
    let (owner, call) ← j.need "op" poolCall
    some (.pools owner call)
  | "history" => some (.history (← history j))
  | "uow" => some (.unit (← j.need "call" Json.text?))
  | "execute" => some (.execute (← j.need "expect" Json.nat?))
  | _ => none

def span (j : Json) : Option SpanRequest := do
  let level := j.givenOr "level" Json.text? ""
  match ← j.need "span" Json.text? with
  | "run" =>
    let tenant ← j.given "tenant" Json.text?
    some (.run (← j.need "job_id" Json.text?) tenant (← j.given "level" Json.text?))
  | "str" => some (.carrying "str" (.str (← level)))
  | "debug" => some (.carrying "debug" (.shown (Text.quoted (← level))))
  | "late" => some (.late (← level))
  | "plain" => some (.plain (← level))
  | _ => none

end JobEngine.Reading
