import JobEngine.Event.Basic
import JobEngine.Job.Retry
import JobEngine.Job.Status
import JobEngine.Statistic.Basic
/-! The JSON form of the values that are stored or sent. A record is read from an object, where a
field that may be absent is then empty, or from an array of all its fields in their order; a plain
name may also stand as the only key of an object, over null. Keys are taken as they are. -/

namespace JobEngine.Codec

/-- The fields of a record in order, and whether each may be absent. -/
abbrev Shape := List (String × Bool)

def readField (fields : List (String × Json)) (name : String) (optional : Bool) : Option Json :=
  match (fields.find? (·.1 == name)).map (·.2) with
  | some v => some v
  | none => if optional then some .null else none

def record (shape : Shape) : Json → Option (List Json)
  | .obj fields => shape.mapM fun f => readField fields f.1 f.2
  | .arr items => if items.length = shape.length then some items else none
  | _ => none

/-- All fields of a record in order. -/
def ofRecord (shape : Shape) (values : List Json) : Json := .obj ((shape.map (·.1)).zip values)

def optional (read : Json → Option α) : Json → Option (Option α)
  | .null => some none
  | j => (read j).map some

/-- One of some names. -/
def named (ofName : String → Option α) : Json → Option α
  | .str s => ofName s
  | .obj [(s, .null)] => ofName s
  | _ => none

def integer (least greatest : Int) (j : Json) : Option Int :=
  j.int?.bind fun n => if least ≤ n ∧ n ≤ greatest then some n else none

/-- Numbers below a power of two. -/
def natural (bits : Nat) (j : Json) : Option Nat :=
  (integer 0 (twoTo bits - 1) j).map Int.toNat

def uuid (j : Json) : Option Uuid := j.text?.bind Uuid.ofText?

def ofUuid (u : Uuid) : Json := .str u.text

def stamp (j : Json) : Option Stamp := j.text?.bind Stamp.ofText?

def ofStamp (t : Stamp) : Json := .str t.text

def jobKey (j : Json) : Option JobKey := j.text?.map JobKey.mk

def tenantKey (j : Json) : Option TenantKey := j.text?.map TenantKey.mk

def ofTenant (t : Option TenantKey) : Json := Json.ofOption (fun t => .str t.text) t

def jobState : Json → Option JobState := named fun s => (JobState.ofName s).toOption

def entryType : Json → Option EntryType := named fun s => (EntryType.ofName s).toOption

def valueType : Json → Option ValueType := named fun s => (ValueType.ofName s).toOption

def strategies : List BackoffStrategy := [.fixed, .linear, .exponential]

def strategy : Json → Option BackoffStrategy := named fun s => strategies.find? (·.name = s)

def triggerData : Json → Option TriggerData
  | .obj fields => do
    let bindings ← fields.mapM fun f => f.2.text?.map (f.1, ·)
    some (Dict.ofList bindings)
  | _ => none

def ofTriggerData (d : TriggerData) : Json := .obj (d.entries.map fun e => (e.1, .str e.2))

def durationShape : Shape := [("secs", false), ("nanos", false)]

/-- A duration has no fields but its own; nanoseconds beyond a second are carried over. -/
def duration (j : Json) : Option Duration :=
  let known := (j.fields?.getD []).all fun f => f.1 == "secs" || f.1 == "nanos"
  if known then
    match record durationShape j with
    | some [secs, nanos] => do Duration.ofParts? (← natural 64 secs) (← natural 32 nanos)
    | _ => none
  else none

def ofDuration (d : Duration) : Json :=
  ofRecord durationShape [.int d.seconds, .int d.subsecond]

def backoffShape : Shape := [("strategy", false), ("base_delay", false), ("max_delay", false)]

def backoff (j : Json) : Option Backoff :=
  match record backoffShape j with
  | some [s, base, cap] => do
    some { strategy := ← strategy s, base := ← duration base, cap := ← duration cap }
  | _ => none

def ofBackoff (b : Backoff) : Json :=
  ofRecord backoffShape [.str b.strategy.name, ofDuration b.base, ofDuration b.cap]

def retryPolicyShape : Shape := [("max_retries", false), ("backoff", false)]

def retryPolicy (j : Json) : Option RetryPolicy :=
  match record retryPolicyShape j with
  | some [most, b] => do
    some { maxRetries := ← integer (-twoTo 31) (twoTo 31 - 1) most, backoff := ← backoff b }
  | _ => none

def ofRetryPolicy (p : RetryPolicy) : Json :=
  ofRecord retryPolicyShape [.int p.maxRetries, ofBackoff p.backoff]

def jobStatusShape : Shape :=
  [("id", false), ("kind", false), ("state", false), ("triggered", false), ("owner_id", true),
    ("result", true), ("attempts", false), ("created_at", false), ("updated_at", false),
    ("started_at", true), ("finished_at", true)]

def jobStatus (j : Json) : Option JobStatus :=
  match record jobStatusShape j with
  | some [id, kind, state, triggered, owner, result, attempts, created, updated, started,
      finished] => do
    some {
      id := ← jobKey id
      kind := ← kind.text?
      state := ← jobState state
      triggered := ← triggered.bool?
      owner := ← optional tenantKey owner
      result := ← optional Json.text? result
      attempts := ← natural 32 attempts
      createdAt := ← stamp created
      updatedAt := ← stamp updated
      startedAt := ← optional stamp started
      finishedAt := ← optional stamp finished }
  | _ => none

def ofJobStatus (s : JobStatus) : Json :=
  ofRecord jobStatusShape [.str s.id.text, .str s.kind, .str s.state.name, .bool s.triggered,
    ofTenant s.owner, Json.ofOption .str s.result, .int s.attempts, ofStamp s.createdAt,
    ofStamp s.updatedAt, Json.ofOption ofStamp s.startedAt, Json.ofOption ofStamp s.finishedAt]

def eventShape : Shape :=
  [("event_id", false), ("tenant", true), ("event_type", false), ("target", false),
    ("payload", false), ("occurred_at", false)]

def event (j : Json) : Option OutboundEvent :=
  match record eventShape j with
  | some [id, tenant, type, target, payload, occurred] => do
    some {
      eventId := ← uuid id
      tenant := ← optional tenantKey tenant
      eventType := ← type.text?
      target := ← target.text?
      payload
      occurredAt := ← stamp occurred }
  | _ => none

def ofEvent (e : OutboundEvent) : Json :=
  ofRecord eventShape [ofUuid e.eventId, ofTenant e.tenant, .str e.eventType, .str e.target,
    e.payload, ofStamp e.occurredAt]

def statisticShape : Shape :=
  [("id", false), ("entry_type", false), ("value_type", false), ("owner", true), ("value", false),
    ("recorded_at", false)]

def statistic (j : Json) : Option Statistic :=
  match record statisticShape j with
  | some [id, entry, type, owner, value, recorded] => do
    some {
      id := ← uuid id
      entryType := ← entryType entry
      valueType := ← valueType type
      owner := ← optional tenantKey owner
      value := ← integer (-twoTo 63) (twoTo 63 - 1) value
      recordedAt := ← stamp recorded }
  | _ => none

def ofStatistic (s : Statistic) : Json :=
  ofRecord statisticShape [ofUuid s.id, .str s.entryType.name, .str s.valueType.name,
    ofTenant s.owner, .int s.value, ofStamp s.recordedAt]

end JobEngine.Codec
