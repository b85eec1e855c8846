import JobEngine.Event.Basic
/-! The events of one run. They wait until the outcome of the run is known, and then all go out as
one batch or none does. -/

namespace JobEngine

structure PublishError where
  sent : Nat
  reason : String
  deriving DecidableEq

def PublishError.message (e : PublishError) : String :=
  "event publication failed after " ++ toString e.sent ++ " event(s): " ++ e.reason

/-- The events that wait, in the order in which they were queued. -/
abbrev Outbox := List OutboundEvent

namespace Outbox

/-- Sends everything that waits. The outbox is empty afterwards, also on failure. -/
def send (bus : EventBus σ OutboundEvent) (pending : Outbox) : Act σ (Except PublishError Nat) := do
  if pending.isEmpty then return .ok 0
  match ← bus.publishBatch pending with
  | .error e => return .error { sent := e.sent, reason := e.reason }
  | .ok sent =>
    Act.log .events .debug "flushed outbound events" [("sent", .int sent)]
    return .ok sent

/-- Drops everything that waits and says how much it was. -/
def discard (pending : Outbox) : Act σ Nat := do
  if pending.length > 0 then
    Act.log .events .warn "discarded outbound events" [("dropped", .int pending.length)]
  return pending.length

end Outbox

end JobEngine
