import JobEngine.Data.Key
import JobEngine.Host
/-! Notifications that a job sends out, and what they travel over. A batch may fail part of the way;
then the failure says how many messages went out before. -/

namespace JobEngine

structure OutboundEvent where
  eventId : Uuid
  tenant : Option TenantKey
  eventType : String
  /-- What the event is about. -/
  target : String
  payload : Json
  occurredAt : Stamp

def OutboundEvent.create (eventType target : String) (payload : Json)
    (tenant : Option TenantKey := none) : Act σ OutboundEvent := do
  return {
    eventId := ← Act.freshId
    tenant, eventType, target, payload
    occurredAt := ← Act.now }

structure BatchFailure where
  sent : Nat
  reason : String
  deriving DecidableEq

structure EventBus (σ μ : Type) where
  publish : μ → Act σ (Except String Unit)
  /-- Publishes in order and says how many messages went out. -/
  publishBatch : List μ → Act σ (Except BatchFailure Nat)

namespace EventBus

/-- Publishes messages one at a time and stops at the first that fails. -/
def oneByOne (publish : μ → Act σ (Except String Unit)) (sent : Nat) :
    List μ → Act σ (Except BatchFailure Nat)
  | [] => pure (.ok sent)
  | m :: rest => do
    match ← publish m with
    | .error reason => return .error { sent, reason }
    | .ok () => oneByOne publish (sent + 1) rest

/-- A bus that can publish single messages only. -/
def ofPublish (publish : μ → Act σ (Except String Unit)) : EventBus σ μ :=
  { publish, publishBatch := oneByOne publish 0 }

end EventBus

end JobEngine
