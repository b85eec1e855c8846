import JobEngine.Data.Assoc
import JobEngine.Event.Basic
/-! A bus in memory. Every live subscription gets a copy of every message published after it began,
and the bus keeps a history that may be capped. -/

namespace JobEngine

structure Broadcast (μ : Type) where
  historyLimit : Option Nat := none
  history : List μ := []
  /-- How many subscriptions there have been. -/
  subscribed : Nat := 0
  /-- Whom messages are sent to. One that has ended stays among them until a message is sent. -/
  audience : List Nat := []
  /-- What waits in each subscription that has not ended. -/
  queues : Assoc Nat (List μ) := []

namespace Broadcast

/-- Sends a message to a subscription, unless that has ended. -/
def send? (m : μ) (id : Nat) (queues : Assoc Nat (List μ)) : Option (Assoc Nat (List μ)) :=
  (queues.get? id).map fun waiting => queues.put id (waiting ++ [m])

/-- Sends a message to each of these, and keeps those whom it reached. -/
def sendAll (m : μ) : List Nat → Assoc Nat (List μ) → List Nat × Assoc Nat (List μ)
  | [], queues => ([], queues)
  | id :: rest, queues =>
    match send? m id queues with
    | none => sendAll m rest queues
    | some sent =>
      let r := sendAll m rest sent
      (id :: r.1, r.2)

/-- Sends a message to the audience and notes it in the history. -/
def spread (b : Broadcast μ) (m : μ) : Broadcast μ :=
  let r := sendAll m b.audience b.queues
  { b with audience := r.1, queues := r.2, history := b.history ++ [m] }

/-- The last `limit` items. -/
def lastOf (limit : Nat) (items : List μ) : List μ := items.drop (items.length - limit)

/-- Drops the oldest of the history, down to its limit. -/
def trim (b : Broadcast μ) : Broadcast μ :=
  match b.historyLimit with
  | none => b
  | some limit => { b with history := lastOf limit b.history }

/-- Sends messages one after the other. The history is trimmed once they are all out. -/
def deliver (b : Broadcast μ) (messages : List μ) : Broadcast μ := (messages.foldl spread b).trim

def subscribe (b : Broadcast μ) : Nat × Broadcast μ :=
  (b.subscribed,
    { b with
      subscribed := b.subscribed + 1
      audience := b.audience ++ [b.subscribed]
      queues := b.queues.put b.subscribed [] })

/-- Takes everything that waits in a subscription. -/
def drain (b : Broadcast μ) (id : Nat) : List μ × Broadcast μ :=
  match b.queues.get? id with
  | none => ([], b)
  | some waiting => (waiting, { b with queues := b.queues.put id [] })

/-- Takes the message that has waited longest. -/
def receive (b : Broadcast μ) (id : Nat) : Option μ × Broadcast μ :=
  match b.queues.get? id with
  | some (m :: rest) => (some m, { b with queues := b.queues.put id rest })
  | _ => (none, b)

/-- Ends a subscription; what waits in it is gone. -/
def unsubscribe (b : Broadcast μ) (id : Nat) : Broadcast μ := { b with queues := b.queues.erase id }

/-- A batch reaches everyone whole. -/
def service (p : Part σ (Broadcast μ)) : EventBus σ μ where
  publish m := do
    p.modify (deliver · [m])
    return .ok ()
  publishBatch ms := do
    p.modify (deliver · ms)
    return .ok ms.length

end Broadcast

end JobEngine
