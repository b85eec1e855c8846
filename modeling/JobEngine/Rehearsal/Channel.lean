import JobEngine.Event.Broadcast
/-! Calls on a bus of numbers, as data. The bus is one in memory, or a transport over it that knows
single messages only and is full after a number of them. -/

namespace JobEngine

structure Channel where
  broadcast : Broadcast Int := {}
  /-- How many messages a full transport holds. -/
  capacity : Option Nat := none
  /-- Whether the bus is gone; what waits can still be received. -/
  isClosed : Bool := false

inductive ChannelCall where
  | publish (m : Int)
  | batch (ms : List Int)
  | subscribe
  | published
  | drain (subscription : Nat)
  | receive (subscription : Nat)
  | unsubscribe (subscription : Nat)
  | close

inductive ChannelAnswer where
  | nothing
  | number (n : Nat)
  | message (m : Int)
  | messages (ms : List Int)

inductive ChannelRefusal where
  | publish (reason : String)
  | batch (failure : BatchFailure)
  /-- Nothing waits, but something may still come. -/
  | empty
  | disconnected

namespace Channel

def broadcastPart : Part Channel (Broadcast Int) :=
  ⟨(·.broadcast), fun b c => { c with broadcast := b }⟩

def bus (c : Channel) : EventBus Channel Int :=
  let whole := Broadcast.service broadcastPart
  match c.capacity with
  | none => whole
  | some capacity => .ofPublish fun m => do
    if capacity ≤ (← broadcastPart.read (·.history.length)) then return .error "\"bus full\""
    whole.publish m

def play (call : ChannelCall) : Act Channel (Except ChannelRefusal ChannelAnswer) := do
  let c ← Act.app
  match call with
  | .publish m => return ((← c.bus.publish m).mapError .publish).map fun _ => .nothing
  | .batch ms => return ((← c.bus.publishBatch ms).mapError .batch).map .number
  | .subscribe => return .ok (.number (← broadcastPart.run (·.subscribe)))
  | .published => return .ok (.messages c.broadcast.history)
  | .drain id => return .ok (.messages (← broadcastPart.run (·.drain id)))
  | .receive id =>
    match ← broadcastPart.run (·.receive id) with
    | some m => return .ok (.message m)
    | none => return .error (if c.isClosed then .disconnected else .empty)
  | .unsubscribe id =>
    broadcastPart.modify (·.unsubscribe id)
    return .ok .nothing
  | .close =>
    Act.modifyApp fun c => { c with isClosed := true }
    return .ok .nothing

end Channel

end JobEngine
