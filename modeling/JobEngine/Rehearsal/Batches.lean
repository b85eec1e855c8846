import JobEngine.Rehearsal.Calls
import JobEngine.Rehearsal.Stage
/-! Calls on an outbox and its bus, and on a statistic store of its own, as data. -/

namespace JobEngine

structure OutboxStage where
  bus : FragileBus := {}
  pending : Outbox := []

inductive OutboxCall where
  | queue (event : EventRequest)
  | send
  | discard
  | pending
  | published

namespace OutboxStage

def busPart : Part OutboxStage FragileBus := ⟨(·.bus), fun b s => { s with bus := b }⟩

/-- Empties the outbox and gives what was in it. -/
def takeAll : Act OutboxStage Outbox := do
  let pending := (← Act.app).pending
  Act.modifyApp fun s => { s with pending := [] }
  return pending

def play : OutboxCall → Trial OutboxStage Answer
  | .queue event => do
    let e ← Trial.build event.build
    Trial.act (Act.modifyApp fun s => { s with pending := s.pending ++ [e] })
    return .number (← Trial.act Act.app).pending.length
  | .send => do
    let pending ← Trial.act takeAll
    return .number (← Trial.orRefuse .publish (pending.send (FragileBus.service busPart)))
  | .discard => do return .number (← Trial.act (do (← takeAll).discard))
  | .pending => do return .number (← Trial.act Act.app).pending.length
  | .published => do return .events (← Trial.act Act.app).bus.broadcast.history

end OutboxStage

structure StatisticStage where
  store : MemoryStatistics := {}
  made : List Statistic := []

inductive StatisticCall where
  | record (request : StatisticRequest)
  /-- Records a statistic once more, by its place among all that were made. -/
  | again (n : Nat)
  | history (request : HistoryRequest)
  | size

namespace StatisticStage

def storePart : Part StatisticStage MemoryStatistics :=
  ⟨(·.store), fun t s => { s with store := t }⟩

def service : StatisticStore StatisticStage := MemoryStatistics.service storePart

def play : StatisticCall → Trial StatisticStage Answer
  | .record request => do
    let statistic ← Trial.build request.counted
    let n := (← Trial.act Act.app).made.length
    Trial.act (Act.modifyApp fun s => { s with made := s.made ++ [statistic] })
    Trial.orRefuse .statistic (service.record statistic)
    return .number n
  | .again n => do
    if let some statistic := (← Trial.act Act.app).made[n]? then
      Trial.orRefuse .statistic (service.record statistic)
    return .number n
  | .history request => request.run service
  | .size => do return .size (← Trial.act (storePart.read (·.size)))

end StatisticStage

end JobEngine
