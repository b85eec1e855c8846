import JobEngine.Job.Definition
/-! When a job fires. A repeating schedule has its slots at whole multiples of the interval after
its start, and slots that have passed are skipped. -/

namespace JobEngine

inductive Schedule where
  | once (t : Instant)
  | every (interval : Duration) (startAt : Instant)
  deriving DecidableEq

namespace Schedule

def firstFire : Schedule → Instant
  | .once t => t
  | .every _ startAt => startAt

/-- The number of whole intervals from one instant to the first slot after another. -/
def slotsUntil (step : Nat) (previous now : Instant) : Int :=
  (now.nanos - previous.nanos) / step + 1

/-- The first slot after both the previous one and the present. There is none when the interval is
zero or too long to add to an instant, or when the slot would leave the calendar. -/
def nextFireAfter (s : Schedule) (previous now : Instant) : Option Instant :=
  match s with
  | .once _ => none
  | .every interval _ =>
    if interval.isZero || !interval.isOffset then none
    else do
      let next ← previous.shift? interval.nanos
      if now < next then some next
      else previous.shift? (interval.nanos * slotsUntil interval.nanos previous now)

/-- The slots to come, each sought after the one before, up to a number of them; the first that is
missing ends the list. -/
def upcoming (s : Schedule) (now : Instant) : Nat → Instant → List (Option Instant)
  | 0, _ => []
  | n + 1, previous =>
    match s.nextFireAfter previous now with
    | none => [none]
    | some t => some t :: s.upcoming now n t

end Schedule

structure Trigger where
  schedule : Schedule
  data : TriggerData := Dict.empty

end JobEngine
