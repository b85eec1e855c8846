import JobEngine.Data.Uuid
import JobEngine.Log.Journal
import JobEngine.Time.Rfc3339
/-! The surroundings of everything that runs: a clock, a source of identifiers and the log, beside
the stores of the application. An action is a function on them, so every run is a value. -/

namespace JobEngine

structure Host (σ : Type) where
  /-- The last reading of the clock. -/
  clock : Instant
  /-- How many identifiers have been made. -/
  serial : Nat := 0
  journal : Journal := {}
  app : σ

abbrev Act (σ : Type) := StateM (Host σ)

/-- The part of the program that a line comes from. -/
inductive Component where
  | events
  | observability
  | jobs
  | tasks
  | infra
  | worker
  deriving DecidableEq

/-- The name under which base filters know the component. -/
def Component.origin : Component → String
  | .events => "jobwright_events"
  | .observability => "jobwright_observability"
  | .jobs => "jobwright_jobs"
  | .tasks => "jobwright_tasks"
  | .infra => "jobwright_infra"
  | .worker => "jobwright_worker"

namespace Act

variable {σ τ α : Type}

/-- How far apart two readings of the clock are at least. -/
def tick : Duration := Duration.clamp 1000

/-- Reads the clock; each reading is later than the one before. -/
def now : Act σ Instant := fun h =>
  let t := h.clock.plus tick
  (t, { h with clock := t })

/-- Lets time pass without anything happening. -/
def wait (d : Duration) : Act σ Unit := fun h => ((), { h with clock := h.clock.plus d })

def millis (t : Instant) : Nat := (t.nanos / 1000000).toNat

def freshId : Act σ Uuid := fun h =>
  (Uuid.timeOrdered (millis h.clock) h.serial, { h with serial := h.serial + 1 })

def log (c : Component) (l : Level) (message : String) (fields : Log.Fields := []) : Act σ Unit :=
  fun h => ((), { h with journal := h.journal.write c.origin l message fields })

def enterSpan (s : Log.NewSpan) : Act σ Unit :=
  fun h => ((), { h with journal := h.journal.enterNew s })

def leaveSpan : Act σ Unit := fun h => ((), { h with journal := h.journal.leave })

/-- Takes the lines that have been written, in order, off the log. -/
def drainLog : Act σ (List Log.Line) := fun h =>
  (h.journal.lines.reverse, { h with journal := { h.journal with lines := [] } })

/-- Does something away from the log: its lines and spans are not seen. -/
def unlogged (a : Act σ α) : Act σ α := fun h =>
  let r := a { h with journal := {} }
  (r.1, { r.2 with journal := h.journal })

def app : Act σ σ := fun h => (h.app, h)

def modifyApp (f : σ → σ) : Act σ Unit := fun h => ((), { h with app := f h.app })

end Act

/-- Where a store sits inside the application that holds it. -/
structure Part (σ τ : Type) where
  get : σ → τ
  put : τ → σ → σ

namespace Part

/-- Runs a step of the store in its place. -/
def run (p : Part σ τ) (step : τ → α × τ) : Act σ α := fun h =>
  let r := step (p.get h.app)
  (r.1, { h with app := p.put r.2 h.app })

/-- Reads something off the store. -/
def read (p : Part σ τ) (view : τ → α) : Act σ α := fun h => (view (p.get h.app), h)

def modify (p : Part σ τ) (f : τ → τ) : Act σ Unit := p.run fun t => ((), f t)

/-- The whole application as its own only store. -/
def whole : Part σ σ := ⟨id, fun t _ => t⟩

end Part

end JobEngine
