import JobEngine.Text.Blank
/-! Severities of log lines, from the most severe to the most verbose. -/

namespace JobEngine

inductive Level where
  | error
  | warn
  | info
  | debug
  | trace
  deriving DecidableEq, Inhabited

structure UnknownLevel where
  given : String
  deriving DecidableEq

def UnknownLevel.message (e : UnknownLevel) : String := "unknown log level: " ++ e.given

namespace Level

def verbosity : Level → Nat
  | .error => 1
  | .warn => 2
  | .info => 3
  | .debug => 4
  | .trace => 5

/-- Whether a limit at `limit` lets a line of level `l` pass. -/
def within (l limit : Level) : Bool := l.verbosity ≤ limit.verbosity

def name : Level → String
  | .error => "ERROR"
  | .warn => "WARN"
  | .info => "INFO"
  | .debug => "DEBUG"
  | .trace => "TRACE"

/-- Reads a level in any case, its blanks trimmed; `all`, `warning` and `fatal` are other names. -/
def ofText (s : String) : Except UnknownLevel Level :=
  match Text.lowercase (Text.trim s) with
  | "trace" | "all" => .ok .trace
  | "debug" => .ok .debug
  | "info" => .ok .info
  | "warn" | "warning" => .ok .warn
  | "error" | "fatal" => .ok .error
  | _ => .error ⟨s⟩

def ofText? (s : String) : Option Level := (ofText s).toOption

@[simp] theorem ofText?_name (l : Level) : ofText? l.name = some l := by cases l <;> decide

end Level

end JobEngine
