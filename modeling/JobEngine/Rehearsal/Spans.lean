import JobEngine.Job.Run
import JobEngine.Rehearsal.Request
/-! Walks through nested spans, with a line of every level written at each depth on the way in and
on the way out. What passes shows how the levels of spans widen the base filter. -/

namespace JobEngine

inductive SpanRequest where
  /-- The span of a job run. -/
  | run (job : String) (tenant logLevel : Option String)
  /-- A span that carries the level field with this value. -/
  | carrying (name : String) (value : Log.Value)
  /-- A span that declares the level field and gets its value only later. -/
  | late (value : String)
  | plain (note : String)

def SpanRequest.build : SpanRequest → Request σ Log.NewSpan
  | .run job tenant logLevel => do
    let tenant ← Request.given Request.tenant tenant
    let logLevel ← Request.given (fun l => Request.check .level (Level.ofText l)) logLevel
    let runId ← Request.act Act.freshId
    return ExecutionContext.span { jobId := job, runId, tenant, logLevel }
  | .carrying name value =>
    return {
      kind := { name, origin := "", declared := [Log.overrideField] }
      values := [(Log.overrideField, value)] }
  | .late value =>
    return {
      kind := { name := "late", origin := "", declared := [Log.overrideField, "other"] }
      later := [[("other", .str "trace")], [(Log.overrideField, .str value)]] }
  | .plain note =>
    return {
      kind := { name := "plain", origin := "", declared := ["note"] }
      values := [("note", .str note)] }

namespace SpanWalk

def levels : List (Level × String) :=
  [(.error, "e"), (.warn, "w"), (.info, "i"), (.debug, "d"), (.trace, "t")]

def writeAll (depth : Nat) (j : Journal) : Journal :=
  levels.foldl (fun j l => j.write "" l.1 l.2 [("depth", .int depth)]) j

/-- Writes, enters the first span and walks on, leaves it and writes again. -/
def walk (depth : Nat) (j : Journal) : List Log.NewSpan → Journal
  | [] => writeAll depth j
  | s :: rest =>
    writeAll (depth + 100) (walk (depth + 1) ((writeAll depth j).enterNew s) rest).leave

/-- The lines that pass a base filter, in order. -/
def run (base : Filter) (spans : List SpanRequest) : Request σ (List Log.Line) := do
  let spans ← spans.mapM SpanRequest.build
  return (walk 0 { base } spans).lines.reverse

end SpanWalk

end JobEngine
