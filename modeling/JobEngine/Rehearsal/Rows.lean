import JobEngine.Rehearsal.Request
/-! Steps on a single row: moves of its state and updates. -/

namespace JobEngine

inductive RowStep where
  | move (state : String)
  | update (update : UpdateRequest)

/-- What a step came to. -/
inductive RowOutcome where
  /-- The state before the move. -/
  | moved (previous : JobState)
  | rejected (source target : JobState)
  | updated
  | refused (e : LedgerError)

namespace RowStep

def play (row : JobStatus) : RowStep → Request σ (RowOutcome × JobStatus)
  | .move state => do
    let state ← Request.state state
    match row.moveTo state (← Request.act Act.now) with
    | some next => return (.moved row.state, next)
    | none => return (.rejected row.state state, row)
  | .update request => do
    let update ← request.build
    match update.apply row (← Request.act Act.now) with
    | .ok next => return (.updated, next)
    | .error e => return (.refused e, row)

/-- Plays the steps in order; each comes with the row after it. -/
def playAll (row : JobStatus) : List RowStep → Request σ (List (RowOutcome × JobStatus))
  | [] => pure []
  | step :: rest => do
    let (outcome, next) ← step.play row
    return (outcome, next) :: (← playAll next rest)

end RowStep

end JobEngine
