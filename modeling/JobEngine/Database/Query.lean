import JobEngine.Database.Connection
/-! Programs that talk to the database over one connection. A failure ends the program; what it did
to the connection stays, and so has to be undone where it must not. -/

namespace JobEngine

abbrev Query (ε α : Type) := ExceptT ε (StateM Connection) α

namespace Query

variable {ε α : Type}

/-- Takes a step on the connection; its failure becomes an error of the program. -/
def step (onError : DatabaseError → ε)
    (run : Connection → Except DatabaseError α × Connection) : Query ε α := do
  match ← ExceptT.lift (run : StateM Connection _) with
  | .ok a => return a
  | .error e => throw (onError e)

def ask (onError : DatabaseError → ε) (s : Statement) : Query ε Reply :=
  step onError (Connection.execute s)

def check : Except ε α → Query ε α
  | .ok a => pure a
  | .error e => throw e

/-- What a program comes to, without ending the one around it. -/
def result (q : Query ε α) : Query ε (Except ε α) := ExceptT.lift q.run

/-- Runs a program in a transaction of its own, or inside a savepoint of the open one. What is
refused is rolled back; a transaction that could not be closed is given up. -/
def atomically (onError : String → DatabaseError → ε) (body : Query ε (Except ε α)) :
    Query ε α := do
  step (onError "begin_transaction") Connection.begin
  let closed ← result do
    let r ← body
    match r with
    | .ok _ => step (onError "commit_transaction") Connection.commit
    | .error _ => step (onError "rollback") Connection.rollback
    return r
  match closed with
  | .ok r => check r
  | .error e =>
    modify Connection.abandon
    throw e

end Query

end JobEngine
