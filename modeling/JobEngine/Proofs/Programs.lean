import JobEngine.Proofs.Columns
/-! What the programs of the ledger do to a table of rows, when no statement fails but by its own
doing. Each has one equation: its answer, and the rows that are there afterwards. -/

namespace JobEngine

variable {ε α β : Type}

namespace Connection

def fresh (d : Database) (time : Instant) : Connection := { database := d, time }

def inside (d : Database) (time : Instant) (writes : List Write) : Connection :=
  { database := d, session := { transaction := some { writes }, depth := 1 }, time }

end Connection

def Statement.isPlain : Statement → Bool
  | .begin | .commit | .rollback | .savepoint | .releaseSavepoint | .rollbackToSavepoint => false
  | _ => true

namespace Database

/-- No statement is made to fail, and no answer is tampered with. -/
structure Quiet (d : Database) : Prop where
  faults : d.faults = []
  nullColumn : d.nullColumn = none

def write (d : Database) (writes : List Write) : Database :=
  { d with tables := Connection.applyAll writes d.tables }

theorem Quiet.write {d : Database} (h : d.Quiet) (writes : List Write) : (d.write writes).Quiet :=
  ⟨h.faults, h.nullColumn⟩

end Database

namespace Connection

variable {d : Database} {time : Instant} {s : Statement} {writes : List Write}

theorem serve_quiet {c : Connection} (quiet : c.database.Quiet) (live : c.isAborted = false)
    (s : Statement) : c.serve s = c.perform s := by
  unfold serve
  rw [live, quiet.faults]
  rfl

theorem perform_plain (hs : s.isPlain) (c : Connection) :
    c.perform s = match c.view.answer c.time s with
      | .error e => (.error e, c.afterFailure s)
      | .ok (reply, writes) =>
        (.ok (match c.database.nullColumn with
          | none => reply
          | some column => reply.nulled column), c.keep writes) := by
  cases s <;> first | rfl | cases hs

theorem execute_fresh (quiet : d.Quiet) (hs : s.isPlain) :
    (fresh d time).execute s = match d.tables.answer time s with
      | .error e => (.error e, fresh d time)
      | .ok (reply, writes) => (.ok reply, fresh (d.write writes) time) := by
  have hserve : (fresh d time).execute s = (fresh d time).serve s := rfl
  rw [hserve, serve_quiet quiet rfl, perform_plain hs]
  change (match d.tables.answer time s with
    | .error e => _
    | .ok (reply, writes) => _) = _
  cases d.tables.answer time s with
  | error e => cases s <;> rfl
  | ok r =>
    change (Except.ok (match d.nullColumn with
      | none => r.1
      | some column => r.1.nulled column), _) = _
    rw [quiet.nullColumn]
    rfl

theorem execute_inside (quiet : d.Quiet) (hs : s.isPlain) {reply : Reply} {more : List Write}
    (hanswer : (d.write writes).tables.answer time s = .ok (reply, more)) :
    (inside d time writes).execute s = (.ok reply, inside d time (writes ++ more)) := by
  have hserve : (inside d time writes).execute s = (inside d time writes).serve s := rfl
  have hview : (inside d time writes).view.answer (inside d time writes).time s =
      .ok (reply, more) := hanswer
  rw [hserve, serve_quiet quiet rfl, perform_plain hs, hview]
  change (Except.ok (match d.nullColumn with
    | none => reply
    | some column => reply.nulled column), _) = _
  rw [quiet.nullColumn]
  rfl

private theorem serve_begin (d : Database) (time : Instant) :
    (fresh d time).serve .begin = match StatementFault.strike .begin d.faults with
      | some (e, faults) => (.error e, fresh { d with faults } time)
      | none => (.ok .done, (fresh d time).withTransaction fun _ => some {}) := rfl

private theorem flush_queue (d : Database) (time : Instant) (s : Statement) :
    ((fresh d time).queue s).flush =
      (let r := (fresh d time).serve s
      { r.2 with session.unread := r.2.session.unread ++
          [match r.1 with
            | .ok _ => none
            | .error e => some e] }) := rfl

private theorem settle_begin (d : Database) (time : Instant) :
    ((fresh d time).queue .begin).settle =
      match StatementFault.strike .begin d.faults with
      | some (e, faults) => (.error e, fresh { d with faults } time)
      | none => (.ok (), (fresh d time).withTransaction fun _ => some {}) := by
  unfold settle
  rw [flush_queue, serve_begin]
  cases StatementFault.strike .begin d.faults <;> rfl

theorem begin_eq (d : Database) (time : Instant) :
    (fresh d time).begin = match StatementFault.strike .begin d.faults with
      | some (e, faults) => (.error e, fresh { d with faults } time)
      | none => (.ok (), inside d time []) := by
  have hdepth : (fresh d time).session.depth = 0 := rfl
  simp only [begin, hdepth, ↓reduceIte, settle_begin]
  cases StatementFault.strike .begin d.faults <;> rfl

@[simp] theorem begin_fresh (quiet : d.Quiet) :
    (fresh d time).begin = (.ok (), inside d time []) := by
  rw [begin_eq, quiet.faults]
  rfl

private theorem close_inside {whole nested : Statement} {last : Connection}
    (hserve : (inside d time writes).serve whole = (.ok .done, last)) :
    close whole nested (inside d time writes) = (.ok (), last.withDepth 0) := by
  have hdepth : (inside d time writes).session.depth = 0 + 1 := rfl
  have hexecute : (inside d time writes).execute whole = (.ok .done, last) := hserve
  simp only [close, hdepth, ↓reduceIte, hexecute]

@[simp] theorem commit_inside (quiet : d.Quiet) :
    (inside d time writes).commit = (.ok (), fresh (d.write writes) time) := by
  have hserve : (inside d time writes).serve .commit =
      (.ok .done, (inside d time writes).settleWrites) := serve_quiet quiet rfl _
  exact close_inside hserve

@[simp] theorem rollback_inside (quiet : d.Quiet) :
    (inside d time writes).rollback = (.ok (), fresh d time) := by
  have hserve : (inside d time writes).serve .rollback =
      (.ok .done, (inside d time writes).withTransaction fun _ => none) := serve_quiet quiet rfl _
  exact close_inside hserve

@[simp] private theorem abandon_inside (quiet : d.Quiet) :
    (inside d time writes).abandon.leave = d := by
  have hserve : ((inside d time writes).withDepth 0).serve .rollback = (.ok .done, fresh d time) :=
    serve_quiet quiet rfl _
  have hleave : (inside d time writes).abandon.leave =
      (((inside d time writes).withDepth 0).serve .rollback).2.database := rfl
  rw [hleave, hserve]
  rfl

end Connection

namespace Query

theorem run_bind (q : Query ε α) (f : α → Query ε β) (c : Connection) :
    (q >>= f).run.run c = match q.run.run c with
      | (.ok a, c') => (f a).run.run c'
      | (.error e, c') => (.error e, c') := by
  rw [ExceptT.run_bind, StateT.run_bind]
  generalize q.run.run c = ran
  obtain ⟨r, c'⟩ := ran
  cases r <;> rfl

@[simp] private theorem run_pure (a : α) (c : Connection) :
    (pure a : Query ε α).run.run c = (.ok a, c)
    := rfl

@[simp] theorem run_check (r : Except ε α) (c : Connection) : (check r).run.run c = (r, c) := by
  cases r <;> rfl

@[simp] theorem run_step (onError : DatabaseError → ε)
    (run : Connection → Except DatabaseError α × Connection) (c : Connection) :
    (step onError run).run.run c = ((run c).1.mapError onError, (run c).2) := by
  have hlift : (ExceptT.lift (run : StateM Connection _) : Query ε _).run.run c =
      (.ok (run c).1, (run c).2) := rfl
  unfold step
  rw [run_bind, hlift]
  cases (run c).1 <;> rfl

@[simp] theorem run_result (q : Query ε α) (c : Connection) :
    (result q).run.run c = (.ok (q.run.run c).1, (q.run.run c).2) := rfl

/-- A program on a connection of its own: what it answers, and the database that it leaves. -/
def on (q : Query ε α) (d : Database) (time : Instant) : Except ε α × Database :=
  let r := q.run.run (.fresh d time)
  (r.1, r.2.leave)

section

variable {d : Database} {time : Instant} {onError : String → DatabaseError → ε}
variable {body : Query ε (Except ε α)} {writes : List Write} (quiet : d.Quiet)

include quiet

theorem atomically_ok {a : α}
    (hbody : body.run.run (.inside d time []) = (.ok (.ok a), .inside d time writes)) :
    (atomically onError body).on d time = (.ok a, d.write writes) := by
  unfold on atomically
  rw [run_bind, run_step, Connection.begin_fresh quiet]
  simp only [Except.mapError, run_bind, run_result, hbody, run_step,
    Connection.commit_inside quiet, run_pure, run_check]
  rfl

theorem atomically_refused {e : ε}
    (hbody : body.run.run (.inside d time []) = (.ok (.error e), .inside d time writes)) :
    (atomically onError body).on d time = (.error e, d) := by
  unfold on atomically
  rw [run_bind, run_step, Connection.begin_fresh quiet]
  simp only [Except.mapError, run_bind, run_result, hbody, run_step,
    Connection.rollback_inside quiet, run_pure, run_check]
  rfl

theorem atomically_failed {e : ε}
    (hbody : body.run.run (.inside d time []) = (.error e, .inside d time writes)) :
    (atomically onError body).on d time = (.error e, d) := by
  have hgiven : (atomically onError body).run.run (.fresh d time) =
      (.error e, (Connection.inside d time writes).abandon) := by
    unfold atomically
    rw [run_bind, run_step, Connection.begin_fresh quiet]
    simp only [Except.mapError, run_bind, run_result, hbody]
    rfl
  unfold on
  simp only [hgiven, Connection.abandon_inside quiet]

end

end Query

end JobEngine
