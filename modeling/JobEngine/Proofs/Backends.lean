import JobEngine.Proofs.Atomicity
import JobEngine.Proofs.Listing
import JobEngine.Proofs.Refinement
import JobEngine.Worker
/-! The two kinds of stores that a worker can run on, seen as rows. Each answers a call by the rows
that it has and leaves the scheduler of the worker alone, and no call moves a row that is cancelled.
-/

namespace JobEngine

open StatusLedger (Command Response)

namespace JobStatus

variable {rows : List JobStatus} {row new : JobStatus}

theorem mem_replace {old : JobStatus} (distinct : (rows.map (·.id)).Nodup) (hrow : row ∈ rows)
    (hold : rows.find? (·.id = new.id) = some old) (hother : row ≠ old) :
    row ∈ replace rows new := by
  have hid : old.id = new.id := by simpa using List.find?_some hold
  refine List.mem_map.mpr ⟨row, hrow, if_neg fun hsame => hother ?_⟩
  exact List.inj_on_of_nodup_map distinct hrow (List.mem_of_find?_eq_some hold)
    (hsame.trans hid.symm)

private theorem find_of_mem (distinct : (rows.map (·.id)).Nodup) (hrow : row ∈ rows) :
    rows.find? (·.id = row.id) = some row := by
  cases hfind : rows.find? (·.id = row.id) with
  | none =>
    have hother : row.id ≠ row.id := by simpa using List.find?_eq_none.mp hfind row hrow
    exact absurd rfl hother
  | some found =>
    have hid : found.id = row.id := by simpa using List.find?_some hfind
    rw [List.inj_on_of_nodup_map distinct (List.mem_of_find?_eq_some hfind) hrow hid]

theorem replace_self (distinct : (rows.map (·.id)).Nodup) (hrow : row ∈ rows) :
    replace rows row = rows := by
  refine (List.map_congr_left fun r hr => ?_).trans (List.map_id rows)
  split
  next hsame => exact (List.inj_on_of_nodup_map distinct hr hrow hsame).symm
  · rfl

end JobStatus

theorem Served.keeps {reads : Instant → Prop} {rows rows' : List JobStatus} {call : Command}
    {answer : Except LedgerError Response} (served : Served reads rows call answer rows')
    (distinct : (rows.map (·.id)).Nodup) {row : JobStatus} (hrow : row ∈ rows)
    (cancelled : row.state = .cancelled) : row ∈ rows' := by
  have other : ∀ old : JobStatus, old.state ≠ .cancelled → row ≠ old :=
    fun old hstate hsame => hstate (hsame ▸ cancelled)
  cases served with
  | present | got | kept | missing | refused | listed | counted => exact hrow
  | created | added => exact List.mem_append_left _ hrow
  | @merged _ old _ _ _ hold hstate hmerged =>
    rw [hmerged]
    exact JobStatus.mem_replace distinct hrow hold (other old hstate)
  | @moved _ key u old _ _ _ _ _ hold hstate =>
    have hid : old.id = key := by simpa using List.find?_some hold
    refine JobStatus.mem_replace distinct hrow (hid ▸ hold) (other old fun hc => ?_)
    rw [hc] at hstate
    cases hstate

theorem JobStatus.initial_writable {definition : JobDefinition}
    (hkey : ∃ text, JobKey.ofText text = .ok definition.key) (triggered : Bool) (now : Instant) :
    (initial definition triggered now).Writable where
  key := hkey
  owner := fun o ho => by
    obtain ⟨raw, -, howner⟩ := Option.bind_eq_some_iff.mp ho
    cases hraw : TenantKey.ofText raw with
    | error e =>
      rw [hraw] at howner
      cases howner
    | ok o' =>
      rw [hraw] at howner
      cases howner
      exact ⟨raw, hraw⟩
  attempts := Nat.zero_le _

inductive Backend where
  | memory
  | database

namespace MemoryLedger

variable {α : Type} {l next : MemoryLedger} {a : α} {e : LedgerError}
variable {step : MemoryLedger → Except LedgerError (α × MemoryLedger)}

private theorem attempt_of_ok (hstep : step l = .ok (a, next)) :
    attempt step l = (.ok a, next) := by
  unfold attempt
  rw [hstep]

private theorem attempt_of_error (hstep : step l = .error e) : attempt step l = (.error e, l) := by
  unfold attempt
  rw [hstep]

end MemoryLedger

namespace DatabaseLedger

private theorem create_truncated {row : JobStatus} (h : row.Writable) :
    create row = create row.truncated := by
  unfold create
  rw [StatusRow.ofStatus_eq h, StatusRow.ofStatus_eq h.truncated, StatusRow.columns_truncated]
  rfl

end DatabaseLedger

namespace DatabasePool

variable {σ : Type} {q : Part σ DatabasePool} {thread : ThreadName}

/-- A call of the ledger is of the kind of the programs that it runs. -/
theorem ask_composes {C : {α : Type} → Act σ α → Prop} (kind : Composes C)
    (hcall : ∀ {ε α : Type} (noConnection : String → ε) (program : Query ε α),
      C (call q thread noConnection program)) (command : Command) :
    C ((ledger q thread).ask command) := by
  have htransition : ∀ key u, C ((ledger q thread).transition key u) := by
    intro key u
    apply kind.bind kind.now
    intro now
    apply kind.bind kind.now
    intro later
    apply kind.bind (hcall _ _)
    intro r
    cases r with
    | error e => exact kind.pure _
    | ok row => exact kind.bind (kind.log _ _ _ _) fun _ => kind.pure _
  cases command with
  | create row =>
    refine kind.bind (kind.bind (hcall _ _) fun r => ?_) fun _ => kind.pure _
    cases r with
    | error e => exact kind.pure _
    | ok x => exact kind.bind (kind.log _ _ _ _) fun _ => kind.pure _
  | get key => exact kind.bind (hcall _ _) fun _ => kind.pure _
  | merge row => exact kind.bind (hcall _ _) fun _ => kind.pure _
  | transition key u => exact kind.bind (htransition key u) fun _ => kind.pure _
  | cancel key => exact kind.bind (htransition key .cancelled) fun _ => kind.pure _
  | list wish => exact kind.bind (hcall _ _) fun _ => kind.pure _
  | stats owner => exact kind.bind (hcall _ _) fun _ => kind.pure _

private theorem held_run {ε α : Type} {p : DatabasePool} (free : p.held.get? thread = none)
    (time : Instant) (program : Query ε α) : (run thread time program.run p).2.held = p.held := by
  unfold run
  rw [free]
  simp only
  split <;> rfl

def opened : Session := { transaction := some {}, depth := 1 }

section

variable {p : DatabasePool} (quiet : p.database.Quiet) (time : Instant)

include quiet

theorem begin_free (free : p.held.get? thread = none) (isOpen : p.isClosed = false) :
    begin thread time p = (.ok (), { p with held := p.held.put thread opened }) := by
  have hidle : p.isActive thread = false := by
    unfold isActive Assoc.has
    rw [free]
    rfl
  have hbegin : Connection.begin { database := p.database, time } =
      (.ok (), .inside p.database time []) := Connection.begin_fresh quiet
  unfold begin
  simp only [hidle, isOpen, hbegin, Bool.false_eq_true, ↓reduceIte]
  rfl

variable (held : p.held.get? thread = some opened)

include held

private theorem finish_opened :
    finish thread time p = (.ok (), { p with held := p.held.erase thread }) := by
  have hcommit : Connection.commit { database := p.database, session := opened, time } =
      (.ok (), .fresh (p.database.write []) time) := Connection.commit_inside quiet
  unfold finish
  rw [close_eq held, hcommit]
  rfl

private theorem abort_opened :
    abort thread time p = (.ok (), { p with held := p.held.erase thread }) := by
  have hrollback : Connection.rollback { database := p.database, session := opened, time } =
      (.ok (), .fresh p.database time) := Connection.rollback_inside quiet
  unfold abort
  rw [close_eq held, hrollback]
  rfl

end

end DatabasePool

namespace Backend

def stores : Backend → Stores Worker
  | .memory => .inMemory Worker.storagePart
  | .database => .inDatabase Worker.storagePart

abbrev ledger (b : Backend) (thread : ThreadName) : StatusLedger Worker := b.stores.ledger thread

/-- The ledger has these rows and answers every call. One in memory always does; one in a database
does as long as the pool is open, no thread is in a unit of work, and the database does what it is
asked and can give back all of its rows. -/
def Holds : Backend → Storage → List JobStatus → Prop
  | .memory, s, rows => s.ledger.Sound ∧ s.ledger.rows.values = rows
  | .database, s, rows => ∀ thread, s.pool.Serves thread rows

def kept : Backend → JobStatus → JobStatus
  | .memory, row => row
  | .database, row => row.truncated

abbrev memoryPart : Part Worker MemoryLedger := Storage.ledgerPart Worker.storagePart

abbrev poolPart : Part Worker DatabasePool := Storage.poolPart Worker.storagePart

variable {b : Backend} {rows rows' : List JobStatus} {thread : ThreadName} {α : Type}
variable {h : Host Worker}

theorem Holds.distinct {s : Storage} (holds : b.Holds s rows) : (rows.map (·.id)).Nodup := by
  cases b with
  | memory =>
    obtain ⟨sound, rfl⟩ := holds
    exact sound.distinct_rows
  | database => exact (holds .main).holds.distinct

theorem ask_scheduler (b : Backend) (thread : ThreadName) (call : Command) (h : Host Worker) :
    ((b.ledger thread).ask call h).2.app.scheduler = h.app.scheduler := by
  have kind := Worker.schedulerPart.spares_composes
  cases b with
  | memory => cases call <;> rfl
  | database =>
    refine DatabasePool.ask_composes kind (fun noConnection program => ?_) call h
    apply kind.bind kind.now
    intro time
    apply kind.bind (fun _ => rfl)
    intro r
    cases r <;> exact kind.pure _

theorem ask_held (call : Command) (free : h.app.storage.pool.held.get? thread = none) :
    ((database.ledger thread).ask call h).2.app.storage.pool.held = h.app.storage.pool.held := by
  let C : {α : Type} → Act Worker α → Prop := fun a => ∀ h : Host Worker,
    (poolPart.get h.app).held.get? thread = none →
      (poolPart.get (a h).2.app).held = (poolPart.get h.app).held
  have kind : Composes C :=
    { still := fun ha h _ => by rw [ha]
      bind := fun ha hf h hfree =>
        (hf _ _ ((congrArg (Assoc.get? · thread) (ha h hfree)).trans hfree)).trans (ha h hfree) }
  refine DatabasePool.ask_composes (C := C) kind (fun noConnection program => ?_) call h free
  apply kind.bind kind.now
  intro time
  have hrun : C (poolPart.run (DatabasePool.run thread time program.run)) :=
    fun h hfree => DatabasePool.held_run hfree time program
  apply kind.bind hrun
  intro r
  cases r <;> exact kind.pure _

/-- The act answers this, leaves the scheduler as it is, and leaves the ledger with these rows. -/
structure Answers (b : Backend) (a : Act Worker α) (h : Host Worker) (answer : α)
    (rows : List JobStatus) : Prop where
  answer : (a h).1 = answer
  scheduler : (a h).2.app.scheduler = h.app.scheduler
  holds : b.Holds (a h).2.app.storage rows

theorem Answers.bind {β : Type} {a : Act Worker α} {f : α → Act Worker β} {x : α} {y : β}
    (first : Answers b a h x rows) (next : Answers b (f x) (a h).2 y rows') :
    Answers b (a >>= f) h y rows' := by
  obtain ⟨rfl, hscheduler, -⟩ := first
  exact ⟨next.answer, next.scheduler.trans hscheduler, next.holds⟩

theorem Answers.still {a : Act Worker α} {answer : α} (holds : b.Holds h.app.storage rows)
    (hanswer : (a h).1 = answer) (happ : (a h).2.app = h.app) : Answers b a h answer rows :=
  ⟨hanswer, by rw [happ], by rw [happ]; exact holds⟩

theorem Answers.of_step {a : Act Worker α} {step : α × MemoryLedger} {answer : α}
    {l : MemoryLedger} (hrun : (a h).1 = step.1 ∧ (a h).2.app = memoryPart.put step.2 h.app)
    (hstep : step = (answer, l)) (sound : l.Sound) (hrows : l.rows.values = rows) :
    Answers memory a h answer rows := by
  subst hstep
  obtain ⟨hanswer, happ⟩ := hrun
  refine ⟨hanswer, ?_, ?_⟩
  · rw [happ]
    rfl
  · rw [happ]
    exact ⟨sound, hrows⟩

theorem Answers.of_handles (call : Command) {a : Act Worker α} {answer : α} {time : Instant}
    (holds : database.Holds h.app.storage rows)
    (hcall : ((database.ledger thread).ask call h).2 = (a h).2)
    (handles : DatabasePool.Handles poolPart thread a h answer time rows') :
    Answers database a h answer rows' where
  answer := handles.answers
  scheduler := by
    rw [← hcall]
    exact ask_scheduler database thread call h
  holds := fun other => by
    have hheld := ask_held call (holds thread).free
    rw [hcall] at hheld
    refine ⟨?_, handles.serves.isOpen, handles.serves.holds⟩
    rw [hheld]
    exact (holds other).free

section

variable (holds : b.Holds h.app.storage rows)

include holds

theorem get_answers (thread : ThreadName) (key : JobKey) :
    Answers b ((b.ledger thread).get key) h (.ok (rows.find? (·.id = key))) rows := by
  cases b with
  | memory =>
    obtain ⟨sound, rfl⟩ := holds
    refine ⟨?_, rfl, sound, rfl⟩
    exact congrArg Except.ok (MemoryLedger.get?_eq_find sound.own key)
  | database =>
    exact .of_handles (.get key) holds rfl
      (DatabasePool.call_handles (fun _ _ => rfl) (holds thread)
        (DatabaseLedger.load_does (holds thread).holds key))

theorem create_present {row old : JobStatus} (hrow : row.Writable)
    (hold : rows.find? (·.id = row.id) = some old) (thread : ThreadName) :
    Answers b ((b.ledger thread).create row) h (.error (.alreadyExists row.id)) rows := by
  cases b with
  | memory =>
    obtain ⟨sound, rfl⟩ := holds
    have hget : h.app.storage.ledger.get? row.id = some old :=
      (MemoryLedger.get?_eq_find sound.own row.id).trans hold
    have hcreate : h.app.storage.ledger.create row = .error (.alreadyExists row.id) :=
      if_pos (Option.isSome_iff_exists.mpr ⟨old, hget⟩)
    exact .of_step ⟨rfl, rfl⟩ (MemoryLedger.attempt_of_error
      (by exact congrArg (Except.map ((), ·)) hcreate)) sound rfl
  | database =>
    exact .of_handles (.create row) holds rfl
      (DatabasePool.create_handles (fun _ _ => rfl) (holds thread)
        (DatabaseLedger.create_of_some (holds thread).holds hrow hold))

theorem create_absent {row : JobStatus} (hrow : row.Writable)
    (hnone : rows.find? (·.id = row.id) = none) (thread : ThreadName) :
    Answers b ((b.ledger thread).create row) h (.ok ()) (rows ++ [b.kept row]) := by
  cases b with
  | memory =>
    obtain ⟨sound, rfl⟩ := holds
    have hget : h.app.storage.ledger.get? row.id = none :=
      (MemoryLedger.get?_eq_find sound.own row.id).trans hnone
    have hcreate : h.app.storage.ledger.create row = .ok (h.app.storage.ledger.put row) :=
      if_neg (Option.not_isSome_iff_eq_none.mpr hget)
    refine .of_step ⟨rfl, rfl⟩ (MemoryLedger.attempt_of_ok
      (by exact congrArg (Except.map ((), ·)) hcreate)) (sound.put row) ?_
    refine (MemoryLedger.values_put sound.distinct sound.own row).trans (if_neg ?_)
    exact Option.not_isSome_iff_eq_none.mpr hget
  | database =>
    have hdoes : (DatabaseLedger.create row).Does h.app.storage.pool.database
        (h.clock.plus Act.tick) (.ok ()) (rows ++ [row.truncated]) := by
      rw [DatabaseLedger.create_truncated hrow]
      exact DatabaseLedger.create_of_none (holds thread).holds hrow.truncated
        (JobStatus.truncated_truncated row) hnone
    exact .of_handles (.create row) holds rfl
      (DatabasePool.create_handles (fun _ _ => rfl) (holds thread) hdoes)

/-- Merging a row over itself changes at most the time of its last change, and nothing of a
cancelled row. -/
theorem merge_own {row : JobStatus} (hrow : rows.find? (·.id = row.id) = some row)
    (thread : ThreadName) :
    ∃ changed, (row.state = .cancelled → changed = row.updatedAt) ∧
      Answers b ((b.ledger thread).merge row) h (.ok { row with updatedAt := changed })
        (JobStatus.replace rows { row with updatedAt := changed }) := by
  cases b with
  | memory =>
    obtain ⟨sound, rfl⟩ := holds
    have hget : h.app.storage.ledger.get? row.id = some row :=
      (MemoryLedger.get?_eq_find sound.own row.id).trans hrow
    let time := h.clock.plus Act.tick
    let changed := if row.state = .cancelled then row.updatedAt else Stamp.ofInstant time
    refine ⟨changed, fun hstate => if_pos hstate, .of_step ⟨rfl, rfl⟩
      (congrArg (fun r => (Except.ok r.1, r.2)) (MemoryLedger.merge_own hget time))
      (sound.put _) ?_⟩
    refine (MemoryLedger.values_put sound.distinct sound.own _).trans (if_pos ?_)
    exact Option.isSome_iff_exists.mpr ⟨row, hget⟩
  | database =>
    have hmem : row ∈ rows := List.mem_of_find?_eq_some hrow
    obtain ⟨hwritable, htimes⟩ := (holds thread).holds.kept row hmem
    by_cases hstate : row.state = .cancelled
    · refine ⟨row.updatedAt, fun _ => rfl, ?_⟩
      rw [JobStatus.replace_self (holds thread).holds.distinct hmem]
      exact .of_handles (.merge row) holds rfl
        (DatabasePool.call_handles (fun _ _ => rfl) (holds thread)
          (DatabaseLedger.merge_of_cancelled (holds thread).holds hwritable hrow hstate))
    · have hmerged : JobStatus.truncated
          { row with updatedAt := Stamp.ofInstant (h.clock.plus Act.tick) } =
            { row.truncated with updatedAt := (h.clock.plus Act.tick).stored } := rfl
      rw [htimes] at hmerged
      refine ⟨(h.clock.plus Act.tick).stored, fun hc => absurd hc hstate, ?_⟩
      rw [← hmerged]
      exact .of_handles (.merge row) holds rfl
        (DatabasePool.call_handles (fun _ _ => rfl) (holds thread)
          (DatabaseLedger.merge_of_some (holds thread).holds hwritable hrow hstate))

theorem transition_refused {row : JobStatus} (hrow : row ∈ rows) (hstate : row.state = .cancelled)
    (u : StatusUpdate) (thread : ThreadName) :
    Answers b ((b.ledger thread).transition row.id u) h
      (.error (.invalidTransition row.id .cancelled u.state)) rows := by
  have hfind := JobStatus.find_of_mem holds.distinct hrow
  cases b with
  | memory =>
    obtain ⟨sound, rfl⟩ := holds
    have hget : h.app.storage.ledger.get? row.id = some row :=
      (MemoryLedger.get?_eq_find sound.own row.id).trans hfind
    have hrefused : h.app.storage.ledger.transition row.id u (h.clock.plus Act.tick) =
        .error (.invalidTransition row.id .cancelled u.state) := by
      unfold MemoryLedger.transition
      rw [hget]
      exact congrArg (Except.map _) (MemoryLedger.apply_cancelled hstate u)
    exact .of_step ⟨rfl, rfl⟩ (MemoryLedger.attempt_of_error hrefused) sound rfl
  | database =>
    have hmove : row.state.canMoveTo u.state = false := by
      rw [hstate]
      rfl
    rw [← hstate]
    exact .of_handles (.transition row.id u) holds rfl
      (DatabasePool.transition_handles (fun _ _ => rfl) (holds thread)
        (DatabaseLedger.transition_of_refused (holds thread).holds hfind hmove))

end

variable {row : JobStatus} {P : Scheduler WorkerJob Unit → Prop}

/-- The scheduler is as described, and the ledger answers every call and has this row. -/
def Bears (b : Backend) (row : JobStatus) (P : Scheduler WorkerJob Unit → Prop) (w : Worker) :
    Prop :=
  P w.scheduler ∧ ∃ rows, b.Holds w.storage rows ∧ row ∈ rows

theorem Answers.bears {a : Act Worker α} {answer : α} (answers : Answers b a h answer rows)
    (hP : P h.app.scheduler) (hrow : row ∈ rows) : b.Bears row P (a h).2.app :=
  ⟨answers.scheduler ▸ hP, rows, answers.holds, hrow⟩

section

variable (cancelled : row.state = .cancelled)

include cancelled

private theorem memory_bears (thread : ThreadName) (call : Command) :
    Act.Keeps (memory.Bears row P) ((memory.ledger thread).ask call) := by
  rintro h ⟨hP, rows, ⟨sound, rfl⟩, hrow⟩
  have effect := MemoryLedger.ask_effect (p := memoryPart) (fun _ _ => rfl) call (h := h) sound
  have sound' := effect.sound sound
  have hkept := effect.persists.cancelled row.id row (sound.mem_rows.mp hrow) cancelled
  exact ⟨(ask_scheduler memory thread call h).symm ▸ hP, _, ⟨sound', rfl⟩,
    sound'.mem_rows.mpr hkept⟩

theorem database_bears (thread : ThreadName) (call : Command) (storable : call.Storable) :
    Act.Keeps (database.Bears row P) ((database.ledger thread).ask call) := by
  rintro h ⟨hP, rows, holds, hrow⟩
  obtain ⟨rows', served, serves⟩ :=
    DatabasePool.ask_served (q := poolPart) (fun _ _ => rfl) (holds thread) storable
  have hheld := ask_held call (holds thread).free
  refine ⟨(ask_scheduler database thread call h).symm ▸ hP, rows', fun other => ?_,
    served.keeps (holds thread).holds.distinct hrow cancelled⟩
  refine ⟨?_, serves.isOpen, serves.holds⟩
  rw [hheld]
  exact (holds other).free

theorem ask_bears (thread : ThreadName) (call : Command) (storable : call.Storable) :
    Act.Keeps (b.Bears row P) ((b.ledger thread).ask call) := by
  cases b with
  | memory => exact memory_bears cancelled thread call
  | database => exact database_bears cancelled thread call storable

/-- An update is refused or written over another row, and what cannot be written is not. -/
theorem transition_bears (thread : ThreadName) (key : JobKey) (u : StatusUpdate) :
    Act.Keeps (b.Bears row P) ((b.ledger thread).transition key u) := by
  cases b with
  | memory => exact memory_bears cancelled thread (.transition key u)
  | database =>
    by_cases hattempt : ∀ n ∈ u.attempt, n ≤ StatusRow.maxAttempts
    · exact database_bears cancelled thread (.transition key u) hattempt
    · rintro h ⟨hP, rows, holds, hrow⟩
      push Not at hattempt
      obtain ⟨n, hn, hlarge⟩ := hattempt
      have table := (holds thread).holds
      have unchanged {answer : Except LedgerError JobStatus}
          (does : (DatabaseLedger.transition key u (h.clock.plus Act.tick)
            ((h.clock.plus Act.tick).plus Act.tick)).Does h.app.storage.pool.database
              (((h.clock.plus Act.tick).plus Act.tick).plus Act.tick) answer rows) :
          database.Bears row P ((database.ledger thread).transition key u h).2.app := by
        have answers : Answers database ((database.ledger thread).transition key u) h answer rows :=
          .of_handles (.transition key u) holds rfl
            (DatabasePool.transition_handles (fun _ _ => rfl) (holds thread) does)
        exact answers.bears hP hrow
      cases hfind : rows.find? (·.id = key) with
      | none => exact unchanged (DatabaseLedger.transition_of_none table hfind)
      | some old =>
        cases hstate : old.state.canMoveTo u.state with
        | false => exact unchanged (DatabaseLedger.transition_of_refused table hfind hstate)
        | true =>
          exact unchanged (DatabaseLedger.transition_of_unwritable table hfind hstate hn hlarge)

omit cancelled in
theorem create_bears (thread : ThreadName) {new : JobStatus} (hnew : new.Writable) :
    Act.Keeps (b.Bears row P) ((b.ledger thread).create new) := by
  rintro h ⟨hP, rows, holds, hrow⟩
  cases hfind : rows.find? (·.id = new.id) with
  | none =>
    exact (create_absent holds hnew hfind thread).bears hP (List.mem_append_left _ hrow)
  | some old => exact (create_present holds hnew hfind thread).bears hP hrow

end

/-- The same while a thread has a unit of work in which nothing has been written. -/
def Amidst (thread : ThreadName) (row : JobStatus) (P : Scheduler WorkerJob Unit → Prop) :
    Backend → Worker → Prop
  | .memory, w => memory.Bears row P w
  | .database, w => P w.scheduler ∧ ∃ rows, w.storage.pool.isClosed = false ∧
      w.storage.pool.database.Holds rows ∧ row ∈ rows ∧
      ∀ other, w.storage.pool.held.get? other =
        if other = thread then some DatabasePool.opened else none

def During (b : Backend) (thread : ThreadName) (row : JobStatus)
    (P : Scheduler WorkerJob Unit → Prop) : Bool → Worker → Prop
  | false => b.Bears row P
  | true => b.Amidst thread row P

theorem told_scheduler (message : String)
    (step : Instant → DatabasePool → Except UnitOfWorkError Unit × DatabasePool) (h : Host Worker) :
    (DatabasePool.told poolPart message step h).2.app.scheduler = h.app.scheduler := by
  have kind := Worker.schedulerPart.spares_composes
  have htold : Worker.schedulerPart.Spares (DatabasePool.told poolPart message step) := by
    apply kind.bind kind.now
    intro time
    apply kind.bind (fun _ => rfl)
    intro r
    cases r with
    | error e => exact kind.pure _
    | ok x => exact kind.bind (kind.log _ _ _ _) fun _ => kind.pure _
  exact htold h

section

variable (thread : ThreadName)

theorem begin_during : Act.Triple (b.Bears row P) (b.stores.unitOfWork thread).begin fun r =>
    b.During thread row P r.isOk := by
  intro h hbears
  cases b with
  | memory =>
    have hkept : memory.Bears row P ((memory.stores.unitOfWork thread).begin h).2.app := hbears
    cases ((memory.stores.unitOfWork thread).begin h).1.isOk <;> exact hkept
  | database =>
    obtain ⟨hP, rows, holds, hrow⟩ := hbears
    let message := "unit of work opened"
    obtain ⟨hanswer, hpool⟩ := DatabasePool.told_run (q := poolPart) (fun _ _ => rfl) message
      (DatabasePool.begin thread) h
    have hbegin := DatabasePool.begin_free (holds thread).holds.quiet (Act.now h).1
      (holds thread).free (holds thread).isOpen
    have hok := hanswer.trans (congrArg Prod.fst hbegin)
    have hopened : (DatabasePool.told poolPart message _ h).2.app.storage.pool = _ :=
      hpool.trans (congrArg Prod.snd hbegin)
    change database.During thread row P (DatabasePool.told poolPart message _ h).1.isOk
      (DatabasePool.told poolPart message _ h).2.app
    rw [hok]
    refine ⟨(told_scheduler message _ h).symm ▸ hP, rows, ?_, ?_, hrow, fun other => ?_⟩
    · rw [hopened]
      exact (holds thread).isOpen
    · rw [hopened]
      exact (holds thread).holds
    · rw [hopened, Assoc.get?_put]
      by_cases hother : other = thread
      · rw [if_pos hother, if_pos hother.symm]
      · rw [if_neg hother, if_neg (Ne.symm hother)]
        exact (holds other).free

theorem told_closed {message : String}
    {step : Instant → DatabasePool → Except UnitOfWorkError Unit × DatabasePool}
    (hstep : ∀ (p : DatabasePool) (time : Instant), p.database.Quiet →
      p.held.get? thread = some DatabasePool.opened →
        step time p = (.ok (), { p with held := p.held.erase thread })) :
    Act.Triple (database.Amidst thread row P) (DatabasePool.told poolPart message step) fun _ =>
      database.Bears row P := by
  rintro h ⟨hP, rows, isOpen, holds, hrow, hheld⟩
  have hpool := (DatabasePool.told_run (q := poolPart) (fun _ _ => rfl) message step h).2
  have hclosed : (DatabasePool.told poolPart message step h).2.app.storage.pool = _ :=
    hpool.trans (congrArg Prod.snd (hstep _ _ holds.quiet ((hheld thread).trans (if_pos rfl))))
  refine ⟨(told_scheduler message step h).symm ▸ hP, rows, fun other => ?_, hrow⟩
  rw [hclosed]
  refine ⟨?_, isOpen, holds⟩
  change (h.app.storage.pool.held.erase thread).get? other = none
  rw [Assoc.get?_erase]
  by_cases hother : other = thread
  · rw [if_pos hother.symm]
  · rw [if_neg (Ne.symm hother), hheld, if_neg hother]

theorem finish_during : Act.Triple (b.Amidst thread row P) (b.stores.unitOfWork thread).finish
    fun _ => b.Bears row P := by
  cases b with
  | memory => exact fun _ hbears => hbears
  | database =>
    exact told_closed thread fun p time quiet held => DatabasePool.finish_opened quiet time held

theorem abort_during : Act.Triple (b.Amidst thread row P) (b.stores.unitOfWork thread).abort
    fun _ => b.Bears row P := by
  cases b with
  | memory => exact fun _ hbears => hbears
  | database =>
    exact told_closed thread fun p time quiet held => DatabasePool.abort_opened quiet time held

end

end Backend

end JobEngine
