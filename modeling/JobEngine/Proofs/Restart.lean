import JobEngine.Proofs.Backends
import JobEngine.Proofs.SchedulerTriples
/-! A worker starts with an empty scheduler on a ledger that outlives it. Whatever row the
statistics have there, they end up with one row and one slot. -/

namespace JobEngine

open StatusLedger (Command)

namespace JobStatus

variable {rows : List JobStatus} {new old : JobStatus} {key : JobKey}

theorem filter_of_find (distinct : (rows.map (·.id)).Nodup)
    (hold : rows.find? (·.id = key) = some old) : rows.filter (·.id = key) = [old] := by
  induction rows with
  | nil => cases hold
  | cons row rest ih =>
    obtain ⟨hfirst, hrest⟩ := List.nodup_cons.mp distinct
    by_cases hid : row.id = key
    · have hnone : rest.filter (·.id = key) = [] :=
        List.filter_eq_nil_iff.mpr fun r hr hkey => hfirst
          (List.mem_map.mpr ⟨r, hr, (of_decide_eq_true hkey).trans hid.symm⟩)
      have hfound : row = old := by simpa [hid] using hold
      rw [List.filter_cons_of_pos (by simpa using hid), hnone, hfound]
    · have hlater : rest.find? (·.id = key) = some old := by simpa [hid] using hold
      simp [hid, ih hrest hlater]

private theorem filter_replace (distinct : (rows.map (·.id)).Nodup)
    (hold : rows.find? (·.id = new.id) = some old) :
    (replace rows new).filter (·.id = new.id) = [new] := by
  have hkeys : (fun r : JobStatus => decide (r.id = new.id)) ∘
      (fun r => if r.id = new.id then new else r) = fun r => decide (r.id = new.id) := by
    funext r
    by_cases hid : r.id = new.id <;> simp [hid]
  have hid : old.id = new.id := by simpa using List.find?_some hold
  unfold replace
  rw [List.filter_map, hkeys, filter_of_find distinct hold, List.map_singleton, if_pos hid]

private theorem filter_replace_others (rows : List JobStatus) (new : JobStatus) :
    (replace rows new).filter (·.id ≠ new.id) = rows.filter (·.id ≠ new.id) := by
  have hkeys : (fun r : JobStatus => decide (r.id ≠ new.id)) ∘
      (fun r => if r.id = new.id then new else r) = fun r => decide (r.id ≠ new.id) := by
    funext r
    by_cases hid : r.id = new.id <;> simp [hid]
  unfold replace
  rw [List.filter_map, hkeys]
  refine (List.map_congr_left fun r hr => ?_).trans (List.map_id _)
  exact if_neg (of_decide_eq_true (List.mem_filter.mp hr).2)

end JobStatus

namespace Backend

variable {b : Backend} {rows : List JobStatus} {old : JobStatus} {key : JobKey} {h : Host Worker}

theorem adopts (holds : b.Holds h.app.storage rows) (hold : rows.find? (·.id = key) = some old)
    (thread : ThreadName) :
    ∃ changed, (old.state = .cancelled → changed = old.updatedAt) ∧
      Answers b (Registration.adoptExisting (b.ledger thread) key) h
        (.ok { old with updatedAt := changed })
        (JobStatus.replace rows { old with updatedAt := changed }) := by
  have hid : old.id = key := by simpa using List.find?_some hold
  have hget := get_answers holds thread key
  rw [hold] at hget
  obtain ⟨changed, hstate, hmerge⟩ := merge_own hget.holds (hid ▸ hold) thread
  exact ⟨changed, hstate, hget.bind (hmerge.bind (.still hmerge.holds rfl rfl))⟩

theorem adopts_none (holds : b.Holds h.app.storage rows) (hnone : rows.find? (·.id = key) = none)
    (thread : ThreadName) :
    Answers b (Registration.adoptExisting (b.ledger thread) key) h
      (.error (.ledger key (.notFound key))) rows := by
  have hget := get_answers holds thread key
  rw [hnone] at hget
  exact hget.bind (.still hget.holds rfl rfl)

def At (b : Backend) (s : Scheduler WorkerJob Unit) (rows : List JobStatus) (w : Worker) : Prop :=
  w.scheduler = s ∧ b.Holds w.storage rows

variable {s s' : Scheduler WorkerJob Unit} {rows' : List JobStatus} {α : Type}

private theorem at_of_answers {a : Act Worker α} {answer : α}
    (answers : ∀ h : Host Worker, b.Holds h.app.storage rows → Answers b a h answer rows') :
    Act.Triple (b.At s rows) a fun r w => r = answer ∧ b.At s rows' w := fun h hat =>
  have ha := answers h hat.2
  ⟨ha.answer, ha.scheduler.trans hat.1, ha.holds⟩

theorem at_attempt
    {step : Scheduler WorkerJob Unit → Except SchedulerError (Scheduler WorkerJob Unit)}
    (hstep : step s = .ok s') :
    Act.Triple (b.At s rows) (Scheduler.attempt Worker.schedulerPart step)
      fun r w => r = .ok () ∧ b.At s' rows w := by
  rintro h ⟨rfl, holds⟩
  have hrun : Scheduler.attempt Worker.schedulerPart step h =
      (.ok (), { h with app.scheduler := s' }) := by
    unfold Scheduler.attempt Part.run
    simp only [Worker.schedulerPart, hstep]
  rw [hrun]
  exact ⟨rfl, rfl, holds⟩

theorem register_triple {P : Worker → Prop} (definition : JobDefinition) (triggered : Bool) :
    Act.Triple P (JobStatus.register definition triggered) fun status w =>
      (∃ created, status = JobStatus.initial definition triggered created) ∧ P w := by
  intro h hP
  rw [JobStatus.register_app]
  exact ⟨⟨_, rfl⟩, hP⟩

end Backend

namespace Worker

def statisticsKey : JobKey := ⟨StatisticHistory.kind⟩

def statistics : JobDefinition := { key := statisticsKey, kind := StatisticHistory.kind }

def daily (start : Instant) : Trigger := { schedule := .every StatisticHistory.interval start }

def watching : Scheduler WorkerJob Unit :=
  { ({} : Worker).scheduler with matchers := [(StatusListener.name, [statisticsKey])] }

def scheduled (start : Instant) : Scheduler WorkerJob Unit :=
  { watching with
    jobs := [(statisticsKey, { definition := statistics, trigger := some (daily start) })]
    queue := [{ due := start, seq := 1, fire := Scheduler.firstFire statisticsKey (daily start) }]
    seq := 1 }

theorem statistics_readable : ∃ text, JobKey.ofText text = .ok statistics.key :=
  ⟨StatisticHistory.kind, rfl⟩

theorem addMatcher_fresh :
    ({} : Worker).scheduler.addMatcher StatusListener.name statisticsKey = .ok watching := rfl

theorem scheduleJob_watching (start : Instant) :
    watching.scheduleJob statistics (daily start) = .ok (scheduled start) := rfl

section

variable {b : Backend} {rows : List JobStatus} {old : JobStatus} (start : Instant)

theorem schedules :
    Act.Triple (b.At watching rows) (service.scheduleJob statistics (daily start)) fun r w =>
      r = .ok () ∧ b.At (scheduled start) rows w := by
  have hstore : Act.Triple (b.At watching rows)
      (Scheduler.attempt schedulerPart (·.scheduleJob statistics (daily start))) fun r w =>
        r = .ok () ∧ b.At (scheduled start) rows w :=
    Backend.at_attempt (scheduleJob_watching start)
  refine hstore.bind fun r => .assuming ?_
  rintro rfl
  refine ((Act.keeps_composes _).log _ _ _ _).bind fun _ => ?_
  exact .pure fun w hw => ⟨rfl, hw⟩

omit start in
private theorem watches :
    Act.Triple (b.At ({} : Worker).scheduler rows)
      (service.addMatcher StatusListener.name statisticsKey) fun r w =>
        r = .ok () ∧ b.At watching rows w :=
  Backend.at_attempt addMatcher_fresh

theorem registers_absent (hnone : rows.find? (·.id = statisticsKey) = none) :
    Act.Triple (b.At ({} : Worker).scheduler rows)
      (Registration.scheduleJob (b.ledger .main) service statistics (some (daily start)))
      fun r w => ∃ created, r = .ok (JobStatus.initial statistics true created) ∧
        b.At (scheduled start) (rows ++ [b.kept (JobStatus.initial statistics true created)])
          w := by
  refine watches.bind fun r => .assuming ?_
  rintro rfl
  refine (Backend.register_triple statistics true).bind fun status => .assuming ?_
  rintro ⟨created, rfl⟩
  have hwritable := JobStatus.initial_writable statistics_readable true created
  refine (Backend.at_of_answers fun h holds =>
    Backend.create_absent holds hwritable hnone .main).bind fun r => .assuming ?_
  rintro rfl
  refine (schedules start).bind fun r => .assuming ?_
  rintro rfl
  refine ((Act.keeps_composes _).log _ _ _ _).bind fun _ => ?_
  exact .pure fun w hw => ⟨created, rfl, hw⟩

theorem registers_present (hold : rows.find? (·.id = statisticsKey) = some old) :
    Act.Triple (b.At ({} : Worker).scheduler rows)
      (Registration.scheduleJob (b.ledger .main) service statistics (some (daily start)))
      fun r w => ∃ changed, r = .ok { old with updatedAt := changed } ∧
        (old.state = .cancelled → changed = old.updatedAt) ∧
        b.At watching (JobStatus.replace rows { old with updatedAt := changed }) w := by
  refine watches.bind fun r => .assuming ?_
  rintro rfl
  refine (Backend.register_triple statistics true).bind fun status => .assuming ?_
  rintro ⟨created, rfl⟩
  have hwritable := JobStatus.initial_writable statistics_readable true created
  refine (Backend.at_of_answers fun h holds =>
    Backend.create_present holds hwritable hold .main).bind fun r => .assuming ?_
  rintro rfl
  intro h hat
  obtain ⟨changed, hstate, answers⟩ := Backend.adopts hat.2 hold .main
  exact ⟨changed, answers.answer, hstate, answers.scheduler.trans hat.1, answers.holds⟩

end

def registerFrom (stores : Stores Worker) (start : Instant) :
    Act Worker (Except WorkerError Unit) := do
  let trigger := daily start
  match ← Registration.scheduleJob (stores.ledger .main) service statistics (some trigger) with
  | .error e => return .error (.registration e)
  | .ok status =>
    unless ← schedulerPart.read (·.contains statisticsKey) do
      if let .error e ← service.scheduleJob statistics trigger then return .error (.scheduler e)
    Act.log .worker .info "statistics history scheduled"
      [("job_id", .shown status.id.text), ("state", .shown status.state.name)]
    return .ok ()

theorem registerStatistics_eq (stores : Stores Worker) :
    registerStatistics stores = Act.now >>= registerFrom stores := rfl

/-- The row that the statistics have after a start: the one that they had, up to the time of its
last change and with that when it is cancelled, or else a new one. -/
def Resumed (b : Backend) (row : JobStatus) : Option JobStatus → Prop
  | none => ∃ created, row = b.kept (JobStatus.initial statistics true created)
  | some old => (∃ changed, row = { old with updatedAt := changed }) ∧
      (old.state = .cancelled → row = old)

def Adopted (b : Backend) (rows : List JobStatus) (s : Storage) : Prop :=
  ∃ rows' row, b.Holds s rows' ∧ rows'.filter (·.id = statisticsKey) = [row] ∧
    rows'.filter (·.id ≠ statisticsKey) = rows.filter (·.id ≠ statisticsKey) ∧
    Resumed b row (rows.find? (·.id = statisticsKey))

section

variable {b : Backend} {rows : List JobStatus}

theorem adopted_new (hnone : rows.find? (·.id = statisticsKey) = none) {s : Storage}
    {created : Instant}
    (holds : b.Holds s (rows ++ [b.kept (JobStatus.initial statistics true created)])) :
    Adopted b rows s := by
  have hid : (b.kept (JobStatus.initial statistics true created)).id = statisticsKey := by
    cases b <;> rfl
  have hrows : rows.filter (·.id = statisticsKey) = [] :=
    List.filter_eq_nil_iff.mpr fun r hr => List.find?_eq_none.mp hnone r hr
  refine ⟨_, b.kept (JobStatus.initial statistics true created), holds, ?_, ?_, ?_⟩
  · simp [hrows, hid]
  · simp [hid]
  · rw [hnone]
    exact ⟨created, rfl⟩

theorem adopted_old {old : JobStatus} (hold : rows.find? (·.id = statisticsKey) = some old)
    (distinct : (rows.map (·.id)).Nodup) {s : Storage} {changed : Stamp}
    (hstate : old.state = .cancelled → changed = old.updatedAt)
    (holds : b.Holds s (JobStatus.replace rows { old with updatedAt := changed })) :
    Adopted b rows s := by
  let row : JobStatus := { old with updatedAt := changed }
  have hid : row.id = statisticsKey := by simpa using List.find?_some hold
  have hrow : rows.find? (·.id = row.id) = some old := hid ▸ hold
  refine ⟨_, row, holds, ?_, ?_, ?_⟩
  · rw [← hid]
    exact JobStatus.filter_replace distinct hrow
  · rw [← hid]
    exact JobStatus.filter_replace_others rows row
  · rw [hold]
    exact ⟨⟨changed, rfl⟩, fun hc => by subst row; rw [hstate hc]⟩

end

private theorem reads_contains {b : Backend} {s : Scheduler WorkerJob Unit}
    {rows : List JobStatus} :
    Act.Triple (b.At s rows) (schedulerPart.read (·.contains statisticsKey)) fun r w =>
      r = s.contains statisticsKey ∧ b.At s rows w := by
  rintro h ⟨rfl, holds⟩
  exact ⟨rfl, rfl, holds⟩

theorem registerFrom_triple {b : Backend} {rows : List JobStatus}
    (distinct : (rows.map (·.id)).Nodup) (start : Instant) :
    Act.Triple (b.At ({} : Worker).scheduler rows) (registerFrom b.stores start) fun r w =>
      r = .ok () ∧ w.scheduler = scheduled start ∧ Adopted b rows w.storage := by
  cases hfind : rows.find? (·.id = statisticsKey) with
  | none =>
    -- the registration has attached the trigger
    refine (registers_absent start hfind).bind fun r => .of_exists fun created => .assuming ?_
    rintro rfl
    refine reads_contains.bind fun r => .assuming ?_
    rintro rfl
    refine ((Act.keeps_composes _).log _ _ _ _).bind fun _ => ?_
    exact .pure fun w hat => ⟨rfl, hat.1, adopted_new hfind hat.2⟩
  | some old =>
    -- the registration has left the scheduler alone, so the trigger is still to be attached
    refine (registers_present start hfind).bind fun r => .of_exists fun changed => .assuming ?_
    rintro rfl
    refine .assuming fun hstate => reads_contains.bind fun r => .assuming ?_
    rintro rfl
    refine (schedules start).bind fun r => .assuming ?_
    rintro rfl
    refine ((Act.keeps_composes _).log _ _ _ _).bind fun _ => ?_
    exact .pure fun w hat => ⟨rfl, hat.1, adopted_old hfind distinct hstate hat.2⟩

end Worker

end JobEngine
