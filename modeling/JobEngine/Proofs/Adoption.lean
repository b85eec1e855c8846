import JobEngine.Proofs.Enrolment
/-! A job that is registered again while others update its row. The registration reads the row in
one call of the ledger and writes it back in another. What the others do in between is kept only if
the row is cancelled by then; otherwise it is overwritten with what was read. -/

namespace JobEngine

structure TimedUpdate where
  update : StatusUpdate
  time : Instant

def TimedUpdate.on (u : TimedUpdate) (row : JobStatus) : JobStatus :=
  match u.update.apply row u.time with
  | .ok moved => moved
  | .error _ => row

def JobStatus.after (row : JobStatus) (updates : List TimedUpdate) : JobStatus :=
  updates.foldl (fun row u => u.on row) row

def MemoryLedger.play (l : MemoryLedger) (key : JobKey) (updates : List TimedUpdate) :
    MemoryLedger :=
  updates.foldl (fun l u => (attempt (·.transition key u.update u.time) l).2) l

namespace JobStatus

variable {row other : JobStatus} {updates : List TimedUpdate}

@[simp] private theorem after_append (row : JobStatus) (front back : List TimedUpdate) :
    row.after (front ++ back) = (row.after front).after back :=
  List.foldl_append

@[simp] private theorem id_on (u : TimedUpdate) (row : JobStatus) : (u.on row).id = row.id := by
  unfold TimedUpdate.on
  cases hmoved : u.update.apply row u.time with
  | error e => rfl
  | ok moved => exact (MemoryLedger.apply_ok hmoved).1

@[simp] theorem id_after (row : JobStatus) (updates : List TimedUpdate) :
    (row.after updates).id = row.id := by
  induction updates generalizing row with
  | nil => rfl
  | cons u rest ih => exact (ih (u.on row)).trans (id_on u row)

private theorem progress_on (u : TimedUpdate) (h : row.progress = other.progress) :
    (u.on row).progress = (u.on other).progress := by
  obtain ⟨hstate, hresult, hattempts, hstarted, hfinished⟩ := Progress.mk.inj h
  unfold TimedUpdate.on StatusUpdate.apply moveTo
  rw [hstate]
  cases other.state.canMoveTo u.update.state with
  | false => exact h
  | true => simp only [progress, ↓reduceIte, hresult, hattempts, hstarted, hfinished]

private theorem progress_after (h : row.progress = other.progress) (updates : List TimedUpdate) :
    (row.after updates).progress = (other.after updates).progress := by
  induction updates generalizing row other with
  | nil => exact h
  | cons u rest ih => exact ih (progress_on u h)

end JobStatus

namespace MemoryLedger

variable {l : MemoryLedger} {key : JobKey} {row : JobStatus}

private theorem get?_attempt (hrow : l.get? key = some row) (u : TimedUpdate) :
    (attempt (·.transition key u.update u.time) l).2.get? key = some (u.on row) := by
  unfold attempt transition TimedUpdate.on
  simp only [hrow]
  cases u.update.apply row u.time with
  | error e => exact hrow
  | ok moved => exact Assoc.get?_put_self l.rows key moved

theorem get?_play (hrow : l.get? key = some row) (updates : List TimedUpdate) :
    (l.play key updates).get? key = some (row.after updates) := by
  induction updates generalizing l row with
  | nil => exact hrow
  | cons u rest ih => exact ih (get?_attempt hrow u)

@[simp] private theorem play_append (l : MemoryLedger) (key : JobKey)
    (front back : List TimedUpdate) :
    l.play key (front ++ back) = (l.play key front).play key back :=
  List.foldl_append

end MemoryLedger

namespace Site

variable {σ η ν : Type}

/-- The ledger as a registration finds it when others update the row of a key right after a row was
to be created, and again right after it was read. -/
def shared (site : Site σ η ν) (key : JobKey) (created got : List TimedUpdate) : StatusLedger σ :=
  { site.book with
    create := fun row => do
      let answer ← site.book.create row
      site.ledger.modify (·.play key created)
      return answer
    get := fun k => do
      let answer ← site.book.get k
      site.ledger.modify (·.play key got)
      return answer }

namespace Triple

variable {site : Site σ η ν} {s : Scheduler η ν} {l : MemoryLedger} {key : JobKey}
variable {row : JobStatus}

private theorem plays (updates : List TimedUpdate) :
    site.Triple (Are s l) (site.ledger.modify (·.play key updates)) fun _ =>
      Are s (l.play key updates) := by
  refine onLedger ?_
  rintro _ _ ⟨rfl, rfl⟩
  exact ⟨rfl, rfl⟩

private theorem adopts_shared (created got : List TimedUpdate) (hrow : l.get? key = some row) :
    site.Triple (Are s l) (Registration.adoptExisting (site.shared key created got) key)
      fun r s' l' => s' = s ∧ ∃ now, r = .ok ((l.play key got).merge row now).1 ∧
        l' = ((l.play key got).merge row now).2 := by
  refine adopts ?_ rfl
  refine (reads hrow).bind fun answer => assuming ?_
  rintro rfl
  exact (plays got).bind fun _ => pure fun _ _ h => ⟨rfl, h⟩

/-- A job that has a row is registered by writing back what was read of it. -/
theorem registers_shared (definition : JobDefinition) (trigger : Option Trigger)
    (created got : List TimedUpdate)
    (hheard : s.listeners.has StatusListener.name) (hrow : l.get? definition.key = some row) :
    site.Triple (Are s l)
      (Registration.scheduleJob (site.shared definition.key created got) site.service definition
        trigger)
      fun r _ l' => ∃ now,
        r = .ok ((l.play definition.key (created ++ got)).merge (row.after created) now).1 ∧
        l' = ((l.play definition.key (created ++ got)).merge (row.after created) now).2 := by
  refine hears.bind fun r => ?_
  apply naming
  rintro matched l ⟨rfl, ⟨hunheard, -⟩ | ⟨-, rfl⟩⟩
  · cases hheard.symm.trans hunheard
  have hregister : site.Triple (Are matched l) (JobStatus.register definition trigger.isSome)
      fun fresh s' l' => fresh.id = definition.key ∧ Are matched l s' l' := by
    intro host hhost
    rw [JobStatus.register_app]
    exact ⟨rfl, hhost⟩
  refine hregister.bind fun fresh => assuming fun hid => ?_
  have hcreate : site.Triple (Are matched l)
      ((site.shared definition.key created got).create fresh) fun r s' l' =>
        r = .error (.alreadyExists fresh.id) ∧
          Are matched (l.play definition.key created) s' l' := by
    refine creates.bind fun r => ?_
    apply naming
    rintro _ _ ⟨rfl, ⟨_, -, rfl, rfl⟩ | ⟨hnone, -⟩⟩
    · exact (plays created).bind fun _ => pure fun _ _ h => ⟨rfl, h⟩
    · cases (hid ▸ hnone).symm.trans hrow
  refine hcreate.bind fun r => assuming ?_
  rintro rfl
  refine (adopts_shared created got (MemoryLedger.get?_play hrow created)).mono (fun _ _ h => h) ?_
  rintro r _ _ ⟨-, now, hr, hl⟩
  refine ⟨now, ?_⟩
  rw [MemoryLedger.play_append]
  exact ⟨hr, hl⟩

end Triple

end Site

/-- A job that has a row is registered again while others update the row: before the registration
calls the ledger, after it could not create a row, after it read the row that is there, and after
it wrote that back. The row comes to what those updates alone make of it if it is cancelled when it
is written back; otherwise to what they make of it without those between reading and writing. -/
theorem registration_among_updates {σ η ν : Type} (site : Site σ η ν) (definition : JobDefinition)
    (trigger : Option Trigger) (created got later : List TimedUpdate) (h : Host σ) {row : JobStatus}
    (hheard : (site.scheduler.get h.app).listeners.has StatusListener.name)
    (hrow : (site.ledger.get h.app).get? definition.key = some row)
    (hid : row.id = definition.key) :
    let r := Registration.scheduleJob (site.shared definition.key created got) site.service
      definition trigger h
    let progress (l : MemoryLedger) := (l.get? definition.key).map JobStatus.progress
    let alone (updates : List TimedUpdate) :=
      progress ((site.ledger.get h.app).play definition.key updates)
    (∃ kept, r.1 = .ok kept) ∧
      ((row.after (created ++ got)).state = .cancelled →
        progress ((site.ledger.get r.2.app).play definition.key later) =
          alone (created ++ got ++ later)) ∧
      ((row.after (created ++ got)).state ≠ .cancelled →
        progress ((site.ledger.get r.2.app).play definition.key later) =
          alone (created ++ later)) := by
  intro r progress alone
  have hplay : ∀ updates, alone updates = some (row.after updates).progress := by
    intro updates
    exact congrArg (Option.map JobStatus.progress) (MemoryLedger.get?_play hrow updates)
  obtain ⟨now, hanswer, hledger⟩ :=
    Site.Triple.registers_shared definition trigger created got hheard hrow h ⟨rfl, rfl⟩
  let mid := (site.ledger.get h.app).play definition.key (created ++ got)
  have hstale : (row.after created).id = definition.key := (row.id_after created).trans hid
  have hcurrent : mid.get? (row.after created).id = some (row.after (created ++ got)) := by
    rw [hstale]
    exact MemoryLedger.get?_play hrow (created ++ got)
  rw [MemoryLedger.merge_of_some hcurrent now] at hanswer hledger
  have hlater : ∀ kept : JobStatus, site.ledger.get r.2.app = mid.put kept →
      kept.id = definition.key → progress ((site.ledger.get r.2.app).play definition.key later) =
        some (kept.after later).progress := by
    intro kept hput hkept
    rw [hput]
    exact congrArg (Option.map JobStatus.progress)
      (MemoryLedger.get?_play (mid.get?_put_own hkept) later)
  refine ⟨⟨_, hanswer⟩, fun hcancelled => ?_, fun hcancelled => ?_⟩
  · rw [if_pos hcancelled] at hledger
    rw [hplay, JobStatus.after_append]
    exact hlater _ hledger ((row.id_after _).trans hid)
  · rw [if_neg hcancelled] at hledger
    rw [hplay, JobStatus.after_append]
    exact (hlater _ hledger hstale).trans
      (congrArg some (JobStatus.progress_after (by rfl) later))

namespace Plant

def attempted : TimedUpdate := { update := .running 0, time := .epoch }

def withdrawn : TimedUpdate := { update := .cancelled, time := .epoch }

/-- Of these two the start is forgotten when it falls between the two calls, and the end stays. -/
theorem start_forgotten_end_kept :
    let again (got : List TimedUpdate) :=
      Registration.scheduleJob (retrying.toSite.shared report.key [] got) retrying.service report
        none registered
    let progress (l : MemoryLedger) := (l.get? report.key).map JobStatus.progress
    progress (again [attempted]).2.app.2 = progress registered.app.2 ∧
      progress (again [withdrawn]).2.app.2 =
        progress (registered.app.2.play report.key [withdrawn]) := by
  intro again progress
  obtain ⟨-, -, hlost⟩ := registration_among_updates retrying.toSite report none [] [attempted] []
    registered rfl rfl rfl
  obtain ⟨-, hkept, -⟩ := registration_among_updates retrying.toSite report none [] [withdrawn] []
    registered rfl rfl rfl
  exact ⟨hlost (by decide), hkept rfl⟩

/-- An update that falls between the two calls is lost. -/
theorem update_lost_between_calls :
    ¬∀ (created got later : List TimedUpdate) (h : Host (Scheduler Unit Unit × MemoryLedger))
      (row : JobStatus), h.app.1.listeners.has StatusListener.name →
      h.app.2.get? report.key = some row → row.id = report.key →
      let r := Registration.scheduleJob (retrying.toSite.shared report.key created got)
        retrying.service report none h
      ((r.2.app.2.play report.key later).get? report.key).map JobStatus.progress =
        ((h.app.2.play report.key (created ++ got ++ later)).get? report.key).map
          JobStatus.progress := by
  intro claim
  have kept := claim [] [attempted] [] registered _ rfl rfl rfl
  revert kept
  decide

end Plant

end JobEngine
