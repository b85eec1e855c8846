import Mathlib.Data.List.Chain
import JobEngine.Proofs.Rows
/-! A row through any number of updates. They are written into the row in place, as far as they are
allowed, and what the stamps of the row say of its last change, its last start and its last end fits
together whatever way the updates took. -/

namespace JobEngine

/-- Moves a row in place to another state, and tells the one that it was in; or refuses. -/
def JobStatus.transition (next : JobState) (now : Instant) :
    StateM JobStatus (Except (JobState × JobState) JobState) := do
  let source := (← get).state
  if source.canMoveTo next then
    match next with
    | .running => modify ({ · with startedAt := some now, finishedAt := none })
    | .finished | .failed | .cancelled => modify ({ · with finishedAt := some now })
    | .created | .pending => pure ()
    modify ({ · with state := next, updatedAt := now })
    return .ok source
  else
    return .error (source, next)

def StatusUpdate.write (u : StatusUpdate) (now : Instant) :
    StateM JobStatus (Except LedgerError Unit) := do
  match ← JobStatus.transition u.state now with
  | .error (source, target) => return .error (.invalidTransition (← get).id source target)
  | .ok _ =>
    if u.state ≠ .cancelled then
      modify ({ · with result := u.result })
    if let some attempt := u.attempt then
      modify ({ · with attempts := attempt })
    return .ok ()

theorem JobStatus.moveTo_keeps {row moved : JobStatus} {next : JobState} {now : Instant}
    (h : row.moveTo next now = some moved) :
    moved.result = row.result ∧ moved.attempts = row.attempts := by
  unfold moveTo at h
  split at h
  · cases h
    exact ⟨rfl, rfl⟩
  · cases h

theorem JobStatus.transition_eq (next : JobState) (now : Instant) (row : JobStatus) :
    (transition next now).run row =
      match row.moveTo next now with
      | some moved => (.ok row.state, moved)
      | none => (.error (row.state, next), row) := by
  obtain ⟨_, _, state⟩ := row
  cases state <;> cases next <;> rfl

theorem StatusUpdate.write_eq (u : StatusUpdate) (now : Instant) (row : JobStatus) :
    (u.write now).run row =
      match u.apply row now with
      | .ok moved => (.ok (), moved)
      | .error e => (.error e, row) := by
  have hmove := JobStatus.transition_eq u.state now row
  unfold apply
  rw [write, StateT.run_bind, hmove]
  cases hmoved : row.moveTo u.state now with
  | none => rfl
  | some moved =>
    obtain ⟨hresult, hattempts⟩ := JobStatus.moveTo_keeps hmoved
    rw [← hresult, ← hattempts]
    by_cases hcancelled : u.state = .cancelled
    · simp only [hcancelled, ne_eq, not_true_eq_false, ↓reduceIte]
      cases u.attempt <;> rfl
    · simp only [hcancelled, ne_eq, not_false_eq_true, ↓reduceIte]
      cases u.attempt <;> rfl

structure RowHistory where
  row : JobStatus
  taken : List StatusUpdate := []

namespace RowHistory

variable {first : JobStatus} {c : RowHistory} {u : StatusUpdate} {now : Instant}

def step (c : RowHistory) (u : StatusUpdate) (now : Instant) : RowHistory :=
  match (u.write now).run c.row with
  | (.ok _, row) => { row, taken := u :: c.taken }
  | (.error _, row) => { c with row }

def play (c : RowHistory) (updates : List (StatusUpdate × Instant)) : RowHistory :=
  updates.foldl (fun c e => c.step e.1 e.2) c

/-- What a row that started as another one says, in terms of the updates that it has taken. -/
structure Consistent (first : JobStatus) (c : RowHistory) : Prop where
  id : c.row.id = first.id
  kind : c.row.kind = first.kind
  triggered : c.row.triggered = first.triggered
  owner : c.row.owner = first.owner
  createdAt : c.row.createdAt = first.createdAt
  created : c.row.state = .created → c.taken = [] ∧ c.row = first
  running : c.row.state = .running →
    c.row.startedAt = some c.row.updatedAt ∧ c.row.finishedAt = none
  terminal : c.row.state.isTerminal → c.row.finishedAt = some c.row.updatedAt
  paired : ∀ started ∈ c.row.startedAt, ∀ finished ∈ c.row.finishedAt, started ≤ finished
  started : ∀ started ∈ c.row.startedAt,
    c.row.createdAt ≤ started ∧ started ≤ c.row.updatedAt
  finished : ∀ finished ∈ c.row.finishedAt, finished ≤ c.row.updatedAt
  changed : c.row.createdAt ≤ c.row.updatedAt
  attempts : c.row.attempts = (c.taken.findSome? (·.attempt)).getD first.attempts
  result : c.row.result =
    ((c.taken.find? (·.state ≠ .cancelled)).map (·.result)).getD first.result

theorem consistent_initial (definition : JobDefinition) (triggered : Bool) (created : Instant) :
    Consistent (.initial definition triggered created)
      { row := .initial definition triggered created } where
  id := rfl
  kind := rfl
  triggered := rfl
  owner := rfl
  createdAt := rfl
  created := fun _ => ⟨rfl, rfl⟩
  running := fun h => by cases triggered <;> cases h
  terminal := fun h => by cases triggered <;> cases h
  paired := fun _ h => nomatch h
  started := fun _ h => nomatch h
  finished := fun _ h => nomatch h
  changed := Stamp.le_refl (Stamp.ofInstant created)
  attempts := rfl
  result := rfl

private theorem step_cases (c : RowHistory) (u : StatusUpdate) (now : Instant) :
    c.step u now = c ∨
      c.row.state.canMoveTo u.state ∧
        c.step u now = { row := u.moved c.row now now, taken := u :: c.taken } := by
  unfold step
  rw [u.write_eq, u.apply_eq]
  cases hmove : c.row.state.canMoveTo u.state with
  | false => exact .inl rfl
  | true => exact .inr ⟨rfl, rfl⟩

private theorem mem_startedAt {row : JobStatus} {stamp started : Stamp}
    (h : started ∈ (u.moved row stamp stamp).startedAt) :
    u.state = .running ∧ started = stamp ∨ started ∈ row.startedAt := by
  change started ∈ if u.state = .running then some stamp else row.startedAt at h
  split at h
  next hstate => exact .inl ⟨hstate, (Option.some.inj h).symm⟩
  · exact .inr h

theorem mem_finishedAt {row : JobStatus} {stamp finished : Stamp}
    (h : finished ∈ (u.moved row stamp stamp).finishedAt) :
    u.state ≠ .running ∧ (finished = stamp ∨ finished ∈ row.finishedAt) := by
  change finished ∈ if u.state = .running then none
    else if u.state.isTerminal then some stamp else row.finishedAt at h
  split at h
  · cases h
  next hstate =>
    split at h
    · exact ⟨hstate, .inl (Option.some.inj h).symm⟩
    · exact ⟨hstate, .inr h⟩

private theorem ne_created {source target : JobState} (h : source.canMoveTo target) :
    target ≠ .created := by
  rintro rfl
  cases source <;> cases h

theorem Consistent.moved (h : Consistent first c) (hmove : c.row.state.canMoveTo u.state)
    (hlater : c.row.updatedAt ≤ Stamp.ofInstant now) :
    Consistent first { row := u.moved c.row now now, taken := u :: c.taken } where
  id := h.id
  kind := h.kind
  triggered := h.triggered
  owner := h.owner
  createdAt := h.createdAt
  created := fun hstate => absurd hstate (ne_created hmove)
  running := fun hstate => ⟨if_pos hstate, if_pos hstate⟩
  terminal := fun hterminal => by
    have hrunning : u.state ≠ .running := fun heq => by
      change u.state.isTerminal at hterminal
      rw [heq] at hterminal
      cases hterminal
    exact (if_neg hrunning).trans (if_pos hterminal)
  paired := fun started hstarted finished hfinished => by
    obtain ⟨hstate, hfinished⟩ := mem_finishedAt hfinished
    have hkept : started ∈ c.row.startedAt :=
      (mem_startedAt hstarted).resolve_left fun hnew => hstate hnew.1
    rcases hfinished with rfl | hfinished
    · exact Stamp.le_trans (h.started started hkept).2 hlater
    · exact h.paired started hkept finished hfinished
  started := fun started hstarted => by
    rcases mem_startedAt hstarted with ⟨-, rfl⟩ | hstarted
    · exact ⟨Stamp.le_trans h.changed hlater, Stamp.le_refl _⟩
    · exact ⟨(h.started started hstarted).1, Stamp.le_trans (h.started started hstarted).2 hlater⟩
  finished := fun finished hfinished => by
    obtain ⟨-, rfl | hfinished⟩ := mem_finishedAt hfinished
    · exact Stamp.le_refl _
    · exact Stamp.le_trans (h.finished finished hfinished) hlater
  changed := Stamp.le_trans h.changed hlater
  attempts := by
    change u.attempt.getD c.row.attempts = _
    rw [h.attempts, List.findSome?_cons]
    cases u.attempt <;> rfl
  result := by
    change (if u.state = .cancelled then c.row.result else u.result) = _
    rw [h.result, List.find?_cons]
    by_cases hstate : u.state = .cancelled
    · simp only [hstate, ne_eq, not_true_eq_false, decide_false, ↓reduceIte]
    · simp only [hstate, ne_eq, not_false_eq_true, decide_true, ↓reduceIte, Option.map_some,
        Option.getD_some]

theorem Consistent.step (h : Consistent first c) (u : StatusUpdate)
    (hlater : c.row.updatedAt ≤ Stamp.ofInstant now) :
    Consistent first (c.step u now) ∧ (c.step u now).row.updatedAt ≤ Stamp.ofInstant now := by
  rcases c.step_cases u now with hsame | ⟨hmove, hmoved⟩
  · rw [hsame]
    exact ⟨h, hlater⟩
  · rw [hmoved]
    exact ⟨h.moved hmove hlater, Stamp.le_refl (Stamp.ofInstant now)⟩

theorem Consistent.play (h : Consistent first c) (hlater : c.row.updatedAt ≤ Stamp.ofInstant now)
    (updates : List (StatusUpdate × Instant))
    (ordered : List.IsChain (· ≤ ·) (now :: updates.map (·.2))) :
    Consistent first (c.play updates) := by
  induction updates generalizing c now with
  | nil => exact h
  | cons e rest ih =>
    obtain ⟨hnext, hrest⟩ := List.isChain_cons_cons.mp ordered
    obtain ⟨hstep, hchanged⟩ :=
      h.step e.1 (Stamp.le_trans hlater (Stamp.ofInstant_le.mpr hnext))
    exact ih hstep hchanged hrest

/-- The row of any definition stays consistent whatever updates are written into it, as long as the
clock does not go back, and one that is refused leaves it as it is. -/
theorem stamps_consistent (definition : JobDefinition) (triggered : Bool) (created : Instant)
    (updates : List (StatusUpdate × Instant))
    (ordered : List.IsChain (· ≤ ·) (created :: updates.map (·.2))) :
    let first := JobStatus.initial definition triggered created
    let ended := RowHistory.play { row := first } updates
    Consistent first ended ∧
      ∀ (u : StatusUpdate) (now : Instant) (e : LedgerError) (row : JobStatus),
        (u.write now).run ended.row = (.error e, row) → row = ended.row := by
  intro first ended
  refine ⟨(consistent_initial definition triggered created).play (Stamp.le_refl _) updates ordered,
    fun u now e row hrefused => ?_⟩
  rw [u.write_eq] at hrefused
  cases happlied : u.apply ended.row now with
  | ok moved =>
    rw [happlied] at hrefused
    cases hrefused
  | error e' =>
    rw [happlied] at hrefused
    exact (Prod.mk.inj hrefused).2.symm

/-- A job is started, fails, is started again and cancelled while it runs, and then a late report
of its end is refused. -/
theorem cancelled_while_running :
    let second (n : Nat) := Instant.epoch.plus (Duration.ofSeconds n)
    let first := JobStatus.initial { key := ⟨"daily"⟩, kind := "report" } true .epoch
    let updates : List (StatusUpdate × Instant) :=
      [(.running 0, second 1), (.failed "lost", second 2), (.running 1, second 3),
        (.cancelled, second 4), (.finished, second 5)]
    let ended := RowHistory.play { row := first } updates
    List.IsChain (· ≤ ·) (Instant.epoch :: updates.map (·.2)) ∧ Consistent first ended ∧
      ended.taken.length = 4 ∧ ended.row.attempts = 1 ∧ ended.row.result = none ∧
      ended.row.finishedAt = some (Stamp.ofInstant (second 4)) := by
  intro second first updates ended
  have ordered : List.IsChain (· ≤ ·) (Instant.epoch :: updates.map (·.2)) := by decide
  exact ⟨ordered, (stamps_consistent { key := ⟨"daily"⟩, kind := "report" } true .epoch updates
    ordered).1, by decide, by decide, by decide, by decide⟩

end RowHistory

end JobEngine
