import JobEngine.Ledger.Memory
import JobEngine.Proofs.Queue
/-! The rows of a ledger in memory, under the calls that write to it. A row that was cancelled stays
cancelled, and a call for one key leaves the rows of the others alone. -/

namespace JobEngine

theorem JobState.of_not_canMoveTo {a b : JobState} (h : a.canMoveTo b = false) :
    a = .cancelled ∨ b = .created ∨ a = .created ∧ b = .finished := by
  revert h
  cases a <;> cases b <;> decide

/-- What the attempts at a job leave in its row. -/
structure Progress where
  state : JobState
  result : Option String
  attempts : Nat
  startedAt : Option Stamp
  finishedAt : Option Stamp
  deriving DecidableEq

def JobStatus.progress (row : JobStatus) : Progress :=
  { state := row.state, result := row.result, attempts := row.attempts
    startedAt := row.startedAt, finishedAt := row.finishedAt }

def StatusUpdate.moved (u : StatusUpdate) (row : JobStatus) (stamp changed : Stamp) : JobStatus :=
  { row with
    state := u.state
    result := if u.state = .cancelled then row.result else u.result
    attempts := u.attempt.getD row.attempts
    updatedAt := changed
    startedAt := if u.state = .running then some stamp else row.startedAt
    finishedAt :=
      if u.state = .running then none
      else if u.state.isTerminal then some stamp else row.finishedAt }

theorem StatusUpdate.apply_eq (u : StatusUpdate) (row : JobStatus) (now : Instant) :
    u.apply row now =
      if row.state.canMoveTo u.state then .ok (u.moved row now now)
      else .error (.invalidTransition row.id row.state u.state) := by
  unfold apply JobStatus.moveTo
  cases row.state.canMoveTo u.state <;> rfl

theorem Assoc.length_put {α : Type u} {β : Type v} [DecidableEq α] (m : Assoc α β) (a : α) (b : β) :
    (m.put a b).length = if m.has a then m.length else m.length + 1 := by
  induction m with
  | nil => rfl
  | cons e rest ih =>
    by_cases h : e.1 = a
    · simp [put, has, get?, h]
    · have hhas : has (e :: rest) a = has rest a := by simp [has, get?, h]
      rw [hhas]
      simp only [put, h, ↓reduceIte, List.length_cons, ih]
      split <;> rfl

namespace MemoryLedger

variable {l l' : MemoryLedger} {key k : JobKey} {row : JobStatus} {now : Instant}

def Cancelled (l : MemoryLedger) (key : JobKey) : Prop :=
  ∃ row, l.get? key = some row ∧ row.state = .cancelled

@[simp] theorem get?_put (l : MemoryLedger) (row : JobStatus) (key : JobKey) :
    (l.put row).get? key = if row.id = key then some row else l.get? key :=
  Assoc.get?_put l.rows row.id key row

theorem Cancelled.put (h : Cancelled l key) (hrow : row.id = key → row.state = .cancelled) :
    Cancelled (l.put row) key := by
  unfold Cancelled
  rw [get?_put]
  split
  next hid => exact ⟨row, rfl, hrow hid⟩
  · exact h

theorem create_ok (h : l.create row = .ok l') : l.get? row.id = none ∧ l' = l.put row := by
  unfold create at h
  split at h
  · cases h
  next hrow =>
    cases h
    exact ⟨Option.not_isSome_iff_eq_none.mp hrow, rfl⟩

theorem transition_ok {u : StatusUpdate} {r : JobStatus × MemoryLedger}
    (h : l.transition key u now = .ok r) :
    ∃ row, l.get? key = some row ∧ u.apply row now = .ok r.1 ∧
      r.2 = { rows := l.rows.put key r.1 } := by
  unfold transition at h
  split at h
  · cases h
  next row hrow =>
    cases hmoved : u.apply row now with
    | error e =>
      rw [hmoved] at h
      cases h
    | ok moved =>
      rw [hmoved] at h
      cases h
      exact ⟨row, hrow, hmoved, rfl⟩

/-- How a ledger answers when a transition is asked of it, and what it holds then. -/
inductive Answers (l : MemoryLedger) (key : JobKey) (u : StatusUpdate) :
    Except LedgerError JobStatus → MemoryLedger → Prop where
  | missing (hnone : l.get? key = none) : Answers l key u (.error (.notFound key)) l
  | refused {row : JobStatus} (hrow : l.get? key = some row)
      (hstate : row.state.canMoveTo u.state = false) :
      Answers l key u (.error (.invalidTransition row.id row.state u.state)) l
  | moved {row moved : JobStatus} {now : Instant} (hrow : l.get? key = some row)
      (hmoved : u.apply row now = .ok moved) :
      Answers l key u (.ok moved) { rows := l.rows.put key moved }

theorem answers_attempt (l : MemoryLedger) (key : JobKey) (u : StatusUpdate) (now : Instant) :
    Answers l key u (attempt (·.transition key u now) l).1
      (attempt (·.transition key u now) l).2 := by
  unfold attempt transition
  cases hrow : l.get? key with
  | none =>
    simp only [hrow]
    exact .missing hrow
  | some row =>
    simp only [hrow]
    cases hmoved : u.apply row now with
    | ok moved => exact .moved hrow hmoved
    | error e =>
      unfold StatusUpdate.apply JobStatus.moveTo at hmoved
      split at hmoved
      next hnone =>
        cases hmoved
        split at hnone
        · cases hnone
        next hstate => exact .refused hrow (Bool.eq_false_iff.mpr hstate)
      · cases hmoved

theorem Answers.get?_of_ne {u : StatusUpdate} {r : Except LedgerError JobStatus}
    (h : Answers l key u r l') (hne : key ≠ k) : l'.get? k = l.get? k := by
  cases h with
  | missing hnone => rfl
  | refused hrow hstate => rfl
  | moved hrow hmoved => exact Assoc.get?_put_of_ne l.rows _ hne

theorem apply_ok {u : StatusUpdate} {moved : JobStatus} (h : u.apply row now = .ok moved) :
    moved.id = row.id ∧ moved.state = u.state ∧
      moved.result = (if u.state = .cancelled then row.result else u.result) ∧
      moved.attempts = u.attempt.getD row.attempts ∧
      moved.finishedAt = if u.state = .running then none
        else if u.state.isTerminal then some (Stamp.ofInstant now) else row.finishedAt := by
  unfold StatusUpdate.apply JobStatus.moveTo at h
  split at h
  · cases h
  next moved hmove =>
    split at hmove
    · cases hmove
      cases h
      exact ⟨rfl, rfl, rfl, rfl, rfl⟩
    · cases hmove

theorem apply_cancelled (h : row.state = .cancelled) (u : StatusUpdate) :
    u.apply row now = .error (.invalidTransition row.id .cancelled u.state) := by
  unfold StatusUpdate.apply JobStatus.moveTo
  rw [h]
  rfl

theorem transition_cancelled (h : Cancelled l key) (u : StatusUpdate) (now : Instant) :
    ∃ row, l.transition key u now = .error (.invalidTransition row .cancelled u.state) := by
  obtain ⟨row, hrow, hstate⟩ := h
  unfold transition
  rw [hrow]
  exact ⟨row.id, congrArg (Except.map _) (apply_cancelled hstate u)⟩

theorem Cancelled.create (h : Cancelled l key) (hl : l.create row = .ok l') : Cancelled l' key := by
  obtain ⟨hnone, rfl⟩ := create_ok hl
  apply h.put
  intro hid
  obtain ⟨old, hold, -⟩ := h
  rw [hid, hold] at hnone
  cases hnone

theorem Cancelled.merge (h : Cancelled l key) : Cancelled (l.merge row now).2 key := by
  apply h.put
  intro hid
  obtain ⟨old, hold, hstate⟩ := h
  unfold mergedRow at hid ⊢
  split at hid
  next hnone =>
    rw [hid, hold] at hnone
    cases hnone
  next other hother =>
    split at hid
    next hcancelled => simp only [hcancelled, ↓reduceIte]
    next hcancelled =>
      have hkey : row.id = key := hid
      rw [hkey, hold] at hother
      cases hother
      exact absurd hstate hcancelled

theorem Cancelled.transition (h : Cancelled l key) {u : StatusUpdate} {r : JobStatus × MemoryLedger}
    (hl : l.transition k u now = .ok r) : Cancelled r.2 key := by
  obtain ⟨row, hrow, hmoved, heq⟩ := transition_ok hl
  obtain ⟨old, hold, hstate⟩ := h
  have hne : k ≠ key := fun hkey => by
    rw [hkey, hold] at hrow
    cases hrow
    rw [apply_cancelled hstate u] at hmoved
    cases hmoved
  refine ⟨old, ?_, hstate⟩
  rw [heq]
  exact (Assoc.get?_put_of_ne l.rows r.1 hne).trans hold

theorem cancelled_of_ok {r : JobStatus × MemoryLedger}
    (h : l.transition key .cancelled now = .ok r) : Cancelled r.2 key := by
  obtain ⟨row, hrow, hmoved, heq⟩ := transition_ok h
  refine ⟨r.1, ?_, (apply_ok hmoved).2.1⟩
  rw [heq]
  exact Assoc.get?_put_self l.rows key r.1

def Filed (l : MemoryLedger) : Prop := ∀ key row, l.get? key = some row → row.id = key

theorem filed_empty : ({} : MemoryLedger).Filed := by
  intro key row hrow
  cases hrow

theorem Filed.put (h : l.Filed) (row : JobStatus) : (l.put row).Filed := by
  intro key kept hkept
  rw [get?_put] at hkept
  split at hkept
  next hid =>
    cases hkept
    exact hid
  · exact h key kept hkept

theorem Filed.create (h : l.Filed) (hl : l.create row = .ok l') : l'.Filed := by
  obtain ⟨-, rfl⟩ := create_ok hl
  exact h.put row

theorem Filed.merge (h : l.Filed) : (l.merge row now).2.Filed := h.put _

theorem Filed.moved (h : l.Filed) {u : StatusUpdate} {moved : JobStatus}
    (hrow : l.get? key = some row) (hmoved : u.apply row now = .ok moved) :
    { rows := l.rows.put key moved } = l.put moved := by
  have hid : moved.id = key := (apply_ok hmoved).1.trans (h key row hrow)
  unfold MemoryLedger.put
  rw [hid]

theorem Filed.transition (h : l.Filed) {u : StatusUpdate} {r : JobStatus × MemoryLedger}
    (hl : l.transition key u now = .ok r) : r.2.Filed := by
  obtain ⟨row, hrow, hmoved, heq⟩ := transition_ok hl
  rw [heq, h.moved hrow hmoved]
  exact h.put r.1

theorem Answers.of_movable {u : StatusUpdate} {answer : Except LedgerError JobStatus}
    (h : Answers l key u answer l') (hrow : l.get? key = some row)
    (hmove : row.state.canMoveTo u.state) :
    ∃ now moved, u.apply row now = .ok moved ∧ answer = .ok moved ∧
      l' = { rows := l.rows.put key moved } := by
  cases h with
  | missing hnone => cases hrow.symm.trans hnone
  | refused hrow' hstate =>
    cases hrow.symm.trans hrow'
    cases hmove.symm.trans hstate
  | moved hrow' hmoved =>
    cases hrow.symm.trans hrow'
    exact ⟨_, _, hmoved, rfl, rfl⟩

theorem merge_of_some {old : JobStatus} (hold : l.get? row.id = some old) (now : Instant) :
    l.merge row now =
      let kept := if old.state = .cancelled then old
        else { row with createdAt := old.createdAt, updatedAt := now }
      (kept, l.put kept) := by
  unfold merge
  rw [hold]
  rfl

theorem merge_own (hrow : l.get? row.id = some row) (now : Instant) :
    l.merge row now =
      let kept :=
        { row with updatedAt := if row.state = .cancelled then row.updatedAt else now }
      (kept, l.put kept) := by
  rw [merge_of_some hrow now]
  by_cases hcancelled : row.state = .cancelled
  · rw [if_pos hcancelled, if_pos hcancelled]
  · rw [if_neg hcancelled, if_neg hcancelled]

theorem get?_put_own (l : MemoryLedger) (hid : row.id = key) : (l.put row).get? key = some row := by
  rw [get?_put]
  exact if_pos hid

private theorem size_put (l : MemoryLedger) (row : JobStatus) :
    (l.put row).size = if (l.get? row.id).isSome then l.size else l.size + 1 :=
  l.rows.length_put row.id row

theorem size_put_of_some {old : JobStatus} (hid : row.id = key) (hold : l.get? key = some old) :
    (l.put row).size = l.size := by
  rw [size_put, hid, hold]
  rfl

theorem size_put_of_none (hid : row.id = key) (hnone : l.get? key = none) :
    (l.put row).size = l.size + 1 := by
  rw [size_put, hid, hnone]
  rfl

end MemoryLedger

end JobEngine
