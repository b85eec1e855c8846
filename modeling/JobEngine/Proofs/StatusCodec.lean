import JobEngine.Proofs.Bookkeeping
import JobEngine.Proofs.Refinement
/-! The columns of a status as a statement binds them, and the reading of a row. What was bound
reads as the status again, and every row that holds what no status can is refused as a storage
error. -/

namespace JobEngine

/-- The columns of a row with its times as they are given, before a table cuts them. -/
structure StatusValues where
  id : String
  kind : String
  state : String
  triggered : Bool
  owner : Option String
  result : Option String
  attempts : Int
  createdAt : Stamp
  updatedAt : Stamp
  startedAt : Option Stamp
  finishedAt : Option Stamp
  deriving DecidableEq

namespace StatusValues

def of (s : JobStatus) : StatusValues where
  id := s.id.text
  kind := s.kind
  state := s.state.name
  triggered := s.triggered
  owner := s.owner.map (·.text)
  result := s.result
  attempts := s.attempts
  createdAt := s.createdAt
  updatedAt := s.updatedAt
  startedAt := s.startedAt
  finishedAt := s.finishedAt

def bind (s : JobStatus) : Except LedgerError StatusValues := do
  let attempts ← StatusRow.attemptsColumn s.attempts
  return { of s with attempts }

def read (r : StatusValues) : Except LedgerError JobStatus := do
  let id ← (JobKey.ofText r.id).mapError fun e => .storage ("invalid job key: " ++ e.message)
  let state ← (JobState.ofName r.state).mapError fun e => .storage e.message
  let owner ← (StatusRow.ofColumn TenantKey.ofText r.owner).mapError fun e =>
    .storage ("invalid owner id: " ++ e.message)
  if r.attempts < 0 then
    throw (.storage ("negative attempt count " ++ toString r.attempts))
  return {
    id
    kind := r.kind
    state
    triggered := r.triggered
    owner
    result := r.result
    attempts := r.attempts.toNat
    createdAt := r.createdAt
    updatedAt := r.updatedAt
    startedAt := r.startedAt
    finishedAt := r.finishedAt }

def stored (r : StatusValues) : StatusRow where
  id := r.id
  kind := r.kind
  state := r.state
  triggered := r.triggered
  owner := r.owner
  result := r.result
  attempts := r.attempts
  createdAt := r.createdAt.stored
  updatedAt := r.updatedAt.stored
  startedAt := r.startedAt.map Stamp.stored
  finishedAt := r.finishedAt.map Stamp.stored

def ofRow (r : StatusRow) : StatusValues where
  id := r.id
  kind := r.kind
  state := r.state
  triggered := r.triggered
  owner := r.owner
  result := r.result
  attempts := r.attempts
  createdAt := r.createdAt
  updatedAt := r.updatedAt
  startedAt := r.startedAt.map Stamp.ofInstant
  finishedAt := r.finishedAt.map Stamp.ofInstant

def Unreadable (r : StatusValues) : Prop :=
  Text.isBlank r.id ∨ (∀ state : JobState, r.state ≠ state.name) ∨
    (∃ owner ∈ r.owner, Text.isBlank owner) ∨ r.attempts < 0

end StatusValues

namespace StatusRow

private theorem ofStatus_eq_stored (s : JobStatus) :
    ofStatus s = (StatusValues.bind s).map StatusValues.stored := by
  unfold ofStatus StatusValues.bind
  cases attemptsColumn s.attempts <;> rfl

private theorem toStatus_eq_read (r : StatusRow) : r.toStatus = (StatusValues.ofRow r).read := rfl

private theorem attemptsColumn_of_le {n : Nat} (h : n ≤ maxAttempts) :
    attemptsColumn n = .ok n := if_pos h

private theorem attemptsColumn_of_gt {n : Nat} (h : maxAttempts < n) :
    attemptsColumn n = .error (.storage ("attempt count " ++ toString n ++ " out of range")) :=
  if_neg (Nat.not_le.mpr h)

end StatusRow

theorem JobState.ofName_cases (name : String) :
    ((∀ state : JobState, name ≠ state.name) ∧ ∃ e, ofName name = .error e) ∨
      ∃ state : JobState, name = state.name ∧ ofName name = .ok state := by
  cases hread : ofName name with
  | ok state => exact .inr ⟨state, (name_of_ofName hread).symm, rfl⟩
  | error e =>
    refine .inl ⟨fun state hstate => ?_, e, rfl⟩
    rw [hstate, ofName_name] at hread
    cases hread

theorem StatusRow.owner_cases (o : Option String) :
    ((∃ owner ∈ o, Text.isBlank owner) ∧ ∃ e, ofColumn TenantKey.ofText o = .error e) ∨
      (¬(∃ owner ∈ o, Text.isBlank owner) ∧
        ofColumn TenantKey.ofText o = .ok (o.map fun owner => ⟨Text.trim owner⟩)) := by
  cases o with
  | none => exact .inr ⟨by simp, rfl⟩
  | some owner =>
    obtain ⟨hblank, e, he⟩ | ⟨hfull, hread⟩ := TenantKey.ofText_cases owner
    · refine .inl ⟨⟨owner, rfl, hblank⟩, e, ?_⟩
      change (TenantKey.ofText owner).map some = _
      rw [he]
      rfl
    · refine .inr ⟨by simpa using hfull, ?_⟩
      change (TenantKey.ofText owner).map some = _
      rw [hread]
      rfl

namespace StatusValues

def status (r : StatusValues) (state : JobState) : JobStatus where
  id := ⟨r.id⟩
  kind := r.kind
  state
  triggered := r.triggered
  owner := r.owner.map fun owner => ⟨Text.trim owner⟩
  result := r.result
  attempts := r.attempts.toNat
  createdAt := r.createdAt
  updatedAt := r.updatedAt
  startedAt := r.startedAt
  finishedAt := r.finishedAt

theorem read_cases (r : StatusValues) :
    (r.Unreadable ∧ ∃ text, r.read = .error (.storage text)) ∨
      (¬r.Unreadable ∧
        ∃ state : JobState, r.state = state.name ∧ r.read = .ok (r.status state)) := by
  unfold read Unreadable
  obtain ⟨hid, e, hread⟩ | ⟨hid, hread⟩ := JobKey.ofText_cases r.id
  · exact .inl ⟨.inl hid, _, by rw [hread]; rfl⟩
  rw [hread]
  obtain ⟨hstate, e, hread⟩ | ⟨state, hstate, hread⟩ := JobState.ofName_cases r.state
  · exact .inl ⟨.inr (.inl hstate), _, by rw [hread]; rfl⟩
  rw [hread]
  obtain ⟨howner, e, hread⟩ | ⟨howner, hread⟩ := StatusRow.owner_cases r.owner
  · exact .inl ⟨.inr (.inr (.inl howner)), _, by rw [hread]; rfl⟩
  rw [hread]
  by_cases hattempts : r.attempts < 0
  · exact .inl ⟨.inr (.inr (.inr hattempts)), _, by simp only [hattempts]; rfl⟩
  · refine .inr ⟨?_, state, hstate, by simp only [hattempts]; rfl⟩
    rintro (h | h | h | h)
    · exact hid h
    · exact h state hstate
    · exact howner h
    · exact hattempts h

theorem of_status {r : StatusValues} {state : JobState} (hstate : r.state = state.name)
    (hattempts : 0 ≤ r.attempts) :
    of (r.status state) = { r with owner := r.owner.map Text.trim } := by
  have howner : (r.owner.map fun owner => (⟨Text.trim owner⟩ : TenantKey)).map (·.text) =
      r.owner.map Text.trim := Option.map_map ..
  unfold of status
  simp only [howner, hstate, Int.toNat_of_nonneg hattempts]

private theorem bind_of_le {s : JobStatus} (h : s.attempts ≤ StatusRow.maxAttempts) :
    bind s = .ok (of s) := by
  unfold bind
  rw [StatusRow.attemptsColumn_of_le h]
  rfl

private theorem read_of {s : JobStatus} (hkey : ∃ text, JobKey.ofText text = .ok s.id)
    (howner : ∀ o ∈ s.owner, ∃ text, TenantKey.ofText text = .ok o) : (of s).read = .ok s := by
  obtain ⟨text, hkey⟩ := hkey
  have hattempts : ¬(s.attempts : Int) < 0 := by omega
  unfold read of
  simp only [JobKey.ofText_text hkey, JobState.ofName_name, StatusRow.ofColumn_owner howner,
    hattempts, Except.mapError, Bind.bind, Except.bind, ↓reduceIte, Int.toNat_natCast]
  rfl

end StatusValues

def JobStatus.beyondColumn (s : JobStatus) : LedgerError :=
  .storage ("attempt count " ++ toString s.attempts ++ " out of range")

theorem StatusRow.ofStatus_of_gt {s : JobStatus} (h : maxAttempts < s.attempts) :
    ofStatus s = .error s.beyondColumn := by
  unfold ofStatus
  rw [attemptsColumn_of_gt h]
  rfl

namespace DatabasePool

variable {σ α : Type} {q : Part σ DatabasePool} {thread : ThreadName}

theorem run_still {program : StateM Connection α} {x : α} (h : ∀ c, program.run c = (x, c))
    (thread : ThreadName) (time : Instant) (p : DatabasePool) :
    run thread time program p = (some x, p) ∨ run thread time program p = (none, p) := by
  unfold run
  cases hheld : p.held.get? thread with
  | some session =>
    simp only [h, Assoc.put_of_get? hheld]
    exact .inl trivial
  | none =>
    cases hclosed : p.isClosed with
    | true => exact .inr rfl
    | false =>
      simp only [h, Bool.false_eq_true, ↓reduceIte]
      rw [← hclosed]
      exact .inl rfl

theorem call_refused (lawful : ∀ p a, q.get (q.put p a) = p) {program : Query LedgerError α}
    {text : String} (h : ∀ c, program.run.run c = (.error (.storage text), c))
    (thread : ThreadName) (k : Host σ) :
    (∃ text, (call q thread .storage program k).1 = .error (.storage text)) ∧
      q.get (call q thread .storage program k).2.app = q.get k.app := by
  rw [call_run]
  obtain hrun | hrun := run_still h thread (k.clock.plus Act.tick) (q.get k.app)
  · rw [hrun]
    exact ⟨⟨text, rfl⟩, lawful _ _⟩
  · rw [hrun]
    exact ⟨⟨_, rfl⟩, lawful _ _⟩

theorem create_of_error {s : JobStatus} {k : Host σ} {e : LedgerError}
    (h : (call q thread .storage (DatabaseLedger.create s) k).1 = .error e) :
    (ledger q thread).create s k =
      (.error e, (call q thread .storage (DatabaseLedger.create s) k).2) := by
  change (do
    if (call q thread .storage (DatabaseLedger.create s) k).1.toOption.isSome then
      Act.log .infra .debug "status row created"
        [("job_id", .shown s.id.text), ("state", .shown s.state.name)]
    return (call q thread .storage (DatabaseLedger.create s) k).1 : Act σ _)
    (call q thread .storage (DatabaseLedger.create s) k).2 = _
  rw [h]
  rfl

end DatabasePool

/-- The status is refused as a storage error, whatever is asked for and whatever the database holds,
and nothing is written. -/
structure JobStatus.Refused (s : JobStatus) : Prop where
  bound : StatusValues.bind s = .error s.beyondColumn
  created : ∀ c, (DatabaseLedger.create s).run.run c = (.error s.beyondColumn, c)
  merged : ∀ c, (DatabaseLedger.merge s).run.run c = (.error s.beyondColumn, c)
  moved : ∀ {d rows row key time now later} (u : StatusUpdate), d.Holds rows →
    rows.find? (·.id = key) = some row → row.state.canMoveTo u.state →
    u.attempt = some s.attempts →
    (DatabaseLedger.transition key u now later).Does d time (.error s.beyondColumn) rows
  ledger : ∀ {σ : Type} (q : Part σ DatabasePool) (thread : ThreadName),
    (∀ p a, q.get (q.put p a) = p) → ∀ k,
    let created := (DatabasePool.ledger q thread).create s k
    let merged := (DatabasePool.ledger q thread).merge s k
    ((∃ text, created.1 = .error (.storage text)) ∧ q.get created.2.app = q.get k.app) ∧
      (∃ text, merged.1 = .error (.storage text)) ∧ q.get merged.2.app = q.get k.app

theorem JobStatus.refused {s : JobStatus} (h : StatusRow.maxAttempts < s.attempts) : s.Refused := by
  have hcreate : ∀ c, (DatabaseLedger.create s).run.run c = (.error s.beyondColumn, c) := by
    intro c
    unfold DatabaseLedger.create
    rw [StatusRow.ofStatus_of_gt h]
    rfl
  have hmerge : ∀ c, (DatabaseLedger.merge s).run.run c = (.error s.beyondColumn, c) := by
    intro c
    unfold DatabaseLedger.merge
    rw [StatusRow.ofStatus_of_gt h]
    rfl
  constructor
  · unfold StatusValues.bind
    rw [StatusRow.attemptsColumn_of_gt h]
    rfl
  · exact hcreate
  · exact hmerge
  · exact fun u table hrow hstate hattempt =>
      DatabaseLedger.transition_of_unwritable table hrow hstate hattempt h
  · intro σ q thread lawful k
    obtain ⟨⟨text, hanswer⟩, hpool⟩ := DatabasePool.call_refused lawful hcreate thread k
    have hmerged := DatabasePool.call_refused lawful hmerge thread k
    intro created merged
    have hcreated : created = _ := DatabasePool.create_of_error hanswer
    rw [hcreated]
    exact ⟨⟨⟨text, rfl⟩, hpool⟩, hmerged⟩

/-- What reading a row comes to. -/
structure StatusValues.Decoded (r : StatusValues) : Prop where
  refused : (∃ text, r.read = .error (.storage text)) ↔ r.Unreadable
  accepted : ¬r.Unreadable → ∃ s, r.read = .ok s ∧ of s = { r with owner := r.owner.map Text.trim }

theorem StatusValues.decoded (r : StatusValues) : r.Decoded := by
  obtain ⟨hbad, text, hread⟩ | ⟨hgood, state, hstate, hread⟩ := r.read_cases
  · exact ⟨⟨fun _ => hbad, fun _ => ⟨text, hread⟩⟩, fun hgood => absurd hbad hgood⟩
  · constructor
    · constructor
      · rintro ⟨text, herror⟩
        rw [hread] at herror
        cases herror
      · exact fun hbad => absurd hbad hgood
    · intro _
      have hattempts : 0 ≤ r.attempts := Int.not_lt.mp fun hneg =>
        hgood (.inr (.inr (.inr hneg)))
      exact ⟨_, hread, of_status hstate hattempts⟩

/-- A status that a row has room for is read as it was bound, any other is refused before anything
is written, and a row is read or refused by what its columns hold. The statements of the ledger bind
these values and read these rows. -/
theorem status_codec :
    (∀ s : JobStatus, s.Writable →
      StatusValues.bind s = .ok (.of s) ∧ (StatusValues.of s).read = .ok s) ∧
    (∀ s : JobStatus, StatusRow.maxAttempts < s.attempts → s.Refused) ∧
    (∀ r : StatusValues, r.Decoded) ∧
    (∀ s, StatusRow.ofStatus s = (StatusValues.bind s).map StatusValues.stored) ∧
    ∀ r : StatusRow, r.toStatus = (StatusValues.ofRow r).read :=
  ⟨fun _ h => ⟨StatusValues.bind_of_le h.attempts, StatusValues.read_of h.key h.owner⟩,
    fun _ h => JobStatus.refused h, StatusValues.decoded, StatusRow.ofStatus_eq_stored,
    StatusRow.toStatus_eq_read⟩

def attempted (attempts : Nat) : JobStatus where
  id := ⟨" daily "⟩
  kind := "report"
  state := .failed
  triggered := true
  owner := some ⟨"acme"⟩
  result := none
  attempts
  createdAt := Stamp.ofInstant .epoch
  updatedAt := Stamp.ofInstant .epoch
  startedAt := none
  finishedAt := none

theorem status_codec_of_attempted :
    (StatusValues.of (attempted 3)).read = .ok (attempted 3) ∧ (attempted (twoTo 31)).Refused ∧
      ∃ text, { StatusValues.of (attempted 3) with owner := some " \t" }.read =
        .error (.storage text) := by
  have hwritable : (attempted 3).Writable :=
    ⟨⟨" daily ", rfl⟩, fun o ho => ⟨"acme", by cases ho; rfl⟩, by decide⟩
  refine ⟨(status_codec.1 _ hwritable).2, status_codec.2.1 _ (by decide), ?_⟩
  exact (status_codec.2.2.1 _).refused.mpr (.inr (.inr (.inl ⟨_, rfl, by decide⟩)))

end JobEngine
