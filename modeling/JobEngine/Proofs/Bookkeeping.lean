import JobEngine.Proofs.Rows
/-! Calls of a ledger as data, and what a ledger in memory keeps under all of them. A key has at
most one row, which stays once it is there and keeps its age; a refused call changes nothing, and
after a cancellation nothing changes the row of the key. -/

namespace JobEngine

namespace Assoc

variable {α : Type u} {β : Type v} [DecidableEq α] {m : Assoc α β} {a : α} {b : β}

theorem mem_of_get? (h : m.get? a = some b) : (a, b) ∈ m := by
  induction m with
  | nil => cases h
  | cons e rest ih =>
    by_cases he : e.1 = a
    · simp only [get?, he, ↓reduceIte, Option.some.injEq] at h
      rw [← he, ← h]
      exact List.mem_cons_self
    · simp only [get?, he, ↓reduceIte] at h
      exact List.mem_cons_of_mem e (ih h)

theorem put_of_get? (h : m.get? a = some b) : m.put a b = m := by
  induction m with
  | nil => cases h
  | cons e rest ih =>
    by_cases he : e.1 = a
    · simp only [get?, he, ↓reduceIte, Option.some.injEq] at h
      simp only [put, he, ↓reduceIte, ← h]
      rw [← he]
    · simp only [get?, he, ↓reduceIte] at h
      simp only [put, he, ↓reduceIte, ih h]

theorem mem_put {e : α × β} (h : e ∈ m.put a b) : e = (a, b) ∨ e ∈ m := by
  induction m with
  | nil => exact .inl (List.mem_singleton.mp h)
  | cons x rest ih =>
    by_cases hx : x.1 = a
    · simp only [put, hx, ↓reduceIte, List.mem_cons] at h
      exact h.imp_right (List.mem_cons_of_mem x)
    · simp only [put, hx, ↓reduceIte, List.mem_cons] at h
      rcases h with rfl | h
      · exact .inr List.mem_cons_self
      · exact (ih h).imp_right (List.mem_cons_of_mem x)

theorem keys_put (m : Assoc α β) (a : α) (b : β) :
    (m.put a b).keys = if a ∈ m.keys then m.keys else m.keys ++ [a] := by
  induction m with
  | nil => rfl
  | cons x rest ih =>
    by_cases hx : x.1 = a
    · simp [put, keys, hx]
    · have hmem : a ∈ keys (x :: rest) ↔ a ∈ keys rest := by simp [keys, Ne.symm hx]
      have hput : (put (x :: rest) a b).keys = x.1 :: (put rest a b).keys := by
        simp [put, keys, hx]
      rw [hput, ih]
      simp only [hmem]
      split <;> rfl

theorem nodup_put (h : m.keys.Nodup) (a : α) (b : β) : (m.put a b).keys.Nodup := by
  rw [keys_put]
  split
  · exact h
  next hnew =>
    refine List.nodup_append.mpr ⟨h, List.pairwise_singleton _ a, fun k hk k' hk' hkk => ?_⟩
    rw [hkk, List.mem_singleton.mp hk'] at hk
    exact hnew hk

end Assoc

namespace StatusLedger

inductive Command where
  | create (row : JobStatus)
  | get (key : JobKey)
  | merge (row : JobStatus)
  | transition (key : JobKey) (u : StatusUpdate)
  | cancel (key : JobKey)
  | list (q : StatusQuery)
  | stats (owner : Option TenantKey)

inductive Response where
  | done
  | found (row : Option JobStatus)
  | row (row : JobStatus)
  | rows (rows : List JobStatus)
  | counts (stats : LedgerStats)

def Command.target : Command → Option JobKey
  | .create row | .merge row => some row.id
  | .transition key _ | .cancel key => some key
  | .get _ | .list _ | .stats _ => none

variable {σ : Type}

def ask (ledger : StatusLedger σ) : Command → Act σ (Except LedgerError Response)
  | .create row => return (← ledger.create row).map fun _ => .done
  | .get key => return (← ledger.get key).map .found
  | .merge row => return (← ledger.merge row).map .row
  | .transition key u => return (← ledger.transition key u).map .row
  | .cancel key => return (← ledger.cancel key).map .row
  | .list q => return (← ledger.list q).map .rows
  | .stats owner => return (← ledger.stats owner).map .counts

structure Exchange where
  since : Instant
  answer : Except LedgerError Response
  upto : Instant

def exchange (ledger : StatusLedger σ) (call : Command) : Act σ Exchange := fun h =>
  let r := ledger.ask call h
  ({ since := h.clock, answer := r.1, upto := r.2.clock }, r.2)

def askAll (ledger : StatusLedger σ) : List Command → Act σ (List Exchange)
  | [] => pure []
  | call :: rest => do
    let first ← ledger.exchange call
    return first :: (← ledger.askAll rest)

end StatusLedger

theorem Instant.le_plus (t : Instant) (d : Duration) : t ≤ t.plus d := by
  unfold plus shift?
  cases hshift : ofNanos? (t.nanos + d.nanos) with
  | none => exact t.le_max
  | some later =>
    have hnanos := ofNanos?_eq_some_iff.mp hshift
    change t.nanos ≤ later.nanos
    omega

namespace MemoryLedger

open StatusLedger (Command Response)

variable {σ : Type} {l l' l'' : MemoryLedger} {key : JobKey} {row : JobStatus} {now : Instant}

structure Sound (l : MemoryLedger) : Prop where
  distinct : l.rows.keys.Nodup
  own : ∀ e ∈ l.rows, e.2.id = e.1

structure Persists (l l' : MemoryLedger) : Prop where
  stays : ∀ key row, l.get? key = some row →
    ∃ later, l'.get? key = some later ∧ later.createdAt = row.createdAt
  cancelled : ∀ key row, l.get? key = some row → row.state = .cancelled → l'.get? key = some row

/-- What one call of a ledger may do to it: refused it changes nothing, and otherwise at most the
row of its key; writing over a cancelled row gives that row back. -/
structure Answered (l : MemoryLedger) (call : Command) (answer : Except LedgerError Response)
    (l' : MemoryLedger) : Prop where
  refused : ∀ e, answer = .error e → l' = l
  others : ∀ key, call.target ≠ some key → l'.get? key = l.get? key
  merged : ∀ row old, call = .merge row → l.get? row.id = some old → old.state = .cancelled →
    answer = .ok (.row old)

theorem sound_empty : ({} : MemoryLedger).Sound where
  distinct := List.nodup_nil
  own := fun _ he => nomatch he

theorem Sound.filed (h : l.Sound) : l.Filed := fun key row hrow =>
  h.own (key, row) (Assoc.mem_of_get? hrow)

theorem Sound.put (h : l.Sound) (row : JobStatus) : (l.put row).Sound where
  distinct := Assoc.nodup_put h.distinct row.id row
  own := fun e he => by
    rcases Assoc.mem_put he with rfl | hold
    · rfl
    · exact h.own e hold

theorem Persists.refl (l : MemoryLedger) : l.Persists l :=
  ⟨fun _ row hrow => ⟨row, hrow, rfl⟩, fun _ _ hrow _ => hrow⟩

theorem Persists.trans (h : l.Persists l') (h' : l'.Persists l'') : l.Persists l'' where
  stays := fun key row hrow => by
    obtain ⟨mid, hmid, hage⟩ := h.stays key row hrow
    obtain ⟨later, hlater, hage'⟩ := h'.stays key mid hmid
    exact ⟨later, hlater, hage'.trans hage⟩
  cancelled := fun key row hrow hstate =>
    h'.cancelled key row (h.cancelled key row hrow hstate) hstate

/-- The row may be written where the ledger has this one: it is as old, and the same when that one
is cancelled. -/
def Follows (row old : JobStatus) : Prop :=
  row.createdAt = old.createdAt ∧ (old.state = .cancelled → row = old)

theorem Persists.put (h : ∀ old, l.get? row.id = some old → Follows row old) :
    l.Persists (l.put row) where
  stays := fun key old hold => by
    rw [get?_put]
    split
    next hid => exact ⟨row, rfl, (h old (hid ▸ hold)).1⟩
    · exact ⟨old, hold, rfl⟩
  cancelled := fun key old hold hstate => by
    rw [get?_put]
    split
    next hid => rw [(h old (hid ▸ hold)).2 hstate]
    · exact hold

theorem apply_follows {u : StatusUpdate} {moved : JobStatus} (h : u.apply row now = .ok moved) :
    Follows moved row := by
  constructor
  · rw [u.apply_eq] at h
    split at h
    · cases h
      rfl
    · cases h
  · intro hstate
    rw [apply_cancelled hstate u] at h
    cases h

private theorem mergedRow_id {old : Option JobStatus}
    (hid : ∀ row', old = some row' → row'.id = row.id) :
    (mergedRow old row now).id = row.id := by
  unfold mergedRow
  split
  · rfl
  next row' =>
    split
    · exact hid row' rfl
    · rfl

private theorem mergedRow_follows {old : JobStatus} :
    Follows (mergedRow (some old) row now) old := by
  simp only [mergedRow]
  split
  · exact ⟨rfl, fun _ => rfl⟩
  next hstate => exact ⟨rfl, fun h => absurd h hstate⟩

def serve (now : Instant) (l : MemoryLedger) : Command → Except LedgerError Response × MemoryLedger
  | .create row =>
    let r := attempt (fun l => (l.create row).map ((), ·)) l
    (r.1.map fun _ => .done, r.2)
  | .get key => (.ok (.found (l.get? key)), l)
  | .merge row => (.ok (.row (l.merge row now).1), (l.merge row now).2)
  | .transition key u =>
    let r := attempt (·.transition key u now) l
    (r.1.map .row, r.2)
  | .cancel key =>
    let r := attempt (·.transition key .cancelled now) l
    (r.1.map .row, r.2)
  | .list q => (.ok (.rows (l.list q)), l)
  | .stats owner => (.ok (.counts (l.stats owner)), l)

inductive Effect (l : MemoryLedger) (call : Command) :
    Except LedgerError Response → MemoryLedger → Prop where
  | same (answer : Except LedgerError Response) : Effect l call answer l
  | wrote (row : JobStatus) (response : Response) (target : call.target = some row.id)
      (follows : ∀ old, l.get? row.id = some old → Follows row old) :
      Effect l call (.ok response) (l.put row)

theorem Answers.effect {u : StatusUpdate} {answer : Except LedgerError JobStatus}
    (h : Answers l key u answer l') (sound : l.Sound) {call : Command}
    (target : call.target = some key) : Effect l call (answer.map .row) l' := by
  cases h with
  | missing => exact .same _
  | refused => exact .same _
  | moved hrow hmoved =>
    have hid := (apply_ok hmoved).1.trans (sound.filed key _ hrow)
    rw [sound.filed.moved hrow hmoved]
    refine .wrote _ _ (target.trans (congrArg some hid.symm)) fun old hold => ?_
    rw [hid, hrow] at hold
    cases hold
    exact apply_follows hmoved

theorem serve_effect (h : l.Sound) (call : Command) (now : Instant) :
    Effect l call (serve now l call).1 (serve now l call).2 := by
  cases call with
  | get key => exact .same _
  | list q => exact .same _
  | stats owner => exact .same _
  | create row =>
    simp only [serve, attempt]
    cases hcreate : l.create row with
    | error e => exact .same _
    | ok l' =>
      obtain ⟨hnone, rfl⟩ := create_ok hcreate
      refine .wrote row _ rfl fun old hold => ?_
      rw [hnone] at hold
      cases hold
  | merge row =>
    have hid : (mergedRow (l.get? row.id) row now).id = row.id :=
      mergedRow_id fun old hold => h.filed row.id old hold
    refine .wrote _ _ (congrArg some hid.symm) fun old hold => ?_
    rw [hid] at hold
    rw [hold]
    exact mergedRow_follows
  | transition key u => exact (answers_attempt l key u now).effect h rfl
  | cancel key => exact (answers_attempt l key .cancelled now).effect h rfl

section

variable {call : Command} {answer : Except LedgerError Response} (h : Effect l call answer l')

include h

theorem Effect.sound (sound : l.Sound) : l'.Sound := by
  cases h with
  | same => exact sound
  | wrote row => exact sound.put row

theorem Effect.persists : l.Persists l' := by
  cases h with
  | same => exact .refl l
  | wrote row _ _ follows => exact .put follows

theorem Effect.refused (e : LedgerError) (herror : answer = .error e) : l' = l := by
  cases h with
  | same => rfl
  | wrote => cases herror

theorem Effect.others (key : JobKey) (hkey : call.target ≠ some key) :
    l'.get? key = l.get? key := by
  cases h with
  | same => rfl
  | wrote row _ target =>
    rw [get?_put, if_neg]
    rintro rfl
    exact hkey target

end

private theorem serve_answered (h : l.Sound) (call : Command) (now : Instant) :
    Answered l call (serve now l call).1 (serve now l call).2 where
  refused := (serve_effect h call now).refused
  others := (serve_effect h call now).others
  merged := fun row old hcall hold hstate => by
    rw [hcall, serve, merge_of_some hold]
    simp only [hstate, ↓reduceIte]

section

variable {p : Part σ MemoryLedger} (lawful : ∀ l a, p.get (p.put l a) = l)

include lawful

theorem ask_service (call : Command) (h : Host σ) : ∃ now,
    h.clock ≤ now ∧ now ≤ ((service p).ask call h).2.clock ∧
      ((service p).ask call h).1 = (serve now (p.get h.app) call).1 ∧
      p.get ((service p).ask call h).2.app = (serve now (p.get h.app) call).2 := by
  have hlater : h.clock ≤ h.clock.plus Act.tick := Instant.le_plus h.clock Act.tick
  cases call with
  | create row => exact ⟨h.clock, Int.le_refl _, Int.le_refl _, rfl, lawful _ _⟩
  | get key => exact ⟨h.clock, Int.le_refl _, Int.le_refl _, rfl, rfl⟩
  | merge row => exact ⟨_, hlater, Int.le_refl _, rfl, lawful _ _⟩
  | transition key u => exact ⟨_, hlater, Int.le_refl _, rfl, lawful _ _⟩
  | cancel key => exact ⟨_, hlater, Int.le_refl _, rfl, lawful _ _⟩
  | list q => exact ⟨h.clock, Int.le_refl _, Int.le_refl _, rfl, rfl⟩
  | stats owner => exact ⟨h.clock, Int.le_refl _, Int.le_refl _, rfl, rfl⟩

theorem ask_effect (call : Command) {h : Host σ} (sound : (p.get h.app).Sound) :
    Effect (p.get h.app) call ((service p).ask call h).1
      (p.get ((service p).ask call h).2.app) := by
  obtain ⟨now, -, -, hanswer, hledger⟩ := ask_service lawful call h
  rw [hanswer, hledger]
  exact serve_effect sound call now

/-- What one call keeps, any number of calls keep. -/
private theorem askAll_keeps (calls : List Command) {h : Host σ} (sound : (p.get h.app).Sound) :
    (p.get ((service p).askAll calls h).2.app).Sound ∧
      (p.get h.app).Persists (p.get ((service p).askAll calls h).2.app) := by
  induction calls generalizing h with
  | nil => exact ⟨sound, .refl _⟩
  | cons call rest ih =>
    have effect := ask_effect lawful call sound
    obtain ⟨hsound, hpersists⟩ := ih (effect.sound sound)
    exact ⟨hsound, effect.persists.trans hpersists⟩

end

/-- After any calls of a ledger in memory that was empty, each key has at most one row, kept under
its own id. A further call changes nothing when it is refused and only the row of its key otherwise,
and merging over a cancelled row gives that row back. Whatever calls follow, each row stays and
keeps its age, and all of a cancelled row stays as it is. -/
theorem history_kept (p : Part σ MemoryLedger) (lawful : ∀ l a, p.get (p.put l a) = l)
    {h : Host σ} (fresh : p.get h.app = {}) (front : List Command) (call : Command)
    (back : List Command) :
    let asked := (service p).askAll front h
    let answered := (service p).ask call asked.2
    let ended := (service p).askAll back answered.2
    (p.get asked.2.app).Sound ∧
      Answered (p.get asked.2.app) call answered.1 (p.get answered.2.app) ∧
      (p.get asked.2.app).Persists (p.get ended.2.app) := by
  intro asked answered ended
  have sound : (p.get asked.2.app).Sound :=
    (askAll_keeps lawful front (fresh ▸ sound_empty)).1
  have effect := ask_effect lawful call sound
  obtain ⟨now, -, -, hanswer, hledger⟩ := ask_service lawful call asked.2
  refine ⟨sound, ?_, effect.persists.trans (askAll_keeps lawful back (effect.sound sound)).2⟩
  change Answered _ call ((service p).ask call asked.2).1
    (p.get ((service p).ask call asked.2).2.app)
  rw [hanswer, hledger]
  exact serve_answered sound call now

/-- A row that was cancelled is given back when a fresh one is merged over it, and is still the same
after an attempt was reported. -/
theorem cancelled_row_kept :
    let row := JobStatus.initial { key := ⟨"daily"⟩, kind := "report" } true .epoch
    let book := service (Part.whole : Part MemoryLedger MemoryLedger)
    let asked := book.askAll [.create row, .cancel row.id] { clock := .epoch, app := {} }
    let merged := book.ask (.merge row) asked.2
    let ended := book.askAll [.transition row.id (.running 1)] merged.2
    ∃ kept, kept.state = .cancelled ∧ merged.1 = .ok (.row kept) ∧
      ended.2.app.get? row.id = some kept := by
  intro row book asked merged ended
  obtain ⟨-, answered, persists⟩ := history_kept Part.whole (fun _ _ => rfl)
    (h := { clock := .epoch, app := {} }) rfl [.create row, .cancel row.id] (.merge row)
    [.transition row.id (.running 1)]
  exact ⟨_, rfl, answered.merged row _ rfl rfl rfl, persists.cancelled row.id _ rfl rfl⟩

end MemoryLedger

end JobEngine
