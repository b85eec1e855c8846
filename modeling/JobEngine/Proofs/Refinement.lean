import JobEngine.Database.Pool
import JobEngine.Proofs.Agreement
/-! The ledger in the database refines the ledger in memory. Both are asked the same, call by call;
the rows of the one stay in step with the rows of the other, and so do the answers. -/

namespace JobEngine

open StatusLedger (Command Exchange)

variable {past later : List (Exchange × Exchange)}

namespace MemoryLedger

variable {l : MemoryLedger}

theorem get?_eq_find {m : Assoc JobKey JobStatus} (own : ∀ e ∈ m, e.2.id = e.1) (key : JobKey) :
    m.get? key = m.values.find? (·.id = key) := by
  induction m with
  | nil => rfl
  | cons e rest ih =>
    have hid : e.2.id = e.1 := own e List.mem_cons_self
    have hrest := ih fun e' he' => own e' (List.mem_cons_of_mem e he')
    by_cases hkey : e.1 = key
    · simp [Assoc.get?, Assoc.values, hkey, hid]
    · simp only [Assoc.get?, hkey, ↓reduceIte, hrest]
      simp [Assoc.values, hid, hkey]

theorem values_put {m : Assoc JobKey JobStatus} (distinct : m.keys.Nodup)
    (own : ∀ e ∈ m, e.2.id = e.1) (row : JobStatus) :
    (m.put row.id row).values =
      if (m.get? row.id).isSome then JobStatus.replace m.values row else m.values ++ [row] := by
  induction m with
  | nil => rfl
  | cons e rest ih =>
    have hid : e.2.id = e.1 := own e List.mem_cons_self
    have hown : ∀ e' ∈ rest, e'.2.id = e'.1 := fun e' he' => own e' (List.mem_cons_of_mem e he')
    obtain ⟨hnew, hdistinct⟩ := List.nodup_cons.mp distinct
    have hrest := ih hdistinct hown
    by_cases hkey : e.1 = row.id
    · have hothers : JobStatus.replace (Assoc.values rest) row = Assoc.values rest := by
        refine (List.map_congr_left fun r hr => ?_).trans (List.map_id _)
        obtain ⟨e', he', rfl⟩ := List.mem_map.mp hr
        refine if_neg fun hsame => hnew ?_
        have hkeys : e'.1 = e.1 := (hown e' he').symm.trans (hsame.trans hkey.symm)
        exact List.mem_map.mpr ⟨e', he', hkeys⟩
      have hvalues : JobStatus.replace (Assoc.values (e :: rest)) row =
          (if e.2.id = row.id then row else e.2) :: JobStatus.replace (Assoc.values rest) row := rfl
      rw [hvalues, hothers, hid, if_pos hkey]
      simp [Assoc.put, Assoc.get?, Assoc.values, hkey]
    · have hput : (Assoc.put (e :: rest) row.id row).values =
          e.2 :: (Assoc.put rest row.id row).values := by
        simp [Assoc.put, Assoc.values, hkey]
      have hget : Assoc.get? (e :: rest) row.id = Assoc.get? rest row.id := by
        simp [Assoc.get?, hkey]
      rw [hput, hget, hrest]
      split
      · simp [JobStatus.replace, Assoc.values, hid, hkey]
      · rfl

end MemoryLedger

/-- The rows in memory are in step with the rows of a table. -/
structure InStep (past : List (Exchange × Exchange)) (l : MemoryLedger) (rows : List JobStatus) :
    Prop where
  sound : l.Sound
  agree : List.Forall₂ (JobStatus.Agree past) l.rows.values rows

namespace InStep

variable {l : MemoryLedger} {rows : List JobStatus}

theorem mono (h : InStep past l rows) (hsub : past ⊆ later) : InStep later l rows :=
  ⟨h.sound, h.agree.imp fun _ _ hab => hab.mono hsub⟩

theorem get (h : InStep past l rows) (key : JobKey) :
    Option.Rel (JobStatus.Agree past) (l.get? key) (rows.find? (·.id = key)) := by
  have hget : l.get? key = l.rows.values.find? (·.id = key) :=
    MemoryLedger.get?_eq_find h.sound.own key
  rw [hget]
  exact find_agree h.agree key

theorem get_none (h : InStep past l rows) {key : JobKey} (hnone : rows.find? (·.id = key) = none) :
    l.get? key = none := by
  have hget := h.get key
  rw [hnone] at hget
  cases hrow : l.get? key with
  | none => rfl
  | some row =>
    rw [hrow] at hget
    cases hget

theorem get_some (h : InStep past l rows) {key : JobKey} {b : JobStatus}
    (hold : rows.find? (·.id = key) = some b) :
    ∃ a, l.get? key = some a ∧ JobStatus.Agree past a b := by
  have hget := h.get key
  rw [hold] at hget
  cases hrow : l.get? key with
  | none =>
    rw [hrow] at hget
    cases hget
  | some a =>
    rw [hrow] at hget
    cases hget with
    | some hab => exact ⟨a, rfl, hab⟩

variable {a b : JobStatus}

theorem values_put (h : InStep past l rows) (row : JobStatus) :
    (l.put row).rows.values =
      if (l.get? row.id).isSome then JobStatus.replace l.rows.values row
      else l.rows.values ++ [row] :=
  MemoryLedger.values_put h.sound.distinct h.sound.own row

theorem add (h : InStep past l rows) (hab : JobStatus.Agree past a b)
    (hnone : l.get? a.id = none) : InStep past (l.put a) (rows ++ [b]) := by
  refine ⟨h.sound.put a, ?_⟩
  rw [h.values_put, hnone]
  exact append_agree h.agree hab

theorem replace (h : InStep past l rows) (hab : JobStatus.Agree past a b) {old : JobStatus}
    (hold : l.get? a.id = some old) : InStep past (l.put a) (JobStatus.replace rows b) := by
  refine ⟨h.sound.put a, ?_⟩
  rw [h.values_put, hold]
  exact replace_agree h.agree hab

end InStep

def StatusLedger.Command.moves : Command → Option (JobKey × StatusUpdate)
  | .transition key u => some (key, u)
  | .cancel key => some (key, .cancelled)
  | _ => none

/-- What a call of the ledger in the database comes to, by the times that the clock shows meanwhile,
and the rows of the table afterwards. -/
inductive Served (reads : Instant → Prop) (rows : List JobStatus) :
    Command → Except LedgerError StatusLedger.Response → List JobStatus → Prop where
  | present {row old : JobStatus} (hold : rows.find? (·.id = row.id) = some old) :
      Served reads rows (.create row) (.error (.alreadyExists row.id)) rows
  | created {row : JobStatus} (hnone : rows.find? (·.id = row.id) = none) :
      Served reads rows (.create row) (.ok .done) (rows ++ [row])
  | got (key : JobKey) :
      Served reads rows (.get key) (.ok (.found (rows.find? (·.id = key)))) rows
  | added {row : JobStatus} (hnone : rows.find? (·.id = row.id) = none) :
      Served reads rows (.merge row) (.ok (.row row)) (rows ++ [row])
  | kept {row old : JobStatus} (hold : rows.find? (·.id = row.id) = some old)
      (hstate : old.state = .cancelled) : Served reads rows (.merge row) (.ok (.row old)) rows
  | merged {row old merged : JobStatus} {now : Instant} (hnow : reads now)
      (hold : rows.find? (·.id = row.id) = some old) (hstate : old.state ≠ .cancelled)
      (hmerged : merged = { row with createdAt := old.createdAt, updatedAt := now.stored }) :
      Served reads rows (.merge row) (.ok (.row merged)) (JobStatus.replace rows merged)
  | missing {call : Command} {key : JobKey} {u : StatusUpdate} (hmoves : call.moves = some (key, u))
      (hnone : rows.find? (·.id = key) = none) :
      Served reads rows call (.error (.notFound key)) rows
  | refused {call : Command} {key : JobKey} {u : StatusUpdate} {row : JobStatus}
      (hmoves : call.moves = some (key, u)) (hrow : rows.find? (·.id = key) = some row)
      (hstate : row.state.canMoveTo u.state = false) :
      Served reads rows call (.error (.invalidTransition row.id row.state u.state)) rows
  | moved {call : Command} {key : JobKey} {u : StatusUpdate} {row : JobStatus}
      {now changed : Instant} (hnow : reads now) (hchanged : reads changed)
      (hmoves : call.moves = some (key, u)) (hrow : rows.find? (·.id = key) = some row)
      (hstate : row.state.canMoveTo u.state) :
      Served reads rows call (.ok (.row (u.moved row now changed)))
        (JobStatus.replace rows (u.moved row now.stored changed.stored))
  | listed (q : StatusQuery) : Served reads rows (.list q) (.ok (.rows (q.select rows))) rows
  | counted (owner : Option TenantKey) :
      Served reads rows (.stats owner) (.ok (.counts (LedgerStats.ofRows owner rows))) rows

theorem MemoryLedger.serve_moves {call : Command} {key : JobKey} {u : StatusUpdate}
    (hmoves : call.moves = some (key, u)) (now : Instant) (l : MemoryLedger) :
    serve now l call =
      ((attempt (·.transition key u now) l).1.map .row,
        (attempt (·.transition key u now) l).2) := by
  cases call <;> cases hmoves <;> rfl

section

variable {l : MemoryLedger} {rows rows' : List JobStatus} {call : Command} {e e' : Exchange}

theorem agree_of_reads (he : (e, e') ∈ past) {now now' : Instant} (hnow : e.Reads now)
    (hnow' : e'.Reads now') :
    Stamp.Agree past now now' ∧ Stamp.Agree past now now'.stored :=
  ⟨.inr ⟨_, he, ⟨now, hnow, .inl rfl⟩, now', hnow', .inl rfl⟩,
    .inr ⟨_, he, ⟨now, hnow, .inl rfl⟩, now', hnow', .inr rfl⟩⟩

/-- In step before a call, the two ledgers answer it alike and are in step afterwards. -/
theorem Served.agree {now : Instant} (he : (e, e') ∈ past) (hnow : e.Reads now)
    {answer : Except LedgerError StatusLedger.Response}
    (served : Served e'.Reads rows call answer rows') (h : InStep past l rows) :
    Exchange.Agree past (MemoryLedger.serve now l call).1 answer ∧
      InStep past (MemoryLedger.serve now l call).2 rows' := by
  cases served with
  | got key => exact ⟨.served (.found (h.get key)), h⟩
  | listed q => exact ⟨.served (.rows (select_agree h.agree q)), h⟩
  | counted owner =>
    refine ⟨.served ?_, h⟩
    rw [← ofRows_agree h.agree]
    exact .counts _
  | @present row old hold =>
    obtain ⟨a, ha, -⟩ := h.get_some hold
    have hcreate : l.create row = .error (.alreadyExists row.id) :=
      if_pos (Option.isSome_iff_exists.mpr ⟨a, ha⟩)
    simp only [MemoryLedger.serve, MemoryLedger.attempt, hcreate]
    exact ⟨.refused _, h⟩
  | @created row hnone =>
    have habsent := h.get_none hnone
    have hcreate : l.create row = .ok (l.put row) :=
      if_neg (Option.not_isSome_iff_eq_none.mpr habsent)
    simp only [MemoryLedger.serve, MemoryLedger.attempt, hcreate]
    exact ⟨.served .done, h.add (.refl row) habsent⟩
  | @added row hnone =>
    have habsent := h.get_none hnone
    simp only [MemoryLedger.serve, MemoryLedger.merge, habsent]
    exact ⟨.served (.row (.refl row)), h.add (.refl row) habsent⟩
  | @kept row old hold hstate =>
    obtain ⟨a, ha, hab⟩ := h.get_some hold
    have hid : a.id = row.id := h.sound.filed _ _ ha
    have hput : l.put a = l := by
      unfold MemoryLedger.put
      rw [hid, Assoc.put_of_get? ha]
    have hcancelled : a.state = .cancelled := hab.state_eq.symm.trans hstate
    simp only [MemoryLedger.serve, MemoryLedger.merge_of_some ha, hcancelled, ↓reduceIte, hput]
    exact ⟨.served (.row hab), h⟩
  | @merged row old merged time htime hold hstate hmerged =>
    obtain ⟨a, ha, hab⟩ := h.get_some hold
    have hlive : ¬ a.state = .cancelled := fun hc => hstate (hab.state_eq.trans hc)
    have hrows : JobStatus.Agree past { row with createdAt := a.createdAt, updatedAt := now }
        merged := by
      rw [hmerged, hab.createdAt_eq]
      exact ⟨rfl, (agree_of_reads he hnow htime).2, JobStatus.optionAgree_refl _,
        JobStatus.optionAgree_refl _⟩
    simp only [MemoryLedger.serve, MemoryLedger.merge_of_some ha, hlive, ↓reduceIte]
    exact ⟨.served (.row hrows), h.replace hrows ha⟩
  | @missing _ key u hmoves hnone =>
    have habsent := h.get_none hnone
    rw [MemoryLedger.serve_moves hmoves]
    simp only [MemoryLedger.attempt, MemoryLedger.transition, habsent]
    exact ⟨.refused _, h⟩
  | @refused _ key u row hmoves hrow hstate =>
    obtain ⟨a, ha, hab⟩ := h.get_some hrow
    rw [hab.state_eq] at hstate
    rw [MemoryLedger.serve_moves hmoves, hab.id_eq, hab.state_eq]
    simp only [MemoryLedger.attempt, MemoryLedger.transition, ha, u.apply_eq, hstate]
    exact ⟨.refused _, h⟩
  | @moved _ key u row time changed htime hchanged hmoves hrow hstate =>
    obtain ⟨a, ha, hab⟩ := h.get_some hrow
    rw [hab.state_eq] at hstate
    have happly : u.apply a now = .ok (u.moved a now now) := by rw [u.apply_eq, if_pos hstate]
    have hid : a.id = key := h.sound.filed key a ha
    have hput := h.sound.filed.moved ha happly
    obtain ⟨hstamp, hstored⟩ := agree_of_reads he hnow htime
    obtain ⟨hchange, hkept⟩ := agree_of_reads he hnow hchanged
    rw [MemoryLedger.serve_moves hmoves]
    simp only [MemoryLedger.attempt, MemoryLedger.transition, ha, happly, Except.map, hput]
    exact ⟨.served (.row (hab.moved u hstamp hchange)),
      h.replace (hab.moved u hstored hkept) ((congrArg l.get? hid).trans ha)⟩

end

/-- The thread makes its calls outside of a unit of work, and the database, which holds these rows,
does what it is asked. -/
structure DatabasePool.Serves (p : DatabasePool) (thread : ThreadName) (rows : List JobStatus) :
    Prop where
  free : p.held.get? thread = none
  isOpen : p.isClosed = false
  holds : p.database.Holds rows

/-- A table has a place for the row, and gives back its times as they are. -/
structure JobStatus.Storable (row : JobStatus) : Prop extends row.Writable where
  times : row.truncated = row

def StatusLedger.Command.Storable : Command → Prop
  | .create row | .merge row => row.Storable
  | .transition _ u => ∀ n ∈ u.attempt, n ≤ StatusRow.maxAttempts
  | .get _ | .cancel _ | .list _ | .stats _ => True

theorem StatusLedger.Command.Storable.attempt {call : Command} {key : JobKey} {u : StatusUpdate}
    (h : call.Storable) (hmoves : call.moves = some (key, u)) :
    ∀ n ∈ u.attempt, n ≤ StatusRow.maxAttempts := by
  cases call <;> cases hmoves
  · exact h
  · exact nofun

theorem StatusUpdate.truncated_moved (u : StatusUpdate) (row : JobStatus) (stamp changed : Stamp) :
    (u.moved row stamp changed).truncated =
      u.moved row.truncated stamp.stored changed.stored := by
  unfold moved JobStatus.truncated
  dsimp only
  congr 1
  · split <;> rfl
  · split
    · rfl
    · split <;> rfl

namespace DatabasePool

variable {τ α ε : Type} {q : Part τ DatabasePool} {thread : ThreadName}
variable {rows rows' : List JobStatus}

private theorem run_free {p : DatabasePool} (h : p.Serves thread rows) (time : Instant)
    (program : Query ε α) :
    run thread time program.run p =
      (some (program.on p.database time).1,
        { p with database := (program.on p.database time).2 }) := by
  unfold run
  rw [h.free, h.isOpen]
  rfl

/-- The act answers this at that time and leaves the table with these rows. -/
structure Handles (q : Part τ DatabasePool) (thread : ThreadName) (a : Act τ α) (k : Host τ)
    (answer : α) (time : Instant) (rows : List JobStatus) : Prop where
  answers : (a k).1 = answer
  clock : (a k).2.clock = time
  serves : (q.get (a k).2.app).Serves thread rows

theorem Handles.told {a : Act τ α} {k : Host τ} {answer : α} {time : Instant} {f : α → Act τ α}
    (h : Handles q thread a k answer time rows)
    (hf : ∀ x h, (f x h).1 = x ∧ (f x h).2.clock = h.clock ∧ (f x h).2.app = h.app) :
    Handles q thread (a >>= f) k answer time rows := by
  obtain ⟨hanswer, hclock, happ⟩ := hf (a k).1 (a k).2
  refine ⟨hanswer.trans h.answers, hclock.trans h.clock, ?_⟩
  change (q.get (f (a k).1 (a k).2).2.app).Serves thread rows
  rw [happ]
  exact h.serves

theorem Handles.since {a b : Act τ α} {k k' : Host τ} {answer : α} {time : Instant}
    (hrun : a k = b k') (h : Handles q thread b k' answer time rows) :
    Handles q thread a k answer time rows :=
  ⟨hrun ▸ h.answers, hrun ▸ h.clock, hrun ▸ h.serves⟩

theorem call_run (q : Part τ DatabasePool) (thread : ThreadName) (noConnection : String → ε)
    (program : Query ε α) (k : Host τ) :
    call q thread noConnection program k =
      (match (run thread (k.clock.plus Act.tick) program.run (q.get k.app)).1 with
        | some r => pure r
        | none => pure (.error (noConnection (closedIn "acquire_connection"))) :
          Act τ (Except ε α))
        { k with
          clock := k.clock.plus Act.tick
          app := q.put (run thread (k.clock.plus Act.tick) program.run (q.get k.app)).2
            k.app } := rfl

theorem transition_run (q : Part τ DatabasePool) (thread : ThreadName) (key : JobKey)
    (u : StatusUpdate) (k : Host τ) :
    (ledger q thread).transition key u k =
      (call q thread .storage (DatabaseLedger.transition key u (k.clock.plus Act.tick)
        ((k.clock.plus Act.tick).plus Act.tick)) >>= fun r => do
          if let .ok status := r then
            Act.log .infra .debug "status row updated"
              [("job_id", .shown key.text), ("state", .shown status.state.name),
                ("attempts", .int status.attempts)]
          return r)
        { k with clock := (k.clock.plus Act.tick).plus Act.tick } := rfl

section

variable (lawful : ∀ p a, q.get (q.put p a) = p) {k : Host τ} (h : (q.get k.app).Serves thread rows)

include lawful h

theorem call_handles {noConnection : String → ε} {program : Query ε α} {answer : Except ε α}
    (does : program.Does (q.get k.app).database (k.clock.plus Act.tick) answer rows') :
    Handles q thread (call q thread noConnection program) k answer (k.clock.plus Act.tick)
      rows' := by
  have hcall := call_run q thread noConnection program k
  rw [run_free h] at hcall
  constructor
  · rw [hcall]
    exact does.answers
  · rw [hcall]
    rfl
  · rw [hcall]
    change (q.get (q.put _ k.app)).Serves thread rows'
    rw [lawful]
    exact ⟨h.free, h.isOpen, does.holds⟩

theorem create_handles {row : JobStatus} {answer : Except LedgerError Unit}
    (does : (DatabaseLedger.create row).Does (q.get k.app).database (k.clock.plus Act.tick)
      answer rows') :
    Handles q thread ((ledger q thread).create row) k answer (k.clock.plus Act.tick) rows' := by
  refine (call_handles lawful h does).told fun x h => ?_
  cases x <;> exact ⟨rfl, rfl, rfl⟩

theorem transition_handles {key : JobKey} {u : StatusUpdate}
    {answer : Except LedgerError JobStatus}
    (does :
      let now := k.clock.plus Act.tick
      let changed := now.plus Act.tick
      (DatabaseLedger.transition key u now changed).Does (q.get k.app).database
        (changed.plus Act.tick) answer rows') :
    Handles q thread ((ledger q thread).transition key u) k answer
      (((k.clock.plus Act.tick).plus Act.tick).plus Act.tick) rows' := by
  let k' : Host τ := { k with clock := (k.clock.plus Act.tick).plus Act.tick }
  have hcall : Handles q thread (call q thread .storage (DatabaseLedger.transition key u _ _)) k'
      answer _ rows' := call_handles (k := k') lawful h does
  refine .since (transition_run q thread key u k) (hcall.told fun x h => ?_)
  cases x <;> exact ⟨rfl, rfl, rfl⟩

/-- A transition that is asked for is served. -/
theorem transition_served {call : Command} {key : JobKey} {u : StatusUpdate}
    (hmoves : call.moves = some (key, u)) (hattempt : ∀ n ∈ u.attempt, n ≤ StatusRow.maxAttempts) :
    ∃ answer rows', Handles q thread ((ledger q thread).transition key u) k answer
        (((k.clock.plus Act.tick).plus Act.tick).plus Act.tick) rows' ∧
      Served
        (fun now => k.clock ≤ now ∧ now ≤ ((k.clock.plus Act.tick).plus Act.tick).plus Act.tick)
        rows call (answer.map .row) rows' := by
  have hfirst := k.clock.le_plus Act.tick
  have hsecond := (k.clock.plus Act.tick).le_plus Act.tick
  have hthird := ((k.clock.plus Act.tick).plus Act.tick).le_plus Act.tick
  cases hrow : rows.find? (·.id = key) with
  | none =>
    exact ⟨_, _, transition_handles lawful h (DatabaseLedger.transition_of_none h.holds hrow),
      .missing hmoves hrow⟩
  | some row =>
    cases hstate : row.state.canMoveTo u.state with
    | false =>
      exact ⟨_, _, transition_handles lawful h
        (DatabaseLedger.transition_of_refused h.holds hrow hstate), .refused hmoves hrow hstate⟩
    | true =>
      refine ⟨_, _, transition_handles lawful h
        (DatabaseLedger.transition_of_moved h.holds hrow hstate hattempt), ?_⟩
      have htimes := (h.holds.kept row (List.mem_of_find?_eq_some hrow)).2
      rw [u.truncated_moved, htimes]
      exact .moved ⟨hfirst, Int.le_trans hsecond hthird⟩ ⟨Int.le_trans hfirst hsecond, hthird⟩
        hmoves hrow hstate

omit lawful h in
theorem Handles.exchanged {α : Type} {call : Command} {a : Act τ (Except LedgerError α)}
    {wrap : α → StatusLedger.Response} {answer : Except LedgerError α} {time : Instant}
    (handles : Handles q thread a k answer time rows')
    (hask : (ledger q thread).ask call = (do return (← a).map wrap))
    (served : Served (fun now => k.clock ≤ now ∧ now ≤ time) rows call (answer.map wrap) rows') :
    ∃ rows', Served ((ledger q thread).exchange call k).1.Reads rows call
        ((ledger q thread).exchange call k).1.answer rows' ∧
      (q.get ((ledger q thread).exchange call k).2.app).Serves thread rows' := by
  obtain ⟨rfl, rfl, serves⟩ := handles
  unfold StatusLedger.exchange
  rw [hask]
  exact ⟨rows', served, serves⟩

/-- A call that can be written is served outside of a unit of work. -/
theorem ask_served {call : Command} (storable : call.Storable) :
    ∃ rows', Served ((ledger q thread).exchange call k).1.Reads rows call
        ((ledger q thread).exchange call k).1.answer rows' ∧
      (q.get ((ledger q thread).exchange call k).2.app).Serves thread rows' := by
  have hread := k.clock.le_plus Act.tick
  cases call with
  | get key =>
    exact (call_handles lawful h (DatabaseLedger.load_does h.holds key)).exchanged rfl (.got key)
  | list query =>
    exact (call_handles lawful h (DatabaseLedger.list_does h.holds query)).exchanged rfl
      (.listed query)
  | stats owner =>
    exact (call_handles lawful h (DatabaseLedger.stats_does h.holds owner)).exchanged rfl
      (.counted owner)
  | transition key u =>
    have hmoves : (Command.transition key u).moves = some (key, u) := rfl
    obtain ⟨answer, rows', handles, served⟩ :=
      transition_served lawful h hmoves (storable.attempt hmoves)
    exact handles.exchanged rfl served
  | cancel key =>
    have hmoves : (Command.cancel key).moves = some (key, .cancelled) := rfl
    obtain ⟨answer, rows', handles, served⟩ :=
      transition_served lawful h hmoves (storable.attempt hmoves)
    exact handles.exchanged rfl served
  | create row =>
    cases hold : rows.find? (·.id = row.id) with
    | none =>
      exact (create_handles lawful h (DatabaseLedger.create_of_none h.holds storable.toWritable
        storable.times hold)).exchanged rfl (.created hold)
    | some old =>
      exact (create_handles lawful h (DatabaseLedger.create_of_some h.holds storable.toWritable
        hold)).exchanged rfl (.present hold)
  | merge row =>
    cases hold : rows.find? (·.id = row.id) with
    | none =>
      exact (call_handles lawful h (DatabaseLedger.merge_of_none h.holds storable.toWritable
        storable.times hold)).exchanged rfl (.added hold)
    | some old =>
      by_cases hstate : old.state = .cancelled
      · exact (call_handles lawful h (DatabaseLedger.merge_of_cancelled h.holds
          storable.toWritable hold hstate)).exchanged rfl (.kept hold hstate)
      · have htimes := (h.holds.kept old (List.mem_of_find?_eq_some hold)).2
        have hmerged : JobStatus.truncated
            { row with
              createdAt := old.createdAt, updatedAt := Stamp.ofInstant (k.clock.plus Act.tick) } =
              { row.truncated with
                createdAt := old.truncated.createdAt
                updatedAt := (k.clock.plus Act.tick).stored } := rfl
        rw [storable.times, htimes] at hmerged
        exact (call_handles lawful h (DatabaseLedger.merge_of_some h.holds storable.toWritable
          hold hstate)).exchanged rfl (.merged ⟨hread, Int.le_refl _⟩ hold hstate hmerged)

end

end DatabasePool

variable {σ τ : Type} {p : Part σ MemoryLedger} {q : Part τ DatabasePool} {thread : ThreadName}

section

variable (lawful : ∀ l a, p.get (p.put l a) = l) (lawful' : ∀ d a, q.get (q.put d a) = d)

include lawful lawful'

theorem exchange_agree {call : Command} (storable : call.Storable) {h : Host σ} {k : Host τ}
    {rows : List JobStatus} (inStep : InStep past (p.get h.app) rows)
    (serves : (q.get k.app).Serves thread rows) :
    let memory := (MemoryLedger.service p).exchange call h
    let database := (DatabasePool.ledger q thread).exchange call k
    let past := past ++ [(memory.1, database.1)]
    Exchange.Agree past memory.1.answer database.1.answer ∧
      ∃ rows', InStep past (p.get memory.2.app) rows' ∧
        (q.get database.2.app).Serves thread rows' := by
  intro memory database past'
  obtain ⟨rows', served, serves'⟩ := DatabasePool.ask_served lawful' serves storable
  obtain ⟨now, hsince, hupto, hanswer, hledger⟩ := MemoryLedger.ask_service lawful call h
  have hmem : (memory.1, database.1) ∈ past' := List.mem_append_right _ List.mem_cons_self
  have hsub : past ⊆ past' := List.subset_append_left _ _
  have hreads : memory.1.Reads now := ⟨hsince, hupto⟩
  obtain ⟨hagree, hstep⟩ := served.agree hmem hreads (inStep.mono hsub)
  refine ⟨?_, rows', ?_, serves'⟩
  · change Exchange.Agree past' ((MemoryLedger.service p).ask call h).1 _
    rw [hanswer]
    exact hagree
  · change InStep past' (p.get ((MemoryLedger.service p).ask call h).2.app) rows'
    rw [hledger]
    exact hstep

theorem askAll_agree {calls : List Command} (storable : ∀ call ∈ calls, call.Storable) {h : Host σ}
    {k : Host τ} {rows : List JobStatus} (inStep : InStep past (p.get h.app) rows)
    (serves : (q.get k.app).Serves thread rows) :
    let memory := (MemoryLedger.service p).askAll calls h
    let database := (DatabasePool.ledger q thread).askAll calls k
    let past := past ++ memory.1.zip database.1
    List.Forall₂ (fun a b => Exchange.Agree past a.answer b.answer) memory.1 database.1 ∧
      ∃ rows', InStep past (p.get memory.2.app) rows' ∧
        (q.get database.2.app).Serves thread rows' := by
  induction calls generalizing past h k rows with
  | nil =>
    intro memory database past'
    have hpast : past' = past := List.append_nil past
    rw [hpast]
    exact ⟨.nil, rows, inStep, serves⟩
  | cons call rest ih =>
    intro memory database past'
    obtain ⟨hfirst, mid, hmid, hserves⟩ := exchange_agree lawful lawful'
      (storable call List.mem_cons_self) inStep serves
    have hrest := ih (fun c hc => storable c (List.mem_cons_of_mem call hc)) hmid hserves
    dsimp only at hrest
    rw [List.append_assoc] at hrest
    obtain ⟨hanswers, rows', hstep, hserves'⟩ := hrest
    have hsub : past ++ [(((MemoryLedger.service p).exchange call h).1,
        ((DatabasePool.ledger q thread).exchange call k).1)] ⊆ past' :=
      List.append_subset.mpr ⟨List.subset_append_left _ _,
        List.cons_subset.mpr ⟨List.mem_append_right _ List.mem_cons_self, List.nil_subset _⟩⟩
    exact ⟨.cons (hfirst.mono hsub) hanswers, rows', hstep, hserves'⟩

end

/-- The ledger in the database refines the ledger in memory. Asked the same one call after another,
both empty at first, they give the same answers and hold the same rows in the end, but for times
that each of them read off its clock while the same call lasted. The thread is outside of a unit of
work: inside of one, a row that cannot be created aborts the transaction. -/
theorem database_refines_memory (lawful : ∀ l a, p.get (p.put l a) = l)
    (lawful' : ∀ d a, q.get (q.put d a) = d) {calls : List Command}
    (storable : ∀ call ∈ calls, call.Storable) {h : Host σ} {k : Host τ}
    (fresh : p.get h.app = {}) (serves : (q.get k.app).Serves thread []) :
    let memory := (MemoryLedger.service p).askAll calls h
    let database := (DatabasePool.ledger q thread).askAll calls k
    let past := memory.1.zip database.1
    List.Forall₂ (fun a b => Exchange.Agree past a.answer b.answer) memory.1 database.1 ∧
      ∃ rows, (q.get database.2.app).Serves thread rows ∧
        List.Forall₂ (JobStatus.Agree past) (p.get memory.2.app).rows.values rows := by
  intro memory database past
  have inStep : InStep [] (p.get h.app) [] := by
    rw [fresh]
    exact ⟨MemoryLedger.sound_empty, .nil⟩
  obtain ⟨hanswers, rows, hstep, hserves⟩ := askAll_agree lawful lawful' storable inStep serves
  exact ⟨hanswers, rows, hserves, hstep.agree⟩

def lifetime : List Command :=
  let row := JobStatus.initial { key := ⟨"daily"⟩, kind := "report" } true .epoch
  [.create row, .transition row.id (.running 0), .create row, .list {}, .cancel row.id, .merge row,
    .stats none]

theorem lifetime_refined :
    let memory := (MemoryLedger.service Part.whole).askAll lifetime { clock := .epoch, app := {} }
    let database := (DatabasePool.ledger Part.whole .main).askAll lifetime
      { clock := .epoch, app := { database := { tables := { statuses := some [] } } } }
    let past := memory.1.zip database.1
    List.Forall₂ (fun a b => Exchange.Agree past a.answer b.answer) memory.1 database.1 := by
  have storable : ∀ call ∈ lifetime, call.Storable := by
    have hrow : JobStatus.Storable
        (JobStatus.initial { key := ⟨"daily"⟩, kind := "report" } true .epoch) :=
      { key := ⟨"daily", rfl⟩, owner := nofun, attempts := Nat.zero_le _, times := rfl }
    intro call hcall
    simp only [lifetime, List.mem_cons, List.not_mem_nil, or_false] at hcall
    rcases hcall with rfl | rfl | rfl | rfl | rfl | rfl | rfl
    · exact hrow
    · exact fun n hn => Option.some.inj hn ▸ Nat.zero_le _
    · exact hrow
    · trivial
    · trivial
    · exact hrow
    · trivial
  have holds : Database.Holds { tables := { statuses := some [] } } [] :=
    ⟨⟨rfl, rfl⟩, rfl, List.nodup_nil, fun _ hrow => nomatch hrow⟩
  exact (database_refines_memory (fun _ _ => rfl) (fun _ _ => rfl) storable rfl
    ⟨rfl, rfl, holds⟩).1

end JobEngine
