import Mathlib.Data.List.Nodup
import JobEngine.Proofs.Programs
import JobEngine.Proofs.Rows
/-! What the programs of the ledger do to the table of rows, when no statement fails but by its own
doing. Each program has one answer and leaves one list of rows. -/

namespace JobEngine

def JobStatus.replace (rows : List JobStatus) (new : JobStatus) : List JobStatus :=
  rows.map fun r => if r.id = new.id then new else r

theorem JobStatus.Writable.moved {row : JobStatus} (h : row.Writable) {u : StatusUpdate}
    (hattempt : ∀ n ∈ u.attempt, n ≤ StatusRow.maxAttempts) (stamp changed : Stamp) :
    (u.moved row stamp changed).Writable := by
  refine ⟨h.key, h.owner, ?_⟩
  change u.attempt.getD row.attempts ≤ StatusRow.maxAttempts
  cases hn : u.attempt with
  | none => exact h.attempts
  | some n => exact hattempt n hn

@[simp] theorem JobKey.text_inj {a b : JobKey} : a.text = b.text ↔ a = b := by
  cases a
  cases b
  simp

@[simp] theorem JobState.name_inj {a b : JobState} : a.name = b.name ↔ a = b := by
  refine ⟨fun h => ?_, congrArg name⟩
  have hof := ofName_name a
  rw [h, ofName_name] at hof
  exact (Except.ok.inj hof).symm

theorem JobState.name_of_ofName {name : String} {state : JobState} (h : ofName name = .ok state) :
    state.name = name := by
  unfold ofName at h
  split at h
  next found hfound =>
    cases h
    simpa using List.find?_some hfound
  · cases h

namespace LedgerStats

theorem add_comm (s : LedgerStats) (a b : JobState) (n m : Nat) :
    (s.add a n).add b m = (s.add b m).add a n := by
  cases a <;> cases b <;> simp [add, Nat.add_right_comm]

@[simp] private theorem add_add (s : LedgerStats) (a : JobState) (n m : Nat) :
    (s.add a n).add a m = s.add a (n + m) := by
  cases a <;> simp [add, Nat.add_assoc]

end LedgerStats

theorem StatusRow.overwrite_columns {old row : JobStatus} (hid : old.id = row.id) (now : Instant) :
    (columns old).overwrite (columns row) now =
      columns { row with createdAt := old.createdAt, updatedAt := now } := by
  unfold overwrite columns
  rw [hid]
  rfl

@[simp] theorem TenantKey.text_inj {a b : TenantKey} : a.text = b.text ↔ a = b := by
  cases a
  cases b
  simp

theorem StatusQuery.mem_of_mem_select (q : StatusQuery) {rows : List JobStatus} {row : JobStatus}
    (h : row ∈ q.select rows) : row ∈ rows := by
  have hsorted : row ∈ (rows.filter q.isMatch).mergeSort JobStatus.listedBefore := by
    unfold select at h
    cases hlimit : q.limit with
    | none => simpa only [hlimit] using h
    | some n =>
      rw [hlimit] at h
      exact List.mem_of_mem_take h
  exact List.mem_of_mem_filter (List.mem_mergeSort.mp hsorted)

/-- The table of the database holds these rows, with other keys each, and can give them back. -/
structure Database.Holds (d : Database) (rows : List JobStatus) : Prop where
  quiet : d.Quiet
  statuses : d.tables.statuses = some (rows.map StatusRow.columns)
  distinct : (rows.map (·.id)).Nodup
  kept : ∀ row ∈ rows, row.Writable ∧ row.truncated = row

namespace Database.Holds

variable {d : Database} {rows : List JobStatus} {row new : JobStatus} {key : JobKey}

theorem statusTable (h : d.Holds rows) :
    d.tables.statusTable = .ok (rows.map StatusRow.columns) := by
  unfold Tables.statusTable
  rw [h.statuses]

theorem toStatus (h : d.Holds rows) (hrow : row ∈ rows) :
    (StatusRow.columns row).toStatus = .ok row := by
  obtain ⟨hwritable, htimes⟩ := h.kept row hrow
  rw [StatusRow.toStatus_columns hwritable, htimes]

private theorem eq_of_id (h : d.Holds rows) {a b : JobStatus} (ha : a ∈ rows) (hb : b ∈ rows)
    (hid : a.id = b.id) : a = b := List.inj_on_of_nodup_map h.distinct ha hb hid

theorem add (h : d.Holds rows) (hnew : ∀ r ∈ rows, r.id ≠ row.id) (hwritable : row.Writable)
    (htimes : row.truncated = row) :
    (d.write [.addStatus (.columns row)]).Holds (rows ++ [row]) where
  quiet := h.quiet.write _
  statuses := by
    change Option.map _ d.tables.statuses = _
    rw [h.statuses, List.map_append]
    rfl
  distinct := by
    rw [List.map_append]
    refine List.nodup_append.mpr ⟨h.distinct, List.pairwise_singleton _ row.id, ?_⟩
    intro id hid id' hid' heq
    obtain ⟨r, hr, rfl⟩ := List.mem_map.mp hid
    exact hnew r hr (heq.trans (List.mem_singleton.mp hid'))
  kept := fun r hr => by
    rcases List.mem_append.mp hr with hr | hr
    · exact h.kept r hr
    · rw [List.mem_singleton.mp hr]
      exact ⟨hwritable, htimes⟩

theorem replace (h : d.Holds rows) (change : StatusRow → StatusRow) (hwritable : new.Writable)
    (htimes : new.truncated = new)
    (hchange : ∀ r ∈ rows, r.id = new.id → change (.columns r) = .columns new) :
    (d.write [.changeStatus new.id.text change]).Holds (JobStatus.replace rows new) where
  quiet := h.quiet.write _
  statuses := by
    change Option.map _ d.tables.statuses = _
    rw [h.statuses, JobStatus.replace, Option.map_some, List.map_map, List.map_map]
    congr 1
    apply List.map_congr_left
    intro r hr
    have hid : (StatusRow.columns r).id = new.id.text ↔ r.id = new.id := JobKey.text_inj
    simp only [Function.comp_apply, hid]
    split
    next hsame => exact hchange r hr hsame
    · rfl
  distinct := by
    have hids : (JobStatus.replace rows new).map (·.id) = rows.map (·.id) := by
      rw [JobStatus.replace, List.map_map]
      apply List.map_congr_left
      intro r _
      simp only [Function.comp_apply]
      split
      next hsame => exact hsame.symm
      · rfl
    rw [hids]
    exact h.distinct
  kept := fun r hr => by
    obtain ⟨old, hold, rfl⟩ := List.mem_map.mp hr
    split
    · exact ⟨hwritable, htimes⟩
    · exact h.kept old hold

end Database.Holds

/-- On a connection of its own the program answers this, and then the table holds these rows. -/
structure Query.Does {ε α : Type} (q : Query ε α) (d : Database) (time : Instant)
    (answer : Except ε α) (rows : List JobStatus) : Prop where
  answers : (q.on d time).1 = answer
  holds : (q.on d time).2.Holds rows

theorem Query.Does.of_eq {ε α : Type} {q : Query ε α} {d d' : Database} {time : Instant}
    {answer : Except ε α} {rows : List JobStatus} (h : q.on d time = (answer, d'))
    (holds : d'.Holds rows) : q.Does d time answer rows := by
  constructor
  · rw [h]
  · rw [h]
    exact holds

namespace DatabaseLedger

variable {d : Database} {rows : List JobStatus} {time : Instant}

theorem run_ask {ε : Type} {onError : DatabaseError → ε} {s : Statement} (quiet : d.Quiet)
    (hs : s.isPlain) :
    (Query.ask onError s).run.run (.fresh d time) = match d.tables.answer time s with
      | .error e => (.error (onError e), .fresh d time)
      | .ok (reply, writes) => (.ok reply, .fresh (d.write writes) time) := by
  rw [Query.ask, Query.run_step, Connection.execute_fresh quiet hs]
  cases d.tables.answer time s <;> rfl

private theorem first_columns (hkept : ∀ row ∈ rows, (StatusRow.columns row).toStatus = .ok row) :
    first (.statuses ((rows.map StatusRow.columns).map some)) = .ok rows.head? := by
  cases rows with
  | nil => rfl
  | cons row rest =>
    change ((StatusRow.columns row).toStatus).map some = _
    rw [hkept row List.mem_cons_self]
    rfl

private theorem filter_columns (rows : List JobStatus) (key : JobKey) :
    (rows.map StatusRow.columns).filter (·.id = key.text) =
      (rows.filter (·.id = key)).map StatusRow.columns := by
  rw [List.filter_map]
  congr 2
  funext r
  exact decide_eq_decide.mpr JobKey.text_inj

theorem find_columns (rows : List JobStatus) (key : JobKey) :
    (rows.map StatusRow.columns).find? (·.id = key.text) =
      (rows.find? (·.id = key)).map StatusRow.columns := by
  rw [← List.head?_filter, filter_columns, List.head?_map, List.head?_filter]

private theorem any_columns (rows : List JobStatus) (key : JobKey) :
    (rows.map StatusRow.columns).any (·.id = key.text) = (rows.find? (·.id = key)).isSome := by
  rw [← List.isSome_find?, find_columns, Option.isSome_map]

section

variable {row : JobStatus} {now : Instant}

private theorem merge_columns_none (hnone : rows.find? (·.id = row.id) = none) :
    Tables.merge (rows.map .columns) (.columns row) now =
      ([.columns row], [.addStatus (.columns row)]) := by
  have hfind : (rows.map StatusRow.columns).find? (·.id = (StatusRow.columns row).id) = none :=
    (find_columns rows row.id).trans (congrArg _ hnone)
  unfold Tables.merge
  rw [hfind]

theorem merge_columns_some {old : JobStatus} (hold : rows.find? (·.id = row.id) = some old) :
    Tables.merge (rows.map .columns) (.columns row) now =
      if old.state = .cancelled then ([], [])
      else ([.columns { row with createdAt := old.createdAt, updatedAt := now }],
        [.changeStatus row.id.text (·.overwrite (.columns row) now)]) := by
  have hfind : (rows.map StatusRow.columns).find? (·.id = (StatusRow.columns row).id) =
      some (.columns old) := (find_columns rows row.id).trans (congrArg _ hold)
  have hid : old.id = row.id := by simpa using List.find?_some hold
  have hstate : (StatusRow.columns old).state = JobState.cancelled.name ↔
      old.state = .cancelled := JobState.name_inj
  unfold Tables.merge
  rw [hfind]
  simp only [hstate]
  split
  · rfl
  · rw [StatusRow.overwrite_columns hid]
    rfl

end

theorem lets_map {α : Type} [DecidableEq α] (column : α → String)
    (inj : ∀ {a b}, column a = column b ↔ a = b) (wish value : Option α) :
    Tables.lets (wish.map column) (value.map column) = (wish.isNone || wish = value) := by
  cases wish with
  | none => rfl
  | some a =>
    cases value with
    | none => rfl
    | some b =>
      change (some (column a) == some (column b)) = decide (some a = some b)
      rw [Option.some_beq_some, beq_eq_decide]
      exact decide_eq_decide.mpr (inj.trans Option.some_inj.symm)

private theorem meets_eq {α : Type} [DecidableEq α] (wish : Option α) (value : α) :
    StatusQuery.meets wish value = (wish.isNone || wish = some value) := by
  cases wish with
  | none => rfl
  | some a =>
    change decide (value = a) = decide (some a = some value)
    exact decide_eq_decide.mpr (eq_comm.trans Option.some_inj.symm)

private theorem lets_owner (wish : Option TenantKey) (owner : Option TenantKey) :
    Tables.lets (wish.map (·.text)) (owner.map (·.text)) = (match wish with
      | none => true
      | some o => decide (owner = some o)) := by
  refine (lets_map _ TenantKey.text_inj wish owner).trans ?_
  cases wish with
  | none => rfl
  | some o => exact decide_eq_decide.mpr eq_comm

theorem lets_columns (q : StatusQuery) (row : JobStatus) :
    (Tables.lets (q.owner.map (·.text)) (StatusRow.columns row).owner &&
      Tables.lets (q.state.map (·.name)) (some (StatusRow.columns row).state) &&
      Tables.lets q.kind (some (StatusRow.columns row).kind)) = q.isMatch row := by
  have hstate : Tables.lets (q.state.map (·.name)) (some (StatusRow.columns row).state) =
      StatusQuery.meets q.state row.state :=
    (lets_map _ JobState.name_inj q.state (some row.state)).trans (meets_eq _ _).symm
  have hkind : Tables.lets q.kind (some (StatusRow.columns row).kind) =
      StatusQuery.meets q.kind row.kind := by
    rw [meets_eq]
    cases q.kind with
    | none => rfl
    | some kind => exact lets_map id Iff.rfl (some kind) (some row.kind)
  rw [hstate, hkind]
  exact congrArg₂ and (congrArg₂ and (lets_owner q.owner row.owner) rfl) rfl

theorem list_columns (hkept : ∀ row ∈ rows, row.Writable ∧ row.truncated = row) (q : StatusQuery) :
    Tables.list (rows.map .columns) (q.owner.map (·.text)) (q.state.map (·.name)) q.kind q.limit =
      (q.select rows).map .columns := by
  have hage : ∀ row ∈ rows.filter q.isMatch, row.createdAt = row.createdAt.stored :=
    fun row hrow => congrArg JobStatus.createdAt (hkept row (List.mem_of_mem_filter hrow)).2.symm
  have hfilter : (rows.map StatusRow.columns).filter (fun r =>
      Tables.lets (q.owner.map (·.text)) r.owner &&
        Tables.lets (q.state.map (·.name)) (some r.state) &&
        Tables.lets q.kind (some r.kind)) = (rows.filter q.isMatch).map .columns := by
    rw [List.filter_map]
    congr 2
    funext row
    exact lets_columns q row
  have hsort : ((rows.filter q.isMatch).map StatusRow.columns).mergeSort StatusRow.listedBefore =
      ((rows.filter q.isMatch).mergeSort JobStatus.listedBefore).map .columns := by
    rw [List.map_mergeSort]
    exact fun a ha b hb => (StatusRow.listedBefore_columns (hage a ha) (hage b hb)).symm
  unfold Tables.list StatusQuery.select
  simp only [hfilter, hsort]
  cases q.limit with
  | none => rfl
  | some n => exact List.map_take.symm

theorem mapM_decode (hkept : ∀ row ∈ rows, (StatusRow.columns row).toStatus = .ok row) :
    ((rows.map StatusRow.columns).map some).mapM decode = .ok rows := by
  induction rows with
  | nil => rfl
  | cons row rest ih =>
    have hrest := ih fun r hr => hkept r (List.mem_cons_of_mem row hr)
    have hrow : decode (some (.columns row)) = .ok row := hkept row List.mem_cons_self
    simp only [List.map_cons, List.mapM_cons, hrow, hrest]
    rfl

def groups (counts : List (String × Nat)) : List (Option String × Option Nat) :=
  counts.map fun g => (some g.1, some g.2)

theorem addGroup_eq_ok {s t : LedgerStats} {name : String} {n : Nat} :
    addGroup s (some name, some n) = .ok t ↔
      ∃ state : JobState, name = state.name ∧ t = s.add state n := by
  constructor
  · intro h
    cases hstate : JobState.ofName name with
    | error e =>
      simp only [addGroup, hstate] at h
      cases h
    | ok state =>
      simp only [addGroup, hstate] at h
      cases h
      exact ⟨state, (JobState.name_of_ofName hstate).symm, rfl⟩
  · rintro ⟨state, rfl, rfl⟩
    simp only [addGroup, JobState.ofName_name]
    rfl

theorem tally_cons {s t : LedgerStats} {name : String} {n : Nat} {rest : List (String × Nat)} :
    (groups ((name, n) :: rest)).foldlM addGroup s = .ok t ↔
      ∃ state : JobState, name = state.name ∧
        (groups rest).foldlM addGroup (s.add state n) = .ok t := by
  have hcons : (groups ((name, n) :: rest)).foldlM addGroup s =
      addGroup s (some name, some n) >>= (groups rest).foldlM addGroup := List.foldlM_cons
  rw [hcons]
  cases hgroup : addGroup s (some name, some n) with
  | error e =>
    refine ⟨nofun, ?_⟩
    rintro ⟨state, hname, -⟩
    cases hgroup.symm.trans (addGroup_eq_ok.mpr ⟨state, hname, rfl⟩)
  | ok mid =>
    obtain ⟨state, hname, rfl⟩ := addGroup_eq_ok.mp hgroup
    refine ⟨fun h => ⟨state, hname, h⟩, ?_⟩
    rintro ⟨state', hname', h⟩
    rw [JobState.name_inj.mp (hname.symm.trans hname')]
    exact h

theorem tally_add {counts : List (String × Nat)} (state : JobState) (n : Nat) :
    ∀ {s t : LedgerStats}, (groups counts).foldlM addGroup s = .ok t →
      (groups counts).foldlM addGroup (s.add state n) = .ok (t.add state n) := by
  induction counts with
  | nil =>
    rintro s t ⟨⟩
    rfl
  | cons g rest ih =>
    intro s t h
    obtain ⟨other, hname, hrest⟩ := tally_cons.mp h
    refine tally_cons.mpr ⟨other, hname, ?_⟩
    rw [LedgerStats.add_comm]
    exact ih hrest

theorem tally_put {counts : List (String × Nat)} (state : JobState) :
    ∀ {s t : LedgerStats}, (groups counts).foldlM addGroup s = .ok t →
      (groups (Assoc.put counts state.name ((Assoc.get? counts state.name).getD 0 + 1))).foldlM
        addGroup s = .ok (t.add state 1) := by
  induction counts with
  | nil =>
    rintro s t ⟨⟩
    exact tally_cons.mpr ⟨state, rfl, rfl⟩
  | cons g rest ih =>
    intro s t h
    obtain ⟨other, hname, hrest⟩ := tally_cons.mp h
    by_cases hsame : g.1 = state.name
    · have hstate : other = state := JobState.name_inj.mp (hname.symm.trans hsame)
      simp only [Assoc.put, Assoc.get?, hsame, ↓reduceIte, Option.getD_some]
      refine tally_cons.mpr ⟨state, rfl, ?_⟩
      rw [← LedgerStats.add_add, ← hstate]
      exact tally_add other 1 hrest
    · simp only [Assoc.put, Assoc.get?, hsame, ↓reduceIte]
      exact tally_cons.mpr ⟨other, hname, ih hrest⟩

theorem tally_countStates (rows : List JobStatus) (owner : Option TenantKey) :
    (groups (Tables.countStates (rows.map .columns) (owner.map (·.text)))).foldlM addGroup {} =
      .ok (LedgerStats.ofRows owner rows) := by
  have hfilter : (rows.map StatusRow.columns).filter
      (fun r => Tables.lets (owner.map (·.text)) r.owner) =
        (rows.filter fun row => StatusQuery.isMatch { owner } row).map .columns := by
    rw [List.filter_map]
    congr 2
    funext row
    exact ((Bool.and_true _).symm.trans (Bool.and_true _).symm).trans (lets_columns { owner } row)
  unfold Tables.countStates LedgerStats.ofRows
  rw [hfilter, List.foldl_map]
  generalize rows.filter (fun row => StatusQuery.isMatch { owner } row) = matching
  -- the counts so far, as groups and as a record, go on in step
  have hstep : ∀ (counts : List (String × Nat)) (s : LedgerStats),
      (groups counts).foldlM addGroup {} = .ok s →
        (groups (matching.foldl (fun counts row => Assoc.put counts (StatusRow.columns row).state
          ((Assoc.get? counts (StatusRow.columns row).state).getD 0 + 1)) counts)).foldlM
            addGroup {} = .ok (matching.foldl (fun s row => s.add row.state 1) s) := by
    induction matching with
    | nil => exact fun _ _ h => h
    | cons row rest ih => exact fun counts s h => ih _ _ (tally_put row.state h)
  exact hstep [] {} rfl

private theorem ids_of_find {key : JobKey} (hnone : rows.find? (·.id = key) = none) :
    ∀ r ∈ rows, r.id ≠ key := fun r hr => by
  simpa using List.find?_eq_none.mp hnone r hr

section

variable (h : d.Holds rows)

include h

theorem first_filter (key : JobKey) :
    first (.statuses (((rows.map StatusRow.columns).filter (·.id = key.text)).map some)) =
      .ok (rows.find? (·.id = key)) := by
  have hkept : ∀ row ∈ rows.filter (·.id = key), (StatusRow.columns row).toStatus = .ok row :=
    fun row hrow => h.toStatus (List.mem_of_mem_filter hrow)
  rw [filter_columns, first_columns hkept, List.head?_filter]

private theorem load_run (key : JobKey) :
    (load key).run.run (.fresh d time) = (.ok (rows.find? (·.id = key)), .fresh d time) := by
  have hanswer : d.tables.answer time (.loadStatus key.text) =
      .ok (.statuses (((rows.map StatusRow.columns).filter (·.id = key.text)).map some), []) := by
    simp only [Tables.answer, h.statusTable]
    rfl
  unfold load
  rw [Query.run_bind, ask, run_ask h.quiet rfl, hanswer]
  simp only [Query.run_check, first_filter h]
  rfl

theorem load_does (key : JobKey) :
    (load key).Does d time (.ok (rows.find? (·.id = key))) rows := by
  refine .of_eq ?_ h
  unfold Query.on
  rw [load_run h]
  rfl

section

variable {row : JobStatus} (hwritable : row.Writable) (htimes : row.truncated = row)

include hwritable

theorem create_of_some {old : JobStatus} (hold : rows.find? (·.id = row.id) = some old) :
    (create row).Does d time (.error (.alreadyExists row.id)) rows := by
  have hany : (rows.map StatusRow.columns).any (·.id = row.id.text) := by
    rw [any_columns, hold]
    rfl
  have hanswer : d.tables.answer time (.insertStatus (.columns row)) =
      .error (.duplicateKey "job_status_pkey") := by
    simp only [Tables.answer, h.statusTable]
    change (if (rows.map StatusRow.columns).any (·.id = row.id.text) then _ else _) = _
    rw [if_pos hany]
    rfl
  refine .of_eq ?_ h
  unfold Query.on create
  rw [Query.run_bind, StatusRow.ofStatus_eq hwritable, Query.run_check]
  simp only [Query.run_bind, run_ask h.quiet (s := .insertStatus _) rfl, hanswer]
  rfl

theorem merge_of_cancelled {old : JobStatus} (hold : rows.find? (·.id = row.id) = some old)
    (hstate : old.state = .cancelled) : (merge row).Does d time (.ok old) rows := by
  have hanswer : d.tables.answer time (.mergeStatus (.columns row)) =
      .ok (.statuses [], []) := by
    simp only [Tables.answer, h.statusTable, bind, Except.bind, merge_columns_some hold, hstate,
      ↓reduceIte]
    rfl
  have hload : (load row.id).run.run (.fresh (d.write []) time) =
      (.ok (some old), .fresh d time) := hold ▸ load_run h row.id
  have hfirst : first (.statuses []) = .ok none := rfl
  refine .of_eq ?_ h
  unfold Query.on merge
  rw [Query.run_bind, StatusRow.ofStatus_eq hwritable, Query.run_check]
  simp only [Query.run_bind, ask, run_ask h.quiet (s := .mergeStatus _) rfl, hanswer,
    Query.run_check, hfirst, hload]
  rfl

theorem merge_of_some {old : JobStatus} (hold : rows.find? (·.id = row.id) = some old)
    (hstate : old.state ≠ .cancelled) :
    let merged := JobStatus.truncated { row with createdAt := old.createdAt, updatedAt := time }
    (merge row).Does d time (.ok merged) (JobStatus.replace rows merged) := by
  intro merged
  have hmem : old ∈ rows := List.mem_of_find?_eq_some hold
  have hid : old.id = row.id := by simpa using List.find?_some hold
  have hmerged : merged.Writable := ⟨hwritable.key, hwritable.owner, hwritable.attempts⟩
  have hexact : merged.truncated = merged := JobStatus.truncated_truncated _
  have hanswer : d.tables.answer time (.mergeStatus (.columns row)) =
      .ok (.statuses [some (.columns merged)],
        [.changeStatus row.id.text (·.overwrite (.columns row) time)]) := by
    simp only [Tables.answer, h.statusTable, bind, Except.bind, merge_columns_some hold, hstate,
      ↓reduceIte, merged, StatusRow.columns_truncated]
    rfl
  have hfirst : first (.statuses [some (.columns merged)]) = .ok (some merged) := by
    change ((StatusRow.columns merged).toStatus).map some = _
    rw [StatusRow.toStatus_columns hmerged, hexact]
    rfl
  have hchange : ∀ r ∈ rows, r.id = merged.id →
      (StatusRow.columns r).overwrite (.columns row) time = .columns merged := by
    intro r hr hrid
    rw [h.eq_of_id hr hmem (hrid.trans hid.symm), StatusRow.overwrite_columns hid]
    exact (StatusRow.columns_truncated _).symm
  refine .of_eq ?_ (h.replace (·.overwrite (.columns row) time) hmerged hexact hchange)
  unfold Query.on merge
  rw [Query.run_bind, StatusRow.ofStatus_eq hwritable, Query.run_check]
  simp only [Query.run_bind, ask, run_ask h.quiet (s := .mergeStatus _) rfl, hanswer,
    Query.run_check, hfirst]
  rfl

include htimes

theorem create_of_none (hnone : rows.find? (·.id = row.id) = none) :
    (create row).Does d time (.ok ()) (rows ++ [row]) := by
  have hany : ¬ (rows.map StatusRow.columns).any (·.id = row.id.text) := by
    rw [any_columns, hnone]
    exact Bool.false_ne_true
  have hanswer : d.tables.answer time (.insertStatus (.columns row)) =
      .ok (.done, [.addStatus (.columns row)]) := by
    simp only [Tables.answer, h.statusTable]
    change (if (rows.map StatusRow.columns).any (·.id = row.id.text) then _ else _) = _
    rw [if_neg hany]
    rfl
  refine .of_eq ?_ (h.add (ids_of_find hnone) hwritable htimes)
  unfold Query.on create
  rw [Query.run_bind, StatusRow.ofStatus_eq hwritable, Query.run_check]
  simp only [Query.run_bind, run_ask h.quiet (s := .insertStatus _) rfl, hanswer]
  rfl

theorem merge_of_none (hnone : rows.find? (·.id = row.id) = none) :
    (merge row).Does d time (.ok row) (rows ++ [row]) := by
  have hanswer : d.tables.answer time (.mergeStatus (.columns row)) =
      .ok (.statuses [some (.columns row)], [.addStatus (.columns row)]) := by
    simp only [Tables.answer, h.statusTable, bind, Except.bind, merge_columns_none hnone]
    rfl
  have hfirst : first (.statuses [some (.columns row)]) = .ok (some row) := by
    change ((StatusRow.columns row).toStatus).map some = _
    rw [StatusRow.toStatus_columns hwritable, htimes]
    rfl
  refine .of_eq ?_ (h.add (ids_of_find hnone) hwritable htimes)
  unfold Query.on merge
  rw [Query.run_bind, StatusRow.ofStatus_eq hwritable, Query.run_check]
  simp only [Query.run_bind, ask, run_ask h.quiet (s := .mergeStatus _) rfl, hanswer,
    Query.run_check, hfirst]
  rfl

end

section

variable {row : JobStatus} {key : JobKey} {u : StatusUpdate} {now later : Instant}

private theorem run_ask_inside {ε : Type} {onError : DatabaseError → ε} {s : Statement}
    {writes more : List Write} {reply : Reply} (hs : s.isPlain)
    (hanswer : (d.write writes).tables.answer time s = .ok (reply, more)) :
    (Query.ask onError s).run.run (.inside d time writes) =
      (.ok reply, .inside d time (writes ++ more)) := by
  rw [Query.ask, Query.run_step, Connection.execute_inside h.quiet hs hanswer]
  rfl

theorem lock_run (key : JobKey) :
    (ask "lock_status" (.lockStatus key.text)).run.run (.inside d time []) =
      (.ok (.statuses (((rows.map StatusRow.columns).filter (·.id = key.text)).map some)),
        .inside d time []) := by
  refine run_ask_inside h rfl ?_
  change d.tables.answer time (.lockStatus key.text) = _
  simp only [Tables.answer, h.statusTable]
  rfl

private theorem change_run (text : String) (c : StatusChange) :
    (ask "update_status" (.changeStatus text c)).run.run (.inside d time []) =
      (.ok .done, .inside d time [.changeStatus text (·.change c)]) := by
  refine run_ask_inside h rfl ?_
  change d.tables.answer time (.changeStatus text c) = _
  simp only [Tables.answer, h.statusTable]
  rfl

theorem transition_of_none (hnone : rows.find? (·.id = key) = none) :
    (transition key u now later).Does d time (.error (.notFound key)) rows := by
  have hchange : (change key u now later).run.run (.inside d time []) =
      (.ok (.error (.notFound key)), .inside d time []) := by
    unfold change
    simp only [Query.run_bind, lock_run h, Query.run_check, first_filter h, hnone]
    rfl
  exact .of_eq (Query.atomically_refused h.quiet hchange) h

theorem transition_of_refused (hrow : rows.find? (·.id = key) = some row)
    (hstate : row.state.canMoveTo u.state = false) :
    (transition key u now later).Does d time
      (.error (.invalidTransition row.id row.state u.state)) rows := by
  have happly : u.apply row now = .error (.invalidTransition row.id row.state u.state) := by
    rw [u.apply_eq, hstate]
    rfl
  have hchange : (change key u now later).run.run (.inside d time []) =
      (.ok (.error (.invalidTransition row.id row.state u.state)), .inside d time []) := by
    unfold change
    simp only [Query.run_bind, lock_run h, Query.run_check, first_filter h, hrow, happly]
    rfl
  exact .of_eq (Query.atomically_refused h.quiet hchange) h

theorem transition_of_moved (hrow : rows.find? (·.id = key) = some row)
    (hstate : row.state.canMoveTo u.state) (hattempt : ∀ n ∈ u.attempt, n ≤ StatusRow.maxAttempts) :
    let moved := u.moved row now later
    (transition key u now later).Does d time (.ok moved)
      (JobStatus.replace rows moved.truncated) := by
  intro moved
  have hmem : row ∈ rows := List.mem_of_find?_eq_some hrow
  have hwritable : moved.Writable := (h.kept row hmem).1.moved hattempt now later
  have happly : u.apply row now = .ok (u.moved row now now) := by
    rw [u.apply_eq, if_pos hstate]
  let written := StatusRow.columns moved
  let c : StatusChange :=
    { state := written.state, result := written.result, attempts := written.attempts
      updatedAt := written.updatedAt, startedAt := written.startedAt
      finishedAt := written.finishedAt }
  have hwritten : StatusRow.ofStatus
      { u.moved row now now with updatedAt := Stamp.ofInstant later } = .ok written :=
    StatusRow.ofStatus_eq hwritable
  have hrun : (change key u now later).run.run (.inside d time []) =
      (.ok (.ok moved), .inside d time [.changeStatus written.id (·.change c)]) := by
    unfold change
    simp only [Query.run_bind, lock_run h, Query.run_check, first_filter h, hrow, happly, hwritten]
    rw [change_run h]
    rfl
  have hchange : ∀ r ∈ rows, r.id = moved.truncated.id →
      (StatusRow.columns r).change c = .columns moved.truncated := by
    intro r hr hrid
    have hsame : r.id = row.id := hrid
    rw [h.eq_of_id hr hmem hsame, StatusRow.columns_truncated]
    rfl
  exact .of_eq (Query.atomically_ok h.quiet hrun)
    (h.replace (·.change c) hwritable.truncated (JobStatus.truncated_truncated _) hchange)

/-- An update with more attempts than a row can hold is not written. -/
theorem transition_of_unwritable {n : Nat} (hrow : rows.find? (·.id = key) = some row)
    (hstate : row.state.canMoveTo u.state) (hn : u.attempt = some n)
    (hlarge : StatusRow.maxAttempts < n) :
    (transition key u now later).Does d time
      (.error (.storage ("attempt count " ++ toString n ++ " out of range"))) rows := by
  have happly : u.apply row now = .ok (u.moved row now now) := by
    rw [u.apply_eq, if_pos hstate]
  have hattempts : (u.moved row now now).attempts = n := by
    change u.attempt.getD row.attempts = n
    rw [hn]
    rfl
  have hcolumn : StatusRow.attemptsColumn n =
      .error (.storage ("attempt count " ++ toString n ++ " out of range")) :=
    if_neg (Nat.not_le.mpr hlarge)
  have hunwritten : StatusRow.ofStatus
      { u.moved row now now with updatedAt := Stamp.ofInstant later } =
        .error (.storage ("attempt count " ++ toString n ++ " out of range")) := by
    unfold StatusRow.ofStatus
    simp only [hattempts, hcolumn]
    rfl
  have hchange : (change key u now later).run.run (.inside d time []) =
      (.error (.storage ("attempt count " ++ toString n ++ " out of range")),
        .inside d time []) := by
    unfold change
    simp only [Query.run_bind, lock_run h, Query.run_check, first_filter h, hrow, happly,
      hunwritten]
  exact .of_eq (Query.atomically_failed h.quiet hchange) h

end

theorem list_does (q : StatusQuery) : (list q).Does d time (.ok (q.select rows)) rows := by
  have hanswer : d.tables.answer time
      (.listStatuses (q.owner.map (·.text)) (q.state.map (·.name)) q.kind q.limit) =
        .ok (.statuses (((q.select rows).map StatusRow.columns).map some), []) := by
    simp only [Tables.answer, h.statusTable, bind, Except.bind, list_columns h.kept]
    rfl
  have hdecode := mapM_decode fun row hrow => h.toStatus (q.mem_of_mem_select hrow)
  refine .of_eq ?_ h
  unfold Query.on list
  simp only [Query.run_bind, ask, run_ask h.quiet (s := .listStatuses _ _ _ _) rfl, hanswer,
    Query.run_check, Reply.statusRows, hdecode]
  rfl

theorem stats_does (owner : Option TenantKey) :
    (stats owner).Does d time (.ok (.ofRows owner rows)) rows := by
  have hanswer : d.tables.answer time (.countStates (owner.map (·.text))) =
      .ok (.counts (groups (Tables.countStates (rows.map .columns) (owner.map (·.text)))), []) := by
    simp only [Tables.answer, h.statusTable]
    rfl
  refine .of_eq ?_ h
  unfold Query.on stats
  simp only [Query.run_bind, ask, run_ask h.quiet (s := .countStates _) rfl, hanswer,
    Query.run_check, Reply.countRows, tally_countStates]
  rfl

end

end DatabaseLedger

end JobEngine
