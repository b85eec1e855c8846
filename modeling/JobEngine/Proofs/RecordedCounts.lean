import JobEngine.Proofs.Listing
import JobEngine.Proofs.RunEffects
import JobEngine.Proofs.Subscribers
import JobEngine.Statistic.History
import JobEngine.Statistic.Memory
import Mathlib.Data.List.Forall2
/-! The statistics of a run, against the rows that they count and the events that tell of them. The
entries are taken one after the other, and each may be the last: when its record is refused, the
statistics before it stay, but no event of the run is sent. -/

namespace JobEngine

variable {σ : Type}

def EntryType.counts : EntryType → JobState → Bool
  | .totalJobs, _ => true
  | .activeJobs, state => state = .pending || state = .running
  | .failedJobs, state => state = .failed

def Statistic.news (s : Statistic) : News where
  eventType := "statistic.recorded"
  target := s.entryType.name
  tenant := s.owner
  payload := .obj [("statistic_id", .str s.id.text), ("value_type", .str s.valueType.name),
    ("value", .int s.value)]

namespace MemoryLedger

def inScope (owner : Option TenantKey) (row : JobStatus) : Bool :=
  owner.isNone || row.owner = owner

def census (l : MemoryLedger) (entry : EntryType) (owner : Option TenantKey) : Nat :=
  l.rows.values.countP fun row => inScope owner row && entry.counts row.state

variable {owner : Option TenantKey}

theorem isMatch_eq (state : Option JobState) (row : JobStatus) :
    StatusQuery.isMatch { owner, state } row =
      (inScope owner row && StatusQuery.meets state row.state) := by
  unfold StatusQuery.isMatch inScope
  cases owner <;> simp [StatusQuery.meets]

private theorem countP_add_countP {α : Type} {p q : α → Bool} (apart : ∀ a, p a → q a = false)
    (items : List α) : items.countP p + items.countP q = items.countP fun a => p a || q a := by
  induction items with
  | nil => rfl
  | cons a rest ih =>
    simp only [List.countP_cons, ← ih]
    cases hp : p a with
    | true => simp [apart a hp]; omega
    | false => simp; omega

theorem count_stats (l : MemoryLedger) (entry : EntryType) (owner : Option TenantKey) :
    entry.count (l.stats owner) = l.census entry owner := by
  have hstate (state : JobState) : (l.stats owner).get state =
      l.rows.values.countP fun row => inScope owner row && decide (row.state = state) :=
    (LedgerStats.get_ofRows owner _ state).trans
      (congrArg (l.rows.values.countP ·) (funext (isMatch_eq (some state))))
  cases entry with
  | totalJobs =>
    exact (LedgerStats.total_ofRows owner _).trans
      (congrArg (l.rows.values.countP ·) (funext (isMatch_eq none)))
  | activeJobs =>
    change (l.stats owner).get .pending + (l.stats owner).get .running = _
    rw [hstate, hstate, countP_add_countP]
    · refine congrArg (l.rows.values.countP ·) (funext fun row => ?_)
      exact (Bool.and_or_distrib_left _ _ _).symm
    · intro row hpending
      simp only [Bool.and_eq_true, decide_eq_true_eq] at hpending
      simp [hpending.2]
  | failedJobs => exact hstate .failed

end MemoryLedger

namespace StatisticHistory

structure Tallies (l : MemoryLedger) (owner : Option TenantKey) (entry : EntryType)
    (s : Statistic) : Prop where
  value : s.value = l.census entry owner
  entryType : s.entryType = entry
  valueType : s.valueType = .raw
  owner : s.owner = owner

section

variable (store : StatisticStore σ) (rows : σ → List Statistic) (l : MemoryLedger)
variable (owner : Option TenantKey) (before : List Statistic)
variable (entries : List EntryType) (recorded : List Statistic)

/-- The store took these statistics one after the other, on top of the rows that it had. They are
those of as many entries, the first ones. -/
structure Taken : Prop where
  tallied : List.Forall₂ (Tallies l owner) (entries.take recorded.length) recorded
  accepted : ∀ front s, front ++ [s] <+: recorded →
    ∃ k : Host σ, rows k.app = before ++ front ∧ (store.record s k).1 = .ok ()

structure Refused (e : StatisticError) (entry : EntryType) (s : Statistic) (k : Host σ) : Prop where
  next : entries[recorded.length]? = some entry
  tallied : Tallies l owner entry s
  reached : rows k.app = before ++ recorded
  refusal : (store.record s k).1 = .error e

structure Exceeds (entry : EntryType) : Prop where
  next : entries[recorded.length]? = some entry
  large : maxValue < l.census entry owner

/-- How the loop over the entries ends. -/
inductive Halt : Except Stop Unit → Prop where
  | complete (whole : recorded.length = entries.length) : Halt (.ok ())
  | refused (e : StatisticError) (entry : EntryType) (s : Statistic) (k : Host σ)
      (refused : Refused store rows l owner before entries recorded e entry s k) :
      Halt (.error (.failed e.toJobError))
  | tooLarge (entry : EntryType) (exceeds : Exceeds l owner entries recorded entry) :
      Halt (.error (.failed (.fatal tooLarge)))

end

section

variable {store : StatisticStore σ} {rows : σ → List Statistic} {l : MemoryLedger}
variable {owner : Option TenantKey} {before : List Statistic} {entry : EntryType}
variable {entries : List EntryType} {recorded : List Statistic} {s : Statistic}

theorem taken_nil : Taken store rows l owner before entries [] where
  tallied := .nil
  accepted front s hfront := by
    have hlength := hfront.length_le
    rw [List.length_append] at hlength
    exact absurd hlength (Nat.not_succ_le_zero _)

theorem Taken.cons {k : Host σ} (reached : rows k.app = before)
    (hrecord : (store.record s k).1 = .ok ()) (tallies : Tallies l owner entry s)
    (taken : Taken store rows l owner (before ++ [s]) entries recorded) :
    Taken store rows l owner before (entry :: entries) (s :: recorded) where
  tallied := .cons tallies taken.tallied
  accepted front s' hfront := by
    cases front with
    | nil =>
      obtain ⟨rfl, -⟩ := List.cons_prefix_cons.mp hfront
      exact ⟨k, reached.trans (List.append_nil _).symm, hrecord⟩
    | cons first front =>
      obtain ⟨rfl, hrest⟩ := List.cons_prefix_cons.mp hfront
      obtain ⟨k', hreached, haccepted⟩ := taken.accepted front s' hrest
      exact ⟨k', hreached.trans (List.append_assoc _ _ _), haccepted⟩

theorem Halt.cons {ending : Except Stop Unit}
    (halt : Halt store rows l owner (before ++ [s]) entries recorded ending) :
    Halt store rows l owner before (entry :: entries) (s :: recorded) ending := by
  cases halt with
  | complete whole => exact .complete (congrArg (· + 1) whole)
  | refused e entry s' k refused =>
    refine .refused e entry s' k ⟨refused.next, refused.tallied, ?_, refused.refusal⟩
    exact refused.reached.trans (List.append_assoc _ _ _)
  | tooLarge entry exceeds => exact .tooLarge entry ⟨exceeds.next, exceeds.large⟩

end

/-! One entry, and then all of them. -/

def register (store : StatisticStore σ) (ctx : JobContext) (entry : EntryType) (count : Nat) :
    Body σ Unit := do
  let statistic ← Body.act (Statistic.raw entry ctx.run.tenant count)
  Body.orFail StatisticError.toJobError (← Body.act (store.record statistic))
  ctx.emit (← Body.act
    (OutboundEvent.create "statistic.recorded" entry.name (payload statistic)))

section

variable {source : Source σ} {store : StatisticStore σ} {ctx : JobContext} {entry : EntryType}
variable {out : Outbox} {h : Host σ}

theorem snapshot_run (store : StatisticStore σ) (out : Outbox) {count : Nat}
    (hcount : source entry ctx.run.tenant h = (.ok count, h)) :
    StateT.run (ExceptT.run (snapshot source store ctx entry)) out h =
      if maxValue < count then ((.error (.failed (.fatal tooLarge)), out), h)
      else StateT.run (ExceptT.run (register store ctx entry count)) out h := by
  unfold snapshot
  dsimp only
  rw [Body.run_act, Engine.bind_run, hcount]
  by_cases hlarge : maxValue < count
  · rw [if_pos hlarge]
    change StateT.run (ExceptT.run (if count > maxValue then _ else _ : Body σ Unit)) out h = _
    rw [if_pos hlarge]
    rfl
  · rw [if_neg hlarge]
    change StateT.run (ExceptT.run (if count > maxValue then _ else _ : Body σ Unit)) out h = _
    rw [if_neg hlarge]
    rfl

theorem register_refused {count : Nat} {e : StatisticError} :
    let s := Statistic.raw entry ctx.run.tenant count h
    let r := store.record s.1 s.2
    r.1 = .error e → StateT.run (ExceptT.run (register store ctx entry count)) out h =
      ((.error (.failed e.toJobError), out), r.2) := by
  intro s r hrecord
  unfold register
  rw [Body.run_act, Engine.bind_run, Body.run_act, Engine.bind_run]
  change StateT.run (ExceptT.run (Body.orFail StatisticError.toJobError r.1 >>= _)) out r.2 = _
  rw [hrecord]
  rfl

theorem register_taken {count : Nat} :
    let s := Statistic.raw entry ctx.run.tenant count h
    let r := store.record s.1 s.2
    let event := OutboundEvent.create "statistic.recorded" entry.name (payload s.1) none r.2
    r.1 = .ok () → StateT.run (ExceptT.run (register store ctx entry count)) out h =
      ((.ok (), out ++ [ctx.attributed event.1]), event.2) := by
  intro s r event hrecord
  unfold register
  rw [Body.run_act, Engine.bind_run, Body.run_act, Engine.bind_run]
  change StateT.run (ExceptT.run (Body.orFail StatisticError.toJobError r.1 >>= _)) out r.2 = _
  rw [hrecord]
  rfl

end

/-- A store that keeps what it accepts in order, and when it refuses keeps what it has. It has
nothing to do with the ledger and with what was sent. -/
structure Keeps (store : StatisticStore σ) (rows : σ → List Statistic)
    (ledger : Part σ MemoryLedger) (published : σ → List OutboundEvent) : Prop where
  accepted : ∀ s h, (store.record s h).1 = .ok () →
    rows (store.record s h).2.app = rows h.app ++ [s]
  refused : ∀ s h e, (store.record s h).1 = .error e → rows (store.record s h).2.app = rows h.app
  apart : ∀ s h, Unmoved ledger.get published h (store.record s h).2

/-- How far the loop over the entries has come at its end. -/
structure Course (store : StatisticStore σ) (rows : σ → List Statistic)
    (ledger : Part σ MemoryLedger) (published : σ → List OutboundEvent)
    (owner : Option TenantKey) (entries : List EntryType) (h h' : Host σ)
    (ending : Except Stop Unit) (recorded : List Statistic) (sent : List OutboundEvent) :
    Prop where
  unmoved : Unmoved ledger.get published h h'
  grown : rows h'.app = rows h.app ++ recorded
  taken : Taken store rows (ledger.get h.app) owner (rows h.app) entries recorded
  news : sent.map OutboundEvent.news = recorded.map Statistic.news
  halt : Halt store rows (ledger.get h.app) owner (rows h.app) entries recorded ending

section

variable {store : StatisticStore σ} {rows : σ → List Statistic} {ledger : Part σ MemoryLedger}
variable {published : σ → List OutboundEvent}

theorem snapshots_run (keeps : Keeps store rows ledger published) (ctx : JobContext)
    (entries : List EntryType) (out : Outbox) (h : Host σ) : ∃ recorded sent ending h',
      StateT.run (ExceptT.run
        (snapshots (countRows (MemoryLedger.service ledger)) store ctx entries)) out h =
          ((ending, out ++ sent), h') ∧
      Course store rows ledger published ctx.run.tenant entries h h' ending recorded sent := by
  induction entries generalizing out h with
  | nil =>
    refine ⟨[], [], .ok (), h, ?_, ⟨rfl, rfl⟩, (List.append_nil _).symm, taken_nil, rfl,
      .complete rfl⟩
    rw [List.append_nil]
    rfl
  | cons entry rest ih =>
    let owner := ctx.run.tenant
    let l := ledger.get h.app
    let count := l.census entry owner
    let source := countRows (MemoryLedger.service ledger)
    have hcount : source entry owner h = (.ok count, h) := by
      have hstats : source entry owner h = (.ok (entry.count (l.stats owner)), h) := rfl
      rw [hstats, l.count_stats]
    have hsnapshot := snapshot_run store out hcount
    -- a round ends the loop or goes on with the rest from rows that are longer by one
    by_cases hlarge : maxValue < count
    · rw [if_pos hlarge] at hsnapshot
      refine ⟨[], [], _, h, ?_, ⟨rfl, rfl⟩, (List.append_nil _).symm, taken_nil, rfl,
        .tooLarge entry ⟨rfl, hlarge⟩⟩
      rw [List.append_nil]
      exact Body.run_stopped hsnapshot
    · let s := (Statistic.raw entry owner count h).1
      let k := (Statistic.raw entry owner count h).2
      let r := store.record s k
      let event := OutboundEvent.create "statistic.recorded" entry.name (payload s) none r.2
      have tallies : Tallies l owner entry s := ⟨rfl, rfl, rfl, rfl⟩
      have hreached : rows k.app = rows h.app := rfl
      have hunmoved : Unmoved ledger.get published h r.2 := keeps.apart s k
      rw [if_neg hlarge] at hsnapshot
      cases hrecord : r.1 with
      | error e =>
        have hround := hsnapshot.trans (register_refused hrecord)
        refine ⟨[], [], _, r.2, ?_, hunmoved, ?_, taken_nil, rfl,
          .refused e entry s k ⟨rfl, tallies, (List.append_nil _).symm, hrecord⟩⟩
        · rw [List.append_nil]
          exact Body.run_stopped hround
        · exact (keeps.refused s k e hrecord).trans (List.append_nil _).symm
      | ok x =>
        have hround := hsnapshot.trans (register_taken hrecord)
        have hgrown : rows event.2.app = rows h.app ++ [s] := keeps.accepted s k hrecord
        have hledger : ledger.get event.2.app = l := hunmoved.1
        obtain ⟨recorded, sent, ending, h', hrest, course⟩ :=
          ih (out ++ [ctx.attributed event.1]) event.2
        have htaken := course.taken
        have hhalt := course.halt
        rw [hledger, hgrown] at htaken hhalt
        refine ⟨s :: recorded, ctx.attributed event.1 :: sent, ending, h', ?_,
          hunmoved.trans course.unmoved, ?_, htaken.cons hreached hrecord tallies, ?_, hhalt.cons⟩
        · refine (Body.run_ok hround).trans (hrest.trans ?_)
          rw [List.append_assoc]
          rfl
        · rw [course.grown, hgrown, List.append_assoc]
          rfl
        · rw [List.map_cons, List.map_cons, course.news]
          rfl

end

/-! A run of the statistics. -/

/-- The harness leaves the ledger and the statistics to the body, its bus takes every batch, and its
unit of work can always be closed. -/
structure Records (harness : Harness σ) (store : StatisticStore σ) (rows : σ → List Statistic)
    (ledger : Part σ MemoryLedger) (published : σ → List OutboundEvent) : Prop extends
    harness.Conveys (fun a => (ledger.get a, rows a)) published,
    Keeps store rows ledger published where
  closes : ∀ h, (harness.unitOfWork.finish h).1 = .ok ()

/-- What a run answers and sends, by how many statistics it has recorded. -/
inductive Concluded (store : StatisticStore σ) (rows : σ → List Statistic)
    (ledger : Part σ MemoryLedger) (published : σ → List OutboundEvent)
    (owner : Option TenantKey) (entries : List EntryType) (recorded : List Statistic)
    (h h' : Host σ) : Except DispatchError Unit → Prop where
  | complete (whole : recorded.length = entries.length) (sent : List OutboundEvent)
      (spread : published h'.app = published h.app ++ sent)
      (news : sent.map OutboundEvent.news = recorded.map Statistic.news) :
      Concluded store rows ledger published owner entries recorded h h' (.ok ())
  | refused (e : StatisticError) (entry : EntryType) (s : Statistic) (k : Host σ)
      (refused : Refused store rows (ledger.get h.app) owner (rows h.app) entries recorded e entry
        s k)
      (failure : DispatchError) (cause : failure.cause = .conflict e.message)
      (aftermath : (∃ delay, failure.aftermath = .refire delay) ∨ failure.aftermath = .exhausted)
      (silent : published h'.app = published h.app) :
      Concluded store rows ledger published owner entries recorded h h' (.error failure)
  | tooLarge (entry : EntryType) (exceeds : Exceeds (ledger.get h.app) owner entries recorded entry)
      (failure : DispatchError) (cause : failure.cause = .fatal tooLarge)
      (aftermath : failure.aftermath = .fatal) (silent : published h'.app = published h.app) :
      Concluded store rows ledger published owner entries recorded h h' (.error failure)

/-- A run records what its entries count, one statistic for each as far as the store takes them. If
it takes them all, they are announced as they are; otherwise nothing is. -/
theorem counts_recorded_and_announced {harness : Harness σ} {store : StatisticStore σ}
    {rows : σ → List Statistic} {ledger : Part σ MemoryLedger}
    {published : σ → List OutboundEvent} (records : Records harness store rows ledger published)
    (entries : List EntryType) (fire : FireContext) (h : Host σ) :
    let owner := fire.data.owner?
    let r := harness.run (job (countRows (MemoryLedger.service ledger)) store entries) fire h
    ∃ recorded, ledger.get r.2.app = ledger.get h.app ∧ rows r.2.app = rows h.app ++ recorded ∧
      Taken store rows (ledger.get h.app) owner (rows h.app) entries recorded ∧
      Concluded store rows ledger published owner entries recorded h r.2 r.1 := by
  intro owner r
  let statistics := job (countRows (MemoryLedger.service ledger)) store entries
  obtain ⟨context, begun, passage⟩ := records.toConveys.run_passes statistics fire h
  let logged := (Act.log .tasks .info "executing statistic history job" [] begun).2
  obtain ⟨recorded, sent, ending, h', hrun, course⟩ :=
    snapshots_run records.toKeeps context entries [] logged
  have hbody : (statistics.body context).execute begun = ((ending, sent), h') := hrun
  obtain ⟨hkept, hsettled⟩ := passage.settles hbody
  have hledger : ledger.get logged.app = ledger.get h.app := congrArg Prod.fst passage.before.1
  have hrows : rows logged.app = rows h.app := congrArg Prod.snd passage.before.1
  obtain ⟨⟨hledger', hsilent⟩, hgrown, htaken, hnews, hhalt⟩ := course
  rw [hledger, hrows, passage.tenant] at htaken hhalt
  refine ⟨recorded, (congrArg Prod.fst hkept).trans (hledger'.trans hledger),
    (congrArg Prod.snd hkept).trans (hgrown.trans (congrArg (· ++ recorded) hrows)), htaken, ?_⟩
  have hquiet : published h'.app = published h.app := hsilent.trans passage.before.2
  change Settled harness statistics fire published h' sent r.2 ending r.1 at hsettled
  cases hhalt with
  | complete whole =>
    obtain ⟨hanswer, hspread⟩ := hsettled.succeeds records.closes
    rw [hanswer]
    exact .complete whole sent (hspread.trans (congrArg (· ++ sent) hquiet)) hnews
  | refused e entry s k refused =>
    obtain ⟨hanswer, hdropped⟩ := hsettled.fails
    have hretryable : (statistics.classify e.toJobError).isRetryable := rfl
    rw [hanswer]
    exact .refused e entry s k refused _ rfl
      (harness.policy.aftermath_of_retryable fire.refireCount hretryable) (hdropped.trans hquiet)
  | tooLarge entry exceeds =>
    obtain ⟨hanswer, hdropped⟩ := hsettled.fails
    rw [hanswer]
    exact .tooLarge entry exceeds _ rfl rfl (hdropped.trans hquiet)

/-! Stores in memory. -/

private theorem record_rows (s : Statistic) (m : MemoryStatistics) : (m.record s).2.rows =
    if (m.record s).1.isOk then m.rows ++ [s] else m.rows := by
  unfold MemoryStatistics.record
  split <;> rfl

theorem memory_keeps {store : StatisticStore σ} {p : Part σ MemoryStatistics}
    {ledger : Part σ MemoryLedger} {published : σ → List OutboundEvent}
    (lawful : ∀ m a, p.get (p.put m a) = m) (apart : ∀ m a, ledger.get (p.put m a) = ledger.get a)
    (mute : ∀ m a, published (p.put m a) = published a)
    {step : Statistic → MemoryStatistics → Except StatisticError Unit × MemoryStatistics}
    (hstore : ∀ s, store.record s = p.run (step s))
    (hstep : ∀ s m, (step s m).2.rows = if (step s m).1.isOk then m.rows ++ [s] else m.rows) :
    Keeps store (fun a => (p.get a).rows) ledger published where
  accepted s h hrecord := by
    rw [hstore] at hrecord ⊢
    change (step s (p.get h.app)).1 = .ok () at hrecord
    change (p.get (p.put (step s (p.get h.app)).2 h.app)).rows = _
    rw [lawful, hstep, hrecord]
    rfl
  refused s h e hrecord := by
    rw [hstore] at hrecord ⊢
    change (step s (p.get h.app)).1 = .error e at hrecord
    change (p.get (p.put (step s (p.get h.app)).2 h.app)).rows = _
    rw [lawful, hstep, hrecord]
    rfl
  apart s h := by
    rw [hstore]
    exact ⟨apart _ _, mute _ _⟩

/-! A bureau that has room for so many statistics. -/

structure Bureau where
  ledger : MemoryLedger := {}
  statistics : MemoryStatistics := {}
  sent : List OutboundEvent := []
  units : ThreadUnits := {}

namespace Bureau

def ledgerPart : Part Bureau MemoryLedger := ⟨(·.ledger), fun t b => { b with ledger := t }⟩

def statisticsPart : Part Bureau MemoryStatistics :=
  ⟨(·.statistics), fun t b => { b with statistics := t }⟩

def unitsPart : Part Bureau ThreadUnits := ⟨(·.units), fun t b => { b with units := t }⟩

def busPart : Part Bureau (Broadcast OutboundEvent) :=
  ⟨fun b => { history := b.sent }, fun t b => { b with sent := t.history }⟩

def record (room : Nat) (s : Statistic) (m : MemoryStatistics) :
    Except StatisticError Unit × MemoryStatistics :=
  if m.size < room then m.record s else (.error (.storage "disk full"), m)

def store (room : Nat) : StatisticStore Bureau :=
  { MemoryStatistics.service statisticsPart with record s := statisticsPart.run (record room s) }

def harness : Harness Bureau where
  policy := .unlimited
  bus := Broadcast.service busPart
  unitOfWork := some (ThreadUnits.service unitsPart .worker)

theorem records (room : Nat) :
    Records harness (store room) (·.statistics.rows) ledgerPart (·.sent) where
  toKeeps := memory_keeps (p := statisticsPart) (fun _ _ => rfl) (fun _ _ => rfl) (fun _ _ => rfl)
    (fun _ => rfl) fun s m => by
      unfold record
      split
      · exact record_rows s m
      · rfl
  enter := nofun
  leave := nofun
  begin := by
    rintro _ ⟨⟩ h
    exact ⟨rfl, rfl⟩
  finish := by
    rintro _ ⟨⟩ h
    exact ⟨rfl, rfl⟩
  abort := by
    rintro _ ⟨⟩ h
    exact ⟨rfl, rfl⟩
  accepts batch h :=
    ⟨⟨_, rfl⟩, rfl, (Broadcast.history_deliver { history := h.app.sent } batch).2⟩
  closes := ThreadUnits.service_closes unitsPart .worker

def acme : TenantKey := ⟨"acme"⟩

def row (key : String) (owner : Option TenantKey) (state : JobState) : JobStatus :=
  { JobStatus.initial { key := ⟨key⟩, kind := "report" } true .epoch with owner, state }

def busy : Host Bureau where
  clock := .epoch
  app :=
    { ledger :=
        { rows := [row "a" (some acme) .pending, row "b" (some acme) .running,
            row "c" (some acme) .failed, row "d" none .running].map fun r => (r.id, r) } }

def fire (data : TriggerData) : FireContext where
  definition := { key := ⟨"k"⟩, kind := StatisticHistory.kind }
  data
  refireCount := 0
  scheduledFor := .epoch
  firedAt := .epoch

def owned : TriggerData := .ofList [(TriggerData.ownerId, "acme")]

def entries : List EntryType := [.totalJobs, .activeJobs, .activeJobs]

def run (room : Nat) (data : TriggerData) : Except DispatchError Unit × Host Bureau :=
  harness.run (job (countRows (MemoryLedger.service ledgerPart)) (store room) entries) (fire data)
    busy

/-- The statistics of the owner are all taken and announced. Of those of everyone only the first is
taken, since there is no more room, and nothing is announced. -/
theorem busy_jobs_recorded :
    (run 3 owned).2.app.statistics.rows.map (·.value) = [3, 2, 2] ∧
      (run 3 owned).2.app.sent.length = 3 ∧
      Concluded (store 3) (·.statistics.rows) ledgerPart (·.sent) owned.owner? entries
        (run 3 owned).2.app.statistics.rows busy (run 3 owned).2 (run 3 owned).1 ∧
      (run 1 .empty).2.app.statistics.rows.map (·.value) = [4] ∧
      (run 1 .empty).2.app.sent.length = 0 ∧
      Concluded (store 1) (·.statistics.rows) ledgerPart (·.sent) (TriggerData.owner? .empty)
        entries (run 1 .empty).2.app.statistics.rows busy (run 1 .empty).2
        (run 1 .empty).1 := by
  have concluded (room : Nat) (data : TriggerData) :
      Concluded (store room) (·.statistics.rows) ledgerPart (·.sent) data.owner? entries
        (run room data).2.app.statistics.rows busy (run room data).2 (run room data).1 := by
    obtain ⟨recorded, -, hrecorded, -, hrun⟩ :=
      counts_recorded_and_announced (records room) entries (fire data) busy
    have hrows := hrecorded.trans (List.nil_append recorded)
    unfold run
    rw [hrows]
    exact hrun
  exact ⟨by decide +kernel, by decide +kernel, concluded 3 owned, by decide +kernel,
    by decide +kernel, concluded 1 .empty⟩

end Bureau

end StatisticHistory

end JobEngine
