import JobEngine.Proofs.Announcement
import JobEngine.Proofs.Watch
/-! Statistics that were cancelled stand still after a restart as well. They get their slot back,
and the status listener vetoes it and every other fire of theirs, whatever else the worker does. -/

namespace JobEngine

open Relation (ReflTransGen)
open StatusLedger (Command)

namespace Worker

def engineWith (s : WorkerSession) (other : Job Worker) : Engine Worker WorkerJob Unit :=
  { engine s with
    job := fun
      | .statistics => other
      | .refresh => refreshJob }

def Harmless : Launch WorkerJob Unit → Prop
  | .idle => True
  | .grounded taken outcome => taken.fire.key = statisticsKey → outcome = .vetoed
  | .airborne flight => flight.taken.fire.key ≠ statisticsKey ∧ flight.handler = .refresh

section

variable {b : Backend} {row : JobStatus} {s : WorkerSession} (hstores : s.stores = b.stores)
variable (hkey : row.id = statisticsKey) (cancelled : row.state = .cancelled)

include hstores cancelled

private theorem listener_before (n : Unit) (fire : FireContext) :
    Act.Keeps (b.Bears row Watched) (((engine s).listener n).before fire) := by
  change Act.Keeps _ (StatusListener.before (s.stores.ledger .worker) fire)
  rw [hstores]
  exact before_bears cancelled .worker fire

private theorem listener_after (n : Unit) (fire : FireContext)
    (result : Except DispatchError Unit) :
    Act.Keeps (b.Bears row Watched) (((engine s).listener n).after fire result) := by
  change Act.Keeps _ (StatusListener.after (s.stores.ledger .worker) fire result)
  rw [hstores]
  exact after_bears cancelled .worker fire result

include hkey

theorem firstVeto_statistics {fire : FireContext} (hfire : fire.key = statisticsKey)
    {listeners : Assoc String Unit} (heard : listeners ≠ []) :
    Act.Triple (b.Bears row Watched) ((engine s).firstVeto fire listeners) fun veto w =>
      veto.isSome ∧ b.Bears row Watched w := by
  obtain ⟨⟨name, ⟨⟩⟩, rest, rfl⟩ := List.exists_cons_of_ne_nil heard
  have hbefore : Act.Triple (b.Bears row Watched) (((engine s).listener ()).before fire)
      fun verdict w => verdict = .veto ∧ b.Bears row Watched w := by
    change Act.Triple _ (StatusListener.before (s.stores.ledger .worker) fire) _
    rw [hstores]
    exact before_vetoes cancelled .worker (hfire.trans hkey.symm)
  refine hbefore.bind fun verdict => .assuming ?_
  rintro rfl
  exact .pure fun w hbears => ⟨rfl, hbears⟩

/-- A fire of the statistics is vetoed, and what else may run is a refresh. -/
theorem permit_harmless {taken : TakenFire Unit} (known : Taken taken) {fire : FireContext}
    (hdefinition : fire.definition = taken.job.definition) :
    Act.Triple (b.Bears row Watched) ((engine s).permit fire taken.listeners) fun r w =>
      (match r with
        | .error outcome => taken.fire.key = statisticsKey → outcome = .vetoed
        | .ok handler => taken.fire.key ≠ statisticsKey ∧ handler = .refresh) ∧
      b.Bears row Watched w := by
  have kind := Act.keeps_composes (b.Bears row Watched)
  have hread : Act.Triple (b.Bears row Watched)
      ((engine s).scheduler.read (·.registry.resolve fire.definition.kind)) fun r w =>
        r = ({} : Worker).scheduler.registry.resolve taken.job.definition.kind ∧
          b.Bears row Watched w := by
    intro h hbears
    refine ⟨?_, hbears⟩
    change h.app.scheduler.registry.resolve fire.definition.kind = _
    rw [hbears.1.registry, hdefinition]
  refine hread.bind fun resolved => .assuming ?_
  rintro rfl
  obtain ⟨handler, hresolve⟩ := Option.isSome_iff_exists.mp known.handled
  rw [hresolve]
  by_cases hstatistics : taken.fire.key = statisticsKey
  · have hfire : fire.key = statisticsKey := by
      unfold FireContext.key
      rw [hdefinition, known.key, hstatistics]
    refine (firstVeto_statistics hstores hkey cancelled hfire known.heard).bind fun veto =>
      .assuming fun hveto => ?_
    obtain ⟨name, rfl⟩ := Option.isSome_iff_exists.mp hveto
    exact (kind.log _ _ _ _).bind fun _ => .pure fun w hbears => ⟨fun _ => rfl, hbears⟩
  · have hrefresh : handler = .refresh := by
      rw [resolve_eq] at hresolve
      split at hresolve
      next hkind => exact absurd (known.alone hkind.symm) hstatistics
      · split at hresolve <;> cases hresolve
        rfl
    have hveto := kind.firstVeto (listener_before hstores cancelled) fire taken.listeners
    refine hveto.bind fun veto => ?_
    cases veto with
    | none => exact .pure fun w hbears => ⟨⟨hstatistics, hrefresh⟩, hbears⟩
    | some name =>
      refine (kind.log _ _ _ _).bind fun _ => .pure fun w hbears => ⟨?_, hbears⟩
      exact fun h => absurd h hstatistics

theorem launch_harmless :
    Act.Triple (b.Bears row Watched) (engine s).launch fun launched w =>
      Harmless launched ∧ b.Bears row Watched w := by
  have kind := Act.keeps_composes (b.Bears row Watched)
  refine kind.now.bind fun now => ?_
  have htake : Act.Triple (b.Bears row Watched) ((engine s).scheduler.run (·.take now))
      fun r w => (∀ taken ∈ r, Taken taken) ∧ b.Bears row Watched w := by
    rintro h ⟨watched, hrows⟩
    exact ⟨fun taken htaken => watched.taken (Prod.ext htaken rfl), watched.take now, hrows⟩
  refine htake.bind fun r => .assuming fun known => ?_
  cases r with
  | none => exact .pure fun w hbears => ⟨trivial, hbears⟩
  | some taken =>
    have hcreate : Act.Triple (b.Bears row Watched)
        (FireContext.create taken.job.definition taken.fire.triggerData taken.fire.refireCount)
        fun fire w => fire.definition = taken.job.definition ∧ b.Bears row Watched w :=
      fun _ hbears => ⟨rfl, hbears⟩
    refine hcreate.bind fun fire => .assuming fun hdefinition => ?_
    let context : FireContext := { fire with scheduledFor := taken.fire.scheduledFor }
    have hcontext : context.definition = taken.job.definition := hdefinition
    refine (permit_harmless hstores hkey cancelled (known taken rfl) hcontext).bind fun r => ?_
    cases r with
    | error outcome => exact .pure fun w hw => hw
    | ok handler => exact .pure fun w hw => hw

omit hkey cancelled in
theorem refresh_brackets : (engine s).harness.Brackets (b.stores.unitOfWork .worker) refreshJob
    (b.During .worker row Watched) where
  unitOfWork := congrArg (fun t : Stores Worker => some (t.unitOfWork .worker)) hstores
  enter := nofun
  leave := nofun
  publish := fun _ _ hbears => hbears
  body owns context h hduring := by
    have hput (pools : PoolStore) :
        b.During .worker row Watched owns (poolsPart.put pools h.app) := by
      cases owns <;> cases b <;> exact hduring
    cases howner : context.run.tenant with
    | none =>
      obtain ⟨e, hrun⟩ := PoolRefresh.body_ownerless poolsPart howner h
      change b.During _ _ _ owns ((PoolRefresh.body _ context).execute h).2.app
      rw [hrun]
      exact hduring
    | some owner =>
      obtain ⟨events, h', hrun, -, happ⟩ := PoolRefresh.body_run poolsPart howner h
      change b.During _ _ _ owns ((PoolRefresh.body _ context).execute h).2.app
      rw [hrun, happ]
      exact hput _
  begin := Backend.begin_during .worker
  finish := Backend.finish_during .worker
  abort := Backend.abort_during .worker

def Vetoed (report : FireReport) : Prop := report.key = statisticsKey → report.outcome = .vetoed

omit hstores hkey cancelled in
private theorem settle_bears (taken : TakenFire Unit) (outcome : FireOutcome) :
    Act.Keeps (b.Bears row Watched) ((engine s).settle taken outcome) :=
  (Act.keeps_composes (b.Bears row Watched)).settleFire fun now =>
    on_scheduler (Q := fun _ => Watched) fun _ watched => watched.afterFire _ _ _ now

theorem fireNext_bears : Act.Triple (b.Bears row Watched) (engine s).fireNext fun r w =>
    (∀ report, r = .fired report → Vetoed report) ∧ b.Bears row Watched w := by
  have kind := Act.keeps_composes (b.Bears row Watched)
  refine (launch_harmless hstores hkey cancelled).bind fun launched => .assuming fun harmless => ?_
  cases launched with
  | idle => exact .pure fun w hbears => ⟨nofun, hbears⟩
  | grounded taken outcome =>
    intro h hbears
    refine ⟨fun report hreport => ?_, settle_bears taken outcome h hbears⟩
    rw [Engine.settle_report hreport]
    exact harmless
  | airborne flight =>
    obtain ⟨hother, hrefresh⟩ := harmless
    have hrun : Act.Keeps (b.Bears row Watched)
        ((engine s).harness.run ((engine s).job flight.handler) flight.context) := by
      rw [hrefresh]
      exact (refresh_brackets hstores).run flight.context
    refine hrun.bind fun result => ?_
    refine (kind.tellAll (listener_after hstores cancelled) flight.context result
      flight.taken.listeners).bind fun _ => ?_
    intro h hbears
    refine ⟨fun report hreport => ?_, settle_bears _ _ h hbears⟩
    rw [Engine.settle_report hreport]
    exact fun h => absurd h hother

theorem runDue_bears (n : Nat) :
    Act.Triple (b.Bears row Watched) ((engine s).runDue n) fun r w =>
      (∀ reports, r = some reports → ∀ report ∈ reports, Vetoed report) ∧
        b.Bears row Watched w := by
  induction n with
  | zero =>
    refine .pure fun w hbears => ⟨fun reports hreports => ?_, hbears⟩
    cases hreports
    exact nofun
  | succ n ih =>
    refine (fireNext_bears hstores hkey cancelled).bind fun fired => .assuming fun hfired => ?_
    cases fired with
    | idle =>
      refine .pure fun w hbears => ⟨fun reports hreports => ?_, hbears⟩
      cases hreports
      exact nofun
    | crashed => exact .pure fun w hbears => ⟨nofun, hbears⟩
    | fired report =>
      refine ih.bind fun r => .assuming fun hrest => .pure fun w hbears => ⟨?_, hbears⟩
      intro reports hreports later hlater
      obtain ⟨rest, rfl, rfl⟩ := Option.map_eq_some_iff.mp hreports
      rcases List.mem_cons.mp hlater with rfl | hlater
      · exact hfired later rfl
      · exact hrest rest rfl later hlater

theorem fireNext_engineWith (other : Job Worker) {h : Host Worker}
    (hbears : b.Bears row Watched h.app) :
    (engineWith s other).fireNext h = (engine s).fireNext h := by
  have hlaunch : (engineWith s other).launch = (engine s).launch := Engine.launch_congr rfl rfl
  have hsettle : (engineWith s other).settle = (engine s).settle := Engine.settle_congr rfl
  have hland : (engineWith s other).land = (engine s).land := Engine.land_congr rfl rfl
  have harmless := (launch_harmless hstores hkey cancelled h hbears).1
  unfold Engine.fireNext
  rw [Engine.bind_run, Engine.bind_run, hlaunch, hsettle, hland]
  cases hlaunched : ((engine s).launch h).1 with
  | idle => rfl
  | grounded taken outcome => rfl
  | airborne flight =>
    rw [hlaunched] at harmless
    obtain ⟨taken, context, handler⟩ := flight
    obtain rfl : handler = .refresh := harmless.2
    rfl

theorem runDue_engineWith (other : Job Worker) (n : Nat) {h : Host Worker}
    (hbears : b.Bears row Watched h.app) :
    (engineWith s other).runDue n h = (engine s).runDue n h := by
  induction n generalizing h with
  | zero => rfl
  | succ n ih =>
    have hfire := fireNext_engineWith hstores hkey cancelled other hbears
    have hnext := (fireNext_bears hstores hkey cancelled h hbears).2
    unfold Engine.runDue
    rw [Engine.bind_run, Engine.bind_run, hfire]
    cases (engine s).fireNext h |>.1 with
    | idle => rfl
    | crashed => rfl
    | fired report =>
      simp only
      rw [Engine.bind_run, Engine.bind_run, ih hnext]

omit hstores hkey cancelled in
private theorem logEvents_bears (events : List OutboundEvent) :
    Act.Keeps (b.Bears row Watched) (logEvents events) := by
  have kind := Act.keeps_composes (b.Bears row Watched)
  induction events with
  | nil => exact kind.pure ()
  | cons e rest ih => exact kind.bind (kind.log _ _ _ _) fun _ => ih

theorem turn_bears (stats : ExecutorStats) : Act.Keeps (b.Bears row Watched) (turn s stats) := by
  have kind := Act.keeps_composes (b.Bears row Watched)
  have hfire : Act.Keeps (b.Bears row Watched) (engine s).fireNext :=
    (fireNext_bears hstores hkey cancelled).mono (fun _ h => h) fun _ _ h => h.2
  have hturn : Act.Keeps (b.Bears row Watched)
      (Executor.turn (engine s) s.executor.pollInterval stats) := by
    apply kind.bind hfire
    intro fired
    have hsleep : Act.Keeps (b.Bears row Watched) (do
        let now ← Act.now
        let nextDue ← (engine s).scheduler.read Scheduler.nextDue
        Act.wait (Executor.idleSleep nextDue now s.executor.pollInterval)
        return stats : Act Worker ExecutorStats) :=
      kind.bind kind.now fun _ => kind.bind (kind.still fun _ => rfl) fun _ =>
        kind.bind (kind.still fun _ => rfl) fun _ => kind.pure _
    cases fired with
    | fired report => exact kind.pure _
    | idle => exact hsleep
    | crashed => exact hsleep
  have hdrain : Act.Keeps (b.Bears row Watched) (busPart.run (·.drain s.relay)) :=
    fun _ hbears => hbears
  apply kind.bind hturn
  intro stats
  exact kind.bind (kind.bind hdrain fun events => logEvents_bears events) fun _ => kind.pure _

end

/-- What happens to a worker after it has started. It takes its turns, fires what is due and submits
refreshes; jobs are fired by hand and deleted, and anybody calls the ledger. In between time passes
and lines are logged. -/
inductive Step (b : Backend) : Host Worker → Host Worker → Prop where
  | turn {s : WorkerSession} (hstores : s.stores = b.stores) (stats : ExecutorStats)
      (h : Host Worker) : Step b h (turn s stats h).2
  | fire {s : WorkerSession} (hstores : s.stores = b.stores) (n : Nat) (h : Host Worker) :
      Step b h ((engine s).runDue n h).2
  | submit (owner : TenantKey) (h : Host Worker) : Step b h (submitRefresh b.stores owner h).2
  | trigger (key : JobKey) (data : TriggerData) (h : Host Worker) :
      Step b h (service.triggerNow key data h).2
  | delete (key : JobKey) (h : Host Worker) : Step b h (service.deleteJob key h).2
  | still {α : Type} {a : Act Worker α} (still : ∀ h, (a h).2.app = h.app) (h : Host Worker) :
      Step b h (a h).2
  | call (thread : ThreadName) {call : Command} (storable : call.Storable) (h : Host Worker) :
      Step b h ((b.ledger thread).ask call h).2

/-- Whatever happens from there on, firing what is due does not depend on what the statistics would
do, and each fire of theirs is vetoed. -/
def StandsStill (b : Backend) (h : Host Worker) : Prop :=
  ∀ later, ReflTransGen (Step b) h later → ∀ s : WorkerSession, s.stores = b.stores → ∀ n,
    (∀ other, (engineWith s other).runDue n later = (engine s).runDue n later) ∧
      ∀ reports, ((engine s).runDue n later).1 = some reports → ∀ report ∈ reports, Vetoed report

section

variable {b : Backend} {row : JobStatus} {h h' : Host Worker}
variable (hkey : row.id = statisticsKey) (cancelled : row.state = .cancelled)

include hkey cancelled

theorem Step.bears (step : Step b h h') (hbears : b.Bears row Watched h.app) :
    b.Bears row Watched h'.app := by
  cases step with
  | turn hstores stats => exact turn_bears hstores hkey cancelled stats h hbears
  | fire hstores n => exact (runDue_bears hstores hkey cancelled n h hbears).2
  | submit owner => exact submitRefresh_bears cancelled owner h hbears
  | trigger key data => exact triggerNow_bears key data h hbears
  | delete key => exact deleteJob_bears key h hbears
  | still still =>
    rw [still]
    exact hbears
  | call thread storable => exact Backend.ask_bears cancelled thread _ storable h hbears

private theorem standsStill_of_bears (hbears : b.Bears row Watched h.app) : StandsStill b h := by
  intro later steps s hstores n
  have hlater : b.Bears row Watched later.app := by
    induction steps with
    | refl => exact hbears
    | tail _ step ih => exact step.bears hkey cancelled ih
  exact ⟨fun other => runDue_engineWith hstores hkey cancelled other n hlater,
    (runDue_bears hstores hkey cancelled n later hlater).1⟩

end

/-- How a worker stands that has registered its statistics at some time, on a ledger that had these
rows before. -/
structure Restarted (b : Backend) (rows : List JobStatus) (start : Instant) (w : Worker) :
    Prop where
  adopted : Adopted b rows w.storage
  stored : w.scheduler.jobs.get? statisticsKey =
    some { definition := statistics, trigger := some (daily start) }
  matched : w.scheduler.listens StatusListener.name statisticsKey
  queued : w.scheduler.queue =
    [{ due := start, seq := 1, fire := Scheduler.firstFire statisticsKey (daily start) }]

/-- A worker that starts on a ledger of any content registers its statistics without fail. They have
one row then, the one that they had before or a new one, and the other rows are as they were; they
are watched and have one fire waiting, at the start of their trigger. When the row that they had is
cancelled, they stand still from then on. -/
theorem restart_keeps_one_row (b : Backend) {h : Host Worker} {rows : List JobStatus}
    (fresh : h.app.scheduler = ({} : Worker).scheduler) (holds : b.Holds h.app.storage rows) :
    let started := registerStatistics b.stores h
    started.1 = .ok () ∧ Restarted b rows (Act.now h).1 started.2.app ∧
      ∀ old, rows.find? (·.id = statisticsKey) = some old → old.state = .cancelled →
        StandsStill b started.2 := by
  intro started
  have hstarted : started = registerFrom b.stores (Act.now h).1 (Act.now h).2 :=
    congrArg (· h) (registerStatistics_eq b.stores)
  obtain ⟨hok, hscheduler, hadopted⟩ :=
    registerFrom_triple holds.distinct (Act.now h).1 (Act.now h).2 ⟨fresh, holds⟩
  rw [← hstarted] at hok hscheduler hadopted
  refine ⟨hok, ⟨hadopted, ?_, ?_, ?_⟩, fun old hold cancelled => ?_⟩
  · rw [hscheduler]
    rfl
  · rw [hscheduler]
    rfl
  · rw [hscheduler]
    rfl
  · obtain ⟨rows', row, holds', honly, -, hresumed⟩ := hadopted
    obtain ⟨hrow, hkey⟩ := List.mem_filter.mp (honly ▸ List.mem_singleton_self row)
    rw [hold] at hresumed
    obtain rfl := hresumed.2 cancelled
    refine standsStill_of_bears (of_decide_eq_true hkey) cancelled ⟨?_, rows', holds', hrow⟩
    rw [hscheduler]
    exact watched_scheduled (Act.now h).1

/-- A worker starts on a database in which the statistics were cancelled. Their fire is taken, and
vetoed. -/
theorem cancelled_statistics_vetoed :
    let old : JobStatus := { JobStatus.initial statistics true .epoch with state := .cancelled }
    let other := JobStatus.initial { key := ⟨"daily"⟩, kind := "report" } false .epoch
    let tables : Tables := { statuses := some ([old, other].map StatusRow.columns) }
    let h : Host Worker :=
      { clock := .epoch, app := { storage := { pool := { database := { tables } } } } }
    let started := registerStatistics Backend.database.stores h
    let s : WorkerSession :=
      { stores := Backend.database.stores, harness := {}, executor := {}, relay := 0
        startedAt := .epoch }
    started.1 = .ok () ∧ ∃ report, ((engine s).runDue 2 started.2).1 = some [report] ∧
      report.key = statisticsKey ∧ report.outcome = .vetoed := by
  intro old other tables h started s
  have table : h.app.storage.pool.database.Holds [old, other] :=
    { quiet := ⟨rfl, rfl⟩
      statuses := rfl
      distinct := by decide
      kept := fun row hrow => by
        have hkeys : row = old ∨ row = other := by simpa using hrow
        rcases hkeys with rfl | rfl
        · exact ⟨⟨statistics_readable, nofun, Nat.zero_le _⟩, rfl⟩
        · exact ⟨⟨⟨"daily", rfl⟩, nofun, Nat.zero_le _⟩, rfl⟩ }
  obtain ⟨hok, -, hstill⟩ := restart_keeps_one_row .database rfl fun thread => ⟨rfl, rfl, table⟩
  have hvetoed := (hstill old rfl rfl started.2 .refl s rfl 2).2
  have hkeys : ((engine s).runDue 2 started.2).1.map (·.map (·.key)) = some [statisticsKey] := by
    decide +kernel
  obtain ⟨reports, hreports, hone⟩ := Option.map_eq_some_iff.mp hkeys
  obtain ⟨report, rfl, hkey⟩ := List.map_eq_singleton_iff.mp hone
  exact ⟨hok, report, hreports, hkey, hvetoed _ hreports report (List.mem_singleton_self _) hkey⟩

end Worker

end JobEngine
