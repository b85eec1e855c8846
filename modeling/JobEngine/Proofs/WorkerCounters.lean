import JobEngine.Executor
import JobEngine.Proofs.Conservation
import JobEngine.Proofs.RefireChain
/-! What a worker counts. A worker that is alone takes each fire that is reported to it, and counts
it under what became of it. -/

namespace JobEngine

variable {σ η ν : Type}

namespace FireReport

def failed (r : FireReport) : Bool :=
  match r.outcome with
  | .dispatched (.error e) => !e.asksRefire
  | .noHandler => true
  | _ => false

def vetoed (r : FireReport) : Bool :=
  match r.outcome with
  | .vetoed => true
  | _ => false

end FireReport

def FireTry.report? : FireTry → Option FireReport
  | .fired report => some report
  | .idle | .crashed => none

namespace ExecutorStats

theorem record_one (s : ExecutorStats) (r : FireReport) : s.record r =
    { processed := s.processed + 1
      succeeded := s.succeeded + if r.succeeded then 1 else 0
      refired := s.refired + if r.refired then 1 else 0
      failed := s.failed + if r.failed then 1 else 0
      vetoed := s.vetoed + if r.vetoed then 1 else 0 } := by
  obtain ⟨key, attempt, outcome⟩ := r
  cases outcome with
  | vetoed => rfl
  | noHandler => rfl
  | dispatched result =>
    cases result with
    | ok _ => rfl
    | error e =>
      cases hrefire : e.asksRefire <;>
        simp [record, FireReport.succeeded, FireReport.refired, FireReport.failed,
          FireReport.vetoed, hrefire]

theorem record_all (reports : List FireReport) (s : ExecutorStats) :
    reports.foldl record s =
      { processed := s.processed + reports.length
        succeeded := s.succeeded + reports.countP FireReport.succeeded
        refired := s.refired + reports.countP FireReport.refired
        failed := s.failed + reports.countP FireReport.failed
        vetoed := s.vetoed + reports.countP FireReport.vetoed } := by
  induction reports generalizing s with
  | nil => rfl
  | cons r rest ih =>
    rw [List.foldl_cons, ih, record_one]
    simp only [List.length_cons, List.countP_cons, Nat.add_comm, Nat.add_left_comm]

def Summed (s : ExecutorStats) : Prop :=
  s.processed = s.succeeded + s.refired + s.failed + s.vetoed

theorem Summed.record {s : ExecutorStats} (h : s.Summed) (r : FireReport) :
    (s.record r).Summed := by
  unfold Summed at h ⊢
  unfold ExecutorStats.record
  simp only
  split
  · simp only
    omega
  · split <;> simp only <;> omega
  · simp only
    omega
  · simp only
    omega

theorem Summed.record_all {s : ExecutorStats} (h : s.Summed) (reports : List FireReport) :
    (reports.foldl ExecutorStats.record s).Summed := by
  induction reports generalizing s with
  | nil => exact h
  | cons r rest ih => exact ih (h.record r)

end ExecutorStats

open Scheduler (beyond)

namespace Executor

structure WorkTurn where
  popped : List QueuedFire
  answer : FireTry

def WorkTurn.at (e : Engine σ η ν) (h : Host σ) : WorkTurn :=
  let s := e.scheduler.get h.app
  { popped := beyond s.queue (s.take (Act.now h).1).2.queue, answer := (e.fireNext h).1 }

def reports (turns : List WorkTurn) : List FireReport := turns.filterMap (·.answer.report?)

/-- A worker's shift: turn after turn, with others calling the scheduler between them. -/
inductive Shift (e : Engine σ η ν) (poll : Duration) :
    ExecutorStats → Host σ → List WorkTurn → ExecutorStats → Host σ → Prop where
  | done (stats : ExecutorStats) (h : Host σ) : Shift e poll stats h [] stats h
  | turn {stats stats' : ExecutorStats} {h h' : Host σ} {turns : List WorkTurn}
      (rest : Shift e poll (turn e poll stats h).1 (turn e poll stats h).2 turns stats' h') :
      Shift e poll stats h (.at e h :: turns) stats' h'
  | others {stats stats' : ExecutorStats} {h h' : Host σ} {turns : List WorkTurn} {α : Type}
      {a : Act σ α} (calls : e.Calls a) (rest : Shift e poll stats (a h).2 turns stats' h') :
      Shift e poll stats h turns stats' h'

variable {e : Engine σ η ν} {poll : Duration}

private theorem turn_run (e : Engine σ η ν) (poll : Duration) (stats : ExecutorStats) (h : Host σ) :
    (turn e poll stats h).1 = ((e.fireNext h).1.report?.toList).foldl ExecutorStats.record stats ∧
      (turn e poll stats h).2.app = (e.fireNext h).2.app := by
  unfold turn
  rw [Engine.bind_run]
  cases (e.fireNext h).1 <;> exact ⟨rfl, rfl⟩

theorem work_shift (e : Engine σ η ν) (poll : Duration) (enough : ExecutorStats → Bool)
    (most : Nat) (stats : ExecutorStats) (h : Host σ) :
    ∃ turns, Shift e poll stats h turns (work e poll enough most stats h).1
      (work e poll enough most stats h).2 := by
  induction most generalizing stats h with
  | zero => exact ⟨[], .done stats h⟩
  | succ most ih =>
    unfold work
    split
    · exact ⟨[], .done stats h⟩
    · obtain ⟨turns, hrest⟩ := ih (turn e poll stats h).1 (turn e poll stats h).2
      exact ⟨_, .turn hrest⟩

open Traffic (Log Reachable)

/-- A turn takes at most one fire, and reports the fire that it takes. -/
theorem WorkTurn.logged (lawful : e.Lawful) (keep : e.Disciplined) {t : Traffic η ν}
    (ht : Reachable e.harness t) {h : Host σ} (hs : t.scheduler = e.scheduler.get h.app)
    (landed : (e.fireNext h).1 ≠ .crashed) :
    (e.fireNext h).1.report?.toList.map (fun r => (r.key, r.attempt)) =
        (WorkTurn.at e h).popped.map (fun q => (q.fire.key, q.fire.refireCount)) ∧
      ∃ events u, Log e.harness t events u ∧
        u.scheduler = e.scheduler.get (e.fireNext h).2.app ∧
        events.flatMap (·.popped) = (WorkTurn.at e h).popped := by
  obtain ⟨u, hleads, hus, hfires⟩ := Engine.fireNext_traffic lawful keep ht hs
  obtain ⟨events, hevents⟩ := hleads.logged
  have hat : (WorkTurn.at e h).popped =
      beyond t.scheduler.queue (t.scheduler.take (Act.now h).1).2.queue := by
    rw [hs]
    rfl
  rw [hat]
  generalize (e.fireNext h).1 = answer at hfires landed ⊢
  cases hfires with
  | crashed => exact absurd rfl landed
  | idle none departures =>
    have hnone := ht.orderly.beyond_take_none none
    rw [hnone]
    exact ⟨rfl, events, u, hevents, hus, hevents.popped_none ht departures⟩
  | fired leaves departures key attempt landing =>
    obtain ⟨q, -, hbeyond, -, hfire⟩ := ht.orderly.beyond_take leaves
    refine ⟨?_, events, u, hevents, hus, hevents.popped_one ht leaves departures⟩
    rw [hbeyond, List.map_singleton, hfire, key, attempt]
    rfl

/-- A shift is a run of traffic, and each fire that is taken in it is reported. -/
theorem Shift.logged (lawful : e.Lawful) (keep : e.Disciplined) {t : Traffic η ν}
    (ht : Reachable e.harness t) {stats stats' : ExecutorStats} {h h' : Host σ}
    {turns : List WorkTurn} (hs : t.scheduler = e.scheduler.get h.app)
    (shift : Shift e poll stats h turns stats' h')
    (landed : ∀ turn ∈ turns, turn.answer ≠ .crashed) :
    stats' = (reports turns).foldl ExecutorStats.record stats ∧
      (reports turns).map (fun r => (r.key, r.attempt)) =
        (turns.flatMap (·.popped)).map (fun q => (q.fire.key, q.fire.refireCount)) ∧
      ∃ events u, Log e.harness t events u ∧ u.scheduler = e.scheduler.get h'.app ∧
        events.flatMap (·.popped) = turns.flatMap (·.popped) := by
  induction shift generalizing t with
  | done stats h => exact ⟨rfl, rfl, [], t, .here t, hs, rfl⟩
  | @turn stats stats' h h' turns rest ih =>
    obtain ⟨hstats, happ⟩ := turn_run e poll stats h
    obtain ⟨hcrash, hlanded⟩ := List.forall_mem_cons.mp landed
    obtain ⟨hfirst, first, u, hlog, hus, htaken⟩ := WorkTurn.logged lawful keep ht hs hcrash
    obtain ⟨hcounted, hreported, events, v, hevents, hv, hpopped⟩ :=
      ih (Log.reachable ht hlog) (hus.trans (congrArg _ happ.symm)) hlanded
    have hreports : reports (.at e h :: turns) =
        (e.fireNext h).1.report?.toList ++ reports turns := by
      unfold reports
      rw [List.filterMap_cons]
      cases hreport : (e.fireNext h).1.report? <;> simp [WorkTurn.at, hreport]
    refine ⟨?_, ?_, first ++ events, v, hlog.append hevents, hv, ?_⟩
    · rw [hcounted, hstats, hreports, List.foldl_append]
    · rw [hreports, List.map_append, hfirst, hreported, List.flatMap_cons, List.map_append]
    · rw [List.flatMap_append, List.flatMap_cons, htaken, hpopped]
  | @others stats stats' h h' turns α a calls rest ih =>
    obtain ⟨u, hserves, hus⟩ := calls.serves lawful h t hs
    obtain ⟨first, hfirst⟩ := hserves.leads.logged
    obtain ⟨hcounted, hreported, events, v, hevents, hv, hpopped⟩ :=
      ih (hserves.leads.reachable ht) hus landed
    refine ⟨hcounted, hreported, first ++ events, v, hfirst.append hevents, hv, ?_⟩
    rw [List.flatMap_append, hfirst.popped_none ht hserves.departures, hpopped]
    rfl

/-- What a worker has counted, against the reports that it got and the fires that were taken. -/
structure Counted (stats : ExecutorStats) (reports : List FireReport) (popped : List QueuedFire) :
    Prop where
  reported : reports.map (fun r => (r.key, r.attempt)) =
    popped.map fun q => (q.fire.key, q.fire.refireCount)
  processed : stats.processed = popped.length
  summed : stats.Summed
  succeeded : stats.succeeded = reports.countP FireReport.succeeded
  refired : stats.refired = reports.countP FireReport.refired
  failed : stats.failed = reports.countP FireReport.failed
  vetoed : stats.vetoed = reports.countP FireReport.vetoed

theorem counted {reports : List FireReport} {popped : List QueuedFire}
    (reported : reports.map (fun r => (r.key, r.attempt)) =
      popped.map fun q => (q.fire.key, q.fire.refireCount)) :
    Counted (reports.foldl ExecutorStats.record {}) reports popped := by
  have hsummed : (reports.foldl ExecutorStats.record {}).Summed :=
    ExecutorStats.Summed.record_all (show ({} : ExecutorStats).Summed from rfl) reports
  have hlength := congrArg List.length reported
  rw [List.length_map, List.length_map] at hlength
  rw [ExecutorStats.record_all] at hsummed ⊢
  exact
    { reported, summed := hsummed
      processed := (Nat.zero_add _).trans hlength
      succeeded := Nat.zero_add _
      refired := Nat.zero_add _
      failed := Nat.zero_add _
      vetoed := Nat.zero_add _ }

end Executor

namespace Traffic

open Executor (Counted Shift WorkTurn reports work)

/-- No fire is lost and none is taken twice, and a worker that is alone counts each fire that it
takes under what became of it. What a worker does by itself is a shift, and running all that is due
goes on with the traffic. -/
theorem fires_conserved {harness : Harness σ} {registry : Registry η} {listeners : Assoc String ν}
    {matchers : Assoc String (List JobKey)} {events : List (Event ν)} {t : Traffic η ν}
    (log : Log harness { scheduler := { registry, listeners, matchers } } events t) :
    Conserved harness { scheduler := { registry, listeners, matchers } } events t ∧
      (∀ (e : Engine σ η ν) (poll : Duration) (h h' : Host σ) (turns : List WorkTurn)
        (stats : ExecutorStats), e.harness = harness → e.Lawful → e.Disciplined →
        t.scheduler = e.scheduler.get h.app → Shift e poll {} h turns stats h' →
        (∀ turn ∈ turns, turn.answer ≠ .crashed) →
        Counted stats (reports turns) (turns.flatMap (·.popped)) ∧
          ∃ more u, Log harness t more u ∧ u.scheduler = e.scheduler.get h'.app ∧
            more.flatMap (·.popped) = turns.flatMap (·.popped)) ∧
      (∀ (e : Engine σ η ν) (poll : Duration) (enough : ExecutorStats → Bool) (most : Nat)
        (stats : ExecutorStats) (h : Host σ), ∃ turns, Shift e poll stats h turns
          (work e poll enough most stats h).1 (work e poll enough most stats h).2) ∧
      ∀ (e : Engine σ η ν) (n : Nat) (h : Host σ), e.harness = harness → e.Lawful →
        e.Disciplined → t.scheduler = e.scheduler.get h.app →
        ∃ more u, Log harness t more u ∧ u.scheduler = e.scheduler.get (e.runDue n h).2.app := by
  have ht : Reachable harness t := Log.reachable (.start registry listeners matchers) log
  refine ⟨conserved log, ?_, Executor.work_shift, ?_⟩
  · rintro e poll h h' turns stats rfl lawful keep hs shift landed
    obtain ⟨rfl, hreported, hmore⟩ := shift.logged lawful keep ht hs landed
    exact ⟨Executor.counted hreported, hmore⟩
  · rintro e n h rfl lawful keep hs
    obtain ⟨u, hleads, hu⟩ := Engine.runDue_traffic lawful keep n ht hs
    obtain ⟨more, hmore⟩ := hleads.logged
    exact ⟨more, u, hmore, hu⟩

def stored : Traffic Unit Unit where
  scheduler :=
    Scheduler.enqueue
      { registry := [("report", ())]
        jobs :=
          [(report.key, { definition := report, trigger := some { schedule := .once .epoch } })] }
      .epoch (Scheduler.firstFire report.key { schedule := .once .epoch })

def morning : Host (Scheduler Unit Unit) := { clock := .epoch, app := stored.scheduler }

def noon : ExecutorStats × Host (Scheduler Unit Unit) :=
  Executor.turn Engine.solitary .zero {} morning

def evening : ExecutorStats × Host (Scheduler Unit Unit) :=
  Executor.turn Engine.solitary .zero noon.1 noon.2

def day : List WorkTurn := [.at Engine.solitary morning, .at Engine.solitary noon.2]

/-- A worker takes the fire and the refire of it. -/
theorem fires_conserved_by_two_turns :
    evening.1.refired = 2 ∧ ∃ events more u,
      Log Engine.solitary.harness vacant events stored ∧
      Conserved Engine.solitary.harness vacant events stored ∧
      Counted evening.1 (reports day) (day.flatMap (·.popped)) ∧
      Log Engine.solitary.harness stored more u ∧
      u.scheduler = Engine.solitary.scheduler.get evening.2.app ∧
      more.flatMap (·.popped) = day.flatMap (·.popped) := by
  have still := Engine.Calls.composes Engine.solitary
  have keep : Engine.solitary.Disciplined :=
    { before := fun _ _ => still.pure _
      after := fun _ _ _ => still.pure _
      runs := fun _ =>
        { enter := nofun, leave := nofun, begin := nofun, finish := nofun, abort := nofun
          publish := still.oneByOne (fun _ => still.pure _) 0
          body := fun _ => still.pure _ } }
  have move : Move Engine.solitary.harness vacant .call stored :=
    .call (.scheduleJob report { schedule := .once .epoch } rfl) rfl rfl rfl
  have log : Log Engine.solitary.harness vacant _ stored := .step (.of move) (.here _)
  have shift : Shift Engine.solitary .zero {} morning day evening.1 evening.2 :=
    .turn (.turn (.done _ _))
  have reported : ∀ r : FireTry, r.report?.isSome → r ≠ .crashed := by
    rintro _ h rfl
    cases h
  have hmorning : (WorkTurn.at Engine.solitary morning).answer ≠ .crashed :=
    reported _ (by decide +kernel)
  have hnoon : (WorkTurn.at Engine.solitary noon.2).answer ≠ .crashed :=
    reported _ (by decide +kernel)
  have landed : ∀ turn ∈ day, turn.answer ≠ .crashed := by
    unfold day
    intro turn hturn
    simp only [List.mem_cons, List.not_mem_nil, or_false] at hturn
    obtain rfl | rfl := hturn
    · exact hmorning
    · exact hnoon
  obtain ⟨conserved, counted, -⟩ := fires_conserved log
  obtain ⟨hcounted, more, u, hmore, hu, hpopped⟩ := counted Engine.solitary .zero morning
    evening.2 day evening.1 rfl (fun _ _ => rfl) keep rfl shift landed
  have hrefired : evening.1.refired = 2 := by decide +kernel
  exact ⟨hrefired, _, more, u, log, conserved, hcounted, hmore, hu, hpopped⟩

end Traffic

end JobEngine
