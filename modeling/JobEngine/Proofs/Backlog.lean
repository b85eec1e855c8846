import JobEngine.Proofs.Dispatch
import JobEngine.Proofs.Intact
import JobEngine.Proofs.EngineSteps
/-! No fire that waits is lost from sight. However a scheduler is used, and whatever listeners and
runs and other workers do with it meanwhile, a try at firing comes back empty only when nothing is
due, and no fire ends for want of a handler. -/

namespace JobEngine

variable {σ η ν α β : Type}

open Scheduler (Invariant Intact)

namespace Traffic

variable {P : Scheduler η ν → Prop} {harness : Harness σ} {t t' : Traffic η ν}

theorem Step.upholds (hP : Invariant P) (step : Step harness t t') (h : P t.scheduler) :
    P t'.scheduler := by
  cases step with
  | scheduleJob definition trigger hs => exact hP.scheduleJob h hs
  | addJob definition replace hs => exact hP.addJob h hs
  | triggerNow key data now hs => exact hP.triggerNow h hs
  | addMatcher name key hs => exact hP.addMatcher h hs
  | addListener name listener => exact hP.addListener name listener h
  | deleteJob key => exact hP.deleteJob key h
  | depart now hnext hs =>
    have htake := hP.take now h
    rw [hs] at htake
    exact htake
  | skip now hs =>
    have htake := hP.take now h
    rw [hs] at htake
    exact htake
  | land outcome now hd hopen hending => exact hP.afterFire _ _ outcome now h

theorem Reachable.intact (h : Reachable harness t) : t.scheduler.Intact := by
  induction h with
  | start registry listeners matchers =>
    exact { stored := by simp, handled := by simp, counted := by simp, ordered := .nil }
  | next _ step ih => exact step.upholds Intact.invariant ih

theorem Reachable.handled (h : Reachable harness t) (n : Nat) (outcome : FireOutcome)
    (now : Instant) (hlanded : t.landings.get? n = some (outcome, now)) :
    outcome ≠ .noHandler := by
  induction h with
  | start registry listeners matchers => cases hlanded
  | @next t t' before step ih =>
    cases step with
    | @land d ended time hd hopen hending =>
      by_cases hn : d.number = n
      · cases (show some (ended, time) = some (outcome, now) by
          rw [← hlanded]
          exact (if_pos hn).symm)
        rintro rfl
        cases hending with
        | noHandler hunknown =>
          -- handlers are never withdrawn, so the job that was taken still has its own
          have hhandler := (before.orderly.gone d hd).2.2
          rw [Scheduler.hasHandler, hunknown] at hhandler
          cases hhandler
      · exact ih ((if_neg hn).symm.trans hlanded)
    | _ => exact ih hlanded

end Traffic

namespace Engine

variable {e : Engine σ η ν} {P : Scheduler η ν → Prop} {a : Act σ α}

def Upholds (e : Engine σ η ν) (P : Scheduler η ν → Prop) (a : Act σ α) : Prop :=
  ∀ h, P (e.scheduler.get h.app) → P (e.scheduler.get (a h).2.app)

theorem Upholds.bind {f : α → Act σ β} (ha : e.Upholds P a) (hf : ∀ x, e.Upholds P (f x)) :
    e.Upholds P (a >>= f) := fun h hP => hf _ _ (ha h hP)

/-- Acts that use the scheduler in any way: they may call it, and as other workers do they may take
fires off the queue and queue what follows some fire. -/
inductive Stirs (e : Engine σ η ν) : {α : Type} → Act σ α → Prop where
  | calls {α : Type} {a : Act σ α} (h : e.Calls a) : e.Stirs a
  | bind {α β : Type} {a : Act σ α} {f : α → Act σ β} (ha : e.Stirs a) (hf : ∀ x, e.Stirs (f x)) :
      e.Stirs (a >>= f)
  | take (now : Instant) : e.Stirs (e.scheduler.run (·.take now))
  | follow (fire : PendingFire) (trigger : Option Trigger) (outcome : FireOutcome)
      (now : Instant) : e.Stirs (e.follow fire trigger outcome now)

theorem Stirs.composes (e : Engine σ η ν) : Composes e.Stirs where
  still h := .calls ((Calls.composes e).still h)
  bind := .bind

theorem Upholds.run (lawful : e.Lawful) {step : Scheduler η ν → α × Scheduler η ν}
    (h : ∀ s, P s → P (step s).2) : e.Upholds P (e.scheduler.run step) := by
  intro host hP
  change P (e.scheduler.get (e.scheduler.put _ _))
  rw [lawful]
  exact h _ hP

theorem Upholds.attempt (lawful : e.Lawful)
    {step : Scheduler η ν → Except SchedulerError (Scheduler η ν)}
    (h : ∀ s s', P s → step s = .ok s' → P s') :
    e.Upholds P (Scheduler.attempt e.scheduler step) := by
  refine Upholds.run lawful fun s hP => ?_
  cases hstep : step s with
  | error e => exact hP
  | ok s' => exact h s s' hP hstep

theorem Calls.upholds (lawful : e.Lawful) (hP : Invariant P) (ha : e.Calls a) :
    e.Upholds P a := by
  induction ha with
  | apart h =>
    intro host hbefore
    rw [h]
    exact hbefore
  | bind _ _ iha ihf => exact .bind iha ihf
  | scheduleJob definition trigger => exact .attempt lawful fun _ _ h hs => hP.scheduleJob h hs
  | addJob definition replace => exact .attempt lawful fun _ _ h hs => hP.addJob h hs
  | triggerNow key data now => exact .attempt lawful fun _ _ h hs => hP.triggerNow h hs
  | addMatcher name key => exact .attempt lawful fun _ _ h hs => hP.addMatcher h hs
  | addListener name listener => exact .run lawful fun _ h => hP.addListener name listener h
  | deleteJob key => exact .run lawful fun _ h => hP.deleteJob key h

theorem Stirs.upholds (lawful : e.Lawful) (hP : Invariant P) (ha : e.Stirs a) :
    e.Upholds P a := by
  induction ha with
  | calls h => exact h.upholds lawful hP
  | bind _ _ iha ihf => exact .bind iha ihf
  | take now => exact .run lawful fun _ h => hP.take now h
  | follow fire trigger outcome now =>
    exact .run lawful fun _ h => hP.afterFire fire trigger outcome now h

private theorem launch_of_none {h : Host σ}
    (hnone : ((e.scheduler.get h.app).take (Act.now h).1).1 = none) :
    e.launch h = (.idle, { (Act.now h).2 with
      app := e.scheduler.put ((e.scheduler.get h.app).take (Act.now h).1).2 h.app }) := by
  unfold Engine.launch Engine.launchBy
  rw [bind_run, run_bind]
  simp only [show (Act.now h).2.app = h.app from rfl, hnone]
  rfl

/-- A fire that is taken may run or is kept from it, but does not get lost. -/
theorem launch_of_some (lawful : e.Lawful) {h : Host σ} {taken : TakenFire ν}
    (hsome : ((e.scheduler.get h.app).take (Act.now h).1).1 = some taken) :
    (∃ flight, (e.launch h).1 = .airborne flight) ∨
      ∃ outcome, (e.launch h).1 = .grounded taken outcome ∧ (outcome = .vetoed ∨
        outcome = .noHandler ∧ (e.scheduler.get h.app).registry.resolve
          taken.job.definition.kind = none) := by
  obtain ⟨s, htake⟩ : ∃ s, (e.scheduler.get h.app).take (Act.now h).1 = (some taken, s) :=
    ⟨_, Prod.ext hsome rfl⟩
  have hregistry : s.registry = (e.scheduler.get h.app).registry := by
    obtain ⟨-, rest, -, -, -, -, -, rfl⟩ := Scheduler.take_some htake
    rfl
  unfold Engine.launch Engine.launchBy
  rw [bind_run, run_bind]
  simp only [show (Act.now h).2.app = h.app from rfl, htake]
  rw [bind_run]
  generalize hcreated : FireContext.create taken.job.definition taken.fire.triggerData
    taken.fire.refireCount _ = created
  obtain ⟨fire, host⟩ := created
  have hdefinition : fire.definition = taken.job.definition := by
    cases hcreated
    rfl
  have hhost : e.scheduler.get host.app = s := by
    cases hcreated
    exact lawful _ _
  rw [bind_run]
  cases hpermit : (e.permit { fire with scheduledFor := taken.fire.scheduledFor }
    taken.listeners host).1 with
  | ok handler => exact .inl ⟨_, rfl⟩
  | error outcome =>
    refine .inr ⟨outcome, rfl, ?_⟩
    have herror := permit_error hpermit
    rw [hhost, hregistry] at herror
    exact hdefinition ▸ herror

theorem fireNext_of_idle (lawful : e.Lawful) {h : Host σ}
    (idle : (e.scheduler.get h.app).Idle (Act.now h).1) :
    (e.fireNext h).1 = .idle ∧
      e.scheduler.get (e.fireNext h).2.app = e.scheduler.get h.app ∧
      (e.fireNext h).2.clock = (Act.now h).1 := by
  have htake := Scheduler.take_of_idle idle
  unfold Engine.fireNext
  rw [bind_run, launch_of_none (congrArg Prod.fst htake)]
  refine ⟨rfl, ?_, rfl⟩
  change e.scheduler.get (e.scheduler.put _ _) = _
  rw [lawful, htake]

theorem fireNext_of_due (lawful : e.Lawful) {h : Host σ}
    (intact : (e.scheduler.get h.app).Intact)
    (due : ¬(e.scheduler.get h.app).Idle (Act.now h).1) :
    (e.fireNext h).1 = .crashed ∨
      ∃ report, (e.fireNext h).1 = .fired report ∧ report.outcome ≠ .noHandler := by
  obtain ⟨taken, hsome⟩ := intact.take_of_due due
  unfold Engine.fireNext
  rw [bind_run]
  obtain ⟨flight, hlaunch⟩ | ⟨outcome, hlaunch, houtcome⟩ := launch_of_some lawful hsome
  · rw [hlaunch]
    simp only
    rw [bind_run]
    unfold Engine.land
    rw [bind_run]
    obtain hcrashed | hfired := settle_answer e flight.taken (.dispatched _) _
    · exact .inl hcrashed
    · exact .inr ⟨_, hfired, FireOutcome.noConfusion⟩
  · rw [hlaunch]
    obtain hcrashed | hfired := settle_answer e taken outcome (e.launch h).2
    · exact .inl hcrashed
    · refine .inr ⟨_, hfired, ?_⟩
      rintro rfl
      obtain hvetoed | ⟨-, hunknown⟩ := houtcome
      · cases hvetoed
      · obtain ⟨q, rest, job, -, -, hjob, rfl, -⟩ :=
          Scheduler.take_some (Prod.ext hsome rfl)
        have hhandler := intact.handled _ _ hjob
        rw [Scheduler.hasHandler, hunknown] at hhandler
        cases hhandler

/-- Firing what is due stops before the limit only when nothing is due. -/
theorem runDue_reports (lawful : e.Lawful) (made : e.MadeOf e.Stirs) {h : Host σ}
    (intact : (e.scheduler.get h.app).Intact) {max : Nat} {reports : List FireReport}
    (hrun : (e.runDue max h).1 = some reports) :
    reports.length ≤ max ∧ (∀ r ∈ reports, r.outcome ≠ .noHandler) ∧
      (reports.length < max →
        (e.scheduler.get (e.runDue max h).2.app).Idle (e.runDue max h).2.clock) := by
  have hstirs : e.Stirs e.fireNext := (Stirs.composes e).fireNext made .take .follow
  induction max generalizing h reports with
  | zero =>
    cases hrun
    exact ⟨Nat.le_refl _, nofun, fun hless => absurd hless (Nat.lt_irrefl _)⟩
  | succ max ih =>
    unfold Engine.runDue at hrun ⊢
    rw [bind_run] at hrun ⊢
    by_cases hidle : (e.scheduler.get h.app).Idle (Act.now h).1
    · obtain ⟨hanswer, hsame, hclock⟩ := fireNext_of_idle lawful hidle
      rw [hanswer] at hrun ⊢
      cases hrun
      refine ⟨Nat.zero_le _, nofun, fun _ => ?_⟩
      change (e.scheduler.get (e.fireNext h).2.app).Idle (e.fireNext h).2.clock
      rw [hsame, hclock]
      exact hidle
    · obtain hcrashed | ⟨report, hfired, hhandled⟩ := fireNext_of_due lawful intact hidle
      · rw [hcrashed] at hrun
        cases hrun
      · -- whatever the run did to the scheduler, the next try finds it intact
        have hnext := hstirs.upholds lawful Intact.invariant h intact
        rw [hfired] at hrun ⊢
        obtain ⟨rest, hrest, rfl⟩ := Option.map_eq_some_iff.mp hrun
        obtain ⟨hlength, hall, hdue⟩ := ih hnext hrest
        exact ⟨Nat.succ_le_succ hlength, List.forall_mem_cons.mpr ⟨hhandled, hall⟩,
          fun hless => hdue (Nat.lt_of_succ_lt_succ hless)⟩

/-- What a worker can rely on when it finds a scheduler in this state. -/
structure Dependable (e : Engine σ η ν) (s : Scheduler η ν) : Prop where
  intact : s.Intact
  distinct : (s.queue.map fun q => (q.due, q.seq)).Nodup
  placed : ∀ due fire, (due, s.seq + 1) ∉ s.queue.map (fun q => (q.due, q.seq)) ∧
    (s.enqueue due fire).queue.Perm ({ due, seq := s.seq + 1, fire } :: s.queue)
  earliest : ∀ now, s.Idle now ↔ ∀ q ∈ s.queue, now < q.due
  found : ∀ now, (s.take now).1 = none → s.Idle now ∧ (s.take now).2 = s
  fires : ∀ h, e.scheduler.get h.app = s →
    ((e.fireNext h).1 = .idle ↔ s.Idle (Act.now h).1) ∧
      ∀ report, (e.fireNext h).1 = .fired report → report.outcome ≠ .noHandler
  drains : ∀ h max reports, e.scheduler.get h.app = s → (e.runDue max h).1 = some reports →
    reports.length ≤ max ∧ (∀ r ∈ reports, r.outcome ≠ .noHandler) ∧
      (reports.length < max → ∀ q ∈ (e.scheduler.get (e.runDue max h).2.app).queue,
        (e.runDue max h).2.clock < q.due)

theorem dependable_of_intact (lawful : e.Lawful) (made : e.MadeOf e.Stirs)
    {s : Scheduler η ν} (intact : s.Intact) : e.Dependable s where
  intact := intact
  distinct := intact.distinct
  placed due fire := by
    refine ⟨fun hmem => ?_, Scheduler.place_perm _ _⟩
    obtain ⟨q, hq, heq⟩ := List.mem_map.mp hmem
    have hseq : q.seq = s.seq + 1 := congrArg Prod.snd heq
    have hcounted := intact.counted q hq
    omega
  earliest now := intact.idle_iff
  found now hnone := by
    have idle := intact.take_eq_none_iff.mp hnone
    exact ⟨idle, congrArg Prod.snd (Scheduler.take_of_idle idle)⟩
  fires h hs := by
    subst hs
    by_cases hidle : (e.scheduler.get h.app).Idle (Act.now h).1
    · have hanswer := (fireNext_of_idle lawful hidle).1
      rw [hanswer]
      exact ⟨iff_of_true rfl hidle, nofun⟩
    · obtain hcrashed | ⟨report, hfired, hhandled⟩ := fireNext_of_due lawful intact hidle
      · rw [hcrashed]
        exact ⟨iff_of_false FireTry.noConfusion hidle, nofun⟩
      · rw [hfired]
        refine ⟨iff_of_false FireTry.noConfusion hidle, ?_⟩
        rintro _ ⟨⟩
        exact hhandled
  drains h max reports hs hrun := by
    subst hs
    obtain ⟨hlength, hhandled, hdue⟩ := runDue_reports lawful made intact hrun
    have hstirs : e.Stirs (e.runDue max) :=
      (Stirs.composes e).runDue ((Stirs.composes e).fireNext made .take .follow) max
    have hlast := hstirs.upholds lawful Intact.invariant h intact
    exact ⟨hlength, hhandled, fun hless => hlast.idle_iff.mp (hdue hless)⟩

/-- In whatever order a scheduler is used, and whatever listeners and runs do with it meanwhile, no
waiting fire gets lost, none is left without a handler, and workers stop only when nothing is due.
-/
theorem backlog_dependable (lawful : e.Lawful) (made : e.MadeOf e.Stirs) {t : Traffic η ν}
    (ht : Traffic.Reachable e.harness t) :
    e.Dependable t.scheduler ∧ ∀ n outcome now,
      t.landings.get? n = some (outcome, now) → outcome ≠ .noHandler :=
  ⟨dependable_of_intact lawful made ht.intact, ht.handled⟩

def solitary : Engine (Scheduler Unit Unit) Unit Unit where
  scheduler := .whole
  harness := { policy := .unlimited, bus := .ofPublish fun _ => pure (.ok ()) }
  job _ := { name := "report", body := fun _ => Body.fail (.conflict "busy") }
  listener _ := { before := fun _ => pure .proceed, after := fun _ _ => pure () }

theorem one_fire_backlog : ∃ t : Traffic Unit Unit, t.scheduler.queue.length = 1 ∧
    solitary.Dependable t.scheduler := by
  let start : Traffic Unit Unit := { scheduler := { registry := [("report", ())] } }
  have opened : Traffic.Reachable solitary.harness start := .start [("report", ())] [] []
  have stored := opened.next
    (.scheduleJob { key := ⟨"daily"⟩, kind := "report" } { schedule := .once .epoch } rfl)
  have made : solitary.MadeOf solitary.Stirs :=
    { before := fun _ _ => (Stirs.composes _).pure _
      after := fun _ _ _ => (Stirs.composes _).pure _
      runs := fun _ =>
        { enter := nofun, leave := nofun, begin := nofun, finish := nofun, abort := nofun
          publish := (Stirs.composes _).oneByOne (fun _ => (Stirs.composes _).pure _) 0
          body := fun _ => (Stirs.composes _).pure _ } }
  exact ⟨_, rfl, (backlog_dependable (fun _ _ => rfl) made stored).1⟩

end Engine

end JobEngine
