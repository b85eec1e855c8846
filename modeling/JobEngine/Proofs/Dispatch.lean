import JobEngine.Proofs.Traffic
import JobEngine.Proofs.EngineSteps
/-! An engine at work is traffic. Taking a fire is a departure and following it up is a landing, and
what listeners and bodies do in between comes down to calls of the scheduler. -/

namespace JobEngine

variable {σ η ν α β : Type}

/-- Acts that use the scheduler by its calls, and do what they like to the rest. -/
inductive Engine.Calls (e : Engine σ η ν) : {α : Type} → Act σ α → Prop where
  | apart {α : Type} {a : Act σ α}
      (h : ∀ h, e.scheduler.get (a h).2.app = e.scheduler.get h.app) : e.Calls a
  | bind {α β : Type} {a : Act σ α} {f : α → Act σ β} (ha : e.Calls a) (hf : ∀ x, e.Calls (f x)) :
      e.Calls (a >>= f)
  | scheduleJob (definition : JobDefinition) (trigger : Trigger) :
      e.Calls (Scheduler.attempt e.scheduler (·.scheduleJob definition trigger))
  | addJob (definition : JobDefinition) (replace : Bool) :
      e.Calls (Scheduler.attempt e.scheduler (·.addJob definition replace))
  | triggerNow (key : JobKey) (data : TriggerData) (now : Instant) :
      e.Calls (Scheduler.attempt e.scheduler (·.triggerNow key data now))
  | addMatcher (name : String) (key : JobKey) :
      e.Calls (Scheduler.attempt e.scheduler (·.addMatcher name key))
  | addListener (name : String) (listener : ν) :
      e.Calls (e.scheduler.modify (·.addListener name listener))
  | deleteJob (key : JobKey) : e.Calls (e.scheduler.run (·.deleteJob key))

theorem Engine.Calls.composes (e : Engine σ η ν) : Composes e.Calls where
  still h := .apart fun host => congrArg e.scheduler.get (h host)
  bind := .bind

namespace Traffic

variable {harness : Harness σ} {t u v : Traffic η ν}

inductive Leads (harness : Harness σ) (t : Traffic η ν) : Traffic η ν → Prop where
  | here : Leads harness t t
  | next {u v : Traffic η ν} : Leads harness t u → Step harness u v → Leads harness t v

theorem Leads.trans (h : Leads harness t u) (h' : Leads harness u v) : Leads harness t v := by
  induction h' with
  | here => exact h
  | next _ step ih => exact ih.next step

theorem Leads.reachable (h : Leads harness t u) (ht : Reachable harness t) :
    Reachable harness u := by
  induction h with
  | here => exact ht
  | next _ step ih => exact ih.next step

/-- Traffic goes on, but no fire is taken and none is followed up. -/
structure Serves (harness : Harness σ) (t u : Traffic η ν) : Prop where
  leads : Leads harness t u
  departures : u.departures = t.departures
  landings : u.landings = t.landings

theorem Serves.refl (t : Traffic η ν) : Serves harness t t := ⟨.here, rfl, rfl⟩

theorem Serves.trans (h : Serves harness t u) (h' : Serves harness u v) : Serves harness t v :=
  ⟨h.leads.trans h'.leads, h'.departures.trans h.departures, h'.landings.trans h.landings⟩

end Traffic

open Traffic (Leads Serves Reachable Orderly)

namespace Engine

variable {e : Engine σ η ν} {t : Traffic η ν} {h : Host σ} {a : Act σ α}

def Lawful (e : Engine σ η ν) : Prop := ∀ s a, e.scheduler.get (e.scheduler.put s a) = s

theorem serves_attempt (lawful : e.Lawful)
    {step : Scheduler η ν → Except SchedulerError (Scheduler η ν)}
    (hstep : ∀ s, step t.scheduler = .ok s → Traffic.Step e.harness t { t with scheduler := s })
    (ht : t.scheduler = e.scheduler.get h.app) :
    ∃ u, Serves e.harness t u ∧
      u.scheduler = e.scheduler.get (Scheduler.attempt e.scheduler step h).2.app := by
  unfold Scheduler.attempt Part.run
  rw [← ht]
  cases hs : step t.scheduler with
  | error err =>
    refine ⟨t, .refl t, ?_⟩
    simp only [hs]
    exact (lawful _ _).symm
  | ok s =>
    refine ⟨{ t with scheduler := s }, ⟨.next .here (hstep s hs), rfl, rfl⟩, ?_⟩
    simp only [hs]
    exact (lawful _ _).symm

/-- Whoever keeps to the calls of the scheduler causes no departures and no landings. -/
theorem Calls.serves (lawful : e.Lawful) (ha : e.Calls a) (h : Host σ) (t : Traffic η ν)
    (ht : t.scheduler = e.scheduler.get h.app) :
    ∃ u, Serves e.harness t u ∧ u.scheduler = e.scheduler.get (a h).2.app := by
  induction ha generalizing h t with
  | apart hsame => exact ⟨t, .refl t, ht.trans (hsame h).symm⟩
  | bind ha hf iha ihf =>
    obtain ⟨u, hu, hus⟩ := iha h t ht
    obtain ⟨v, hv, hvs⟩ := ihf _ _ u hus
    exact ⟨v, hu.trans hv, hvs⟩
  | scheduleJob definition trigger =>
    exact serves_attempt lawful (fun s hs => .scheduleJob definition trigger hs) ht
  | addJob definition replace =>
    exact serves_attempt lawful (fun s hs => .addJob definition replace hs) ht
  | triggerNow key data now =>
    exact serves_attempt lawful (fun s hs => .triggerNow key data now hs) ht
  | addMatcher name key => exact serves_attempt lawful (fun s hs => .addMatcher name key hs) ht
  | addListener name listener =>
    refine ⟨_, ⟨.next .here (.addListener name listener), rfl, rfl⟩, ?_⟩
    rw [ht]
    exact (lawful _ _).symm
  | deleteJob key =>
    refine ⟨_, ⟨.next .here (.deleteJob key), rfl, rfl⟩, ?_⟩
    change (t.scheduler.deleteJob key).2 = _
    rw [ht]
    exact (lawful _ _).symm

/-- Listeners and runs that keep to the calls of the scheduler. -/
structure Disciplined (e : Engine σ η ν) : Prop where
  before : ∀ n fire, e.Calls ((e.listener n).before fire)
  after : ∀ n fire result, e.Calls ((e.listener n).after fire result)
  runs : ∀ handler, e.harness.MadeOf e.Calls (e.job handler)

/-- A fire may not run when no handler knows its kind or a listener objects. -/
theorem serves_permit (lawful : e.Lawful) (keep : e.Disciplined) (fire : FireContext)
    (listeners : Assoc String ν) (ht : t.scheduler = e.scheduler.get h.app) :
    ∃ u, Serves e.harness t u ∧
      u.scheduler = e.scheduler.get (e.permit fire listeners h).2.app ∧
      ∀ outcome, (e.permit fire listeners h).1 = .error outcome → outcome = .vetoed ∨
        outcome = .noHandler ∧ u.scheduler.registry.resolve fire.definition.kind = none := by
  unfold Engine.permit
  rw [read_bind]
  cases hresolve : (e.scheduler.get h.app).registry.resolve fire.definition.kind with
  | none =>
    refine ⟨t, .refl t, ht, fun outcome houtcome => .inr ⟨?_, ?_⟩⟩
    · cases houtcome
      rfl
    · rw [ht]
      exact hresolve
  | some handler =>
    obtain ⟨u, hu, hus⟩ :=
      ((Calls.composes e).firstVeto keep.before fire listeners).serves lawful h t ht
    refine ⟨u, hu, ?_⟩
    simp only
    rw [bind_run]
    cases (e.firstVeto fire listeners h).1 with
    | none => exact ⟨hus, nofun⟩
    | some name =>
      refine ⟨hus, fun outcome houtcome => .inl ?_⟩
      cases houtcome
      rfl

structure Leaves (t : Traffic η ν) (now : Instant) (d : Departure ν) : Prop where
  number : t.scheduler.queue.head?.map (·.seq) = some d.number
  taken : (t.scheduler.take now).1 = some d.taken

/-- What a launch is to the traffic: nothing, or one departure. -/
inductive Departs (e : Engine σ η ν) (now : Instant) (t u : Traffic η ν) : Launch η ν → Prop where
  | idle (none : (t.scheduler.take now).1 = none) (same : Serves e.harness t u) :
      Departs e now t u .idle
  | grounded {d : Departure ν} {outcome : FireOutcome} (leaves : Leaves t now d)
      (departures : u.departures = t.departures ++ [d]) (landings : u.landings = t.landings)
      (waiting : t.landings.get? d.number = none)
      (ending : Ending e.harness u.scheduler.registry d.taken outcome) :
      Departs e now t u (.grounded d.taken outcome)
  | airborne {d : Departure ν} {flight : Flight η ν} (leaves : Leaves t now d)
      (departures : u.departures = t.departures ++ [d]) (landings : u.landings = t.landings)
      (waiting : t.landings.get? d.number = none) (taken : flight.taken = d.taken)
      (attempt : flight.context.refireCount = d.taken.fire.refireCount) :
      Departs e now t u (.airborne flight)

theorem launch_departs (lawful : e.Lawful) (keep : e.Disciplined) (orderly : Orderly t)
    (ht : t.scheduler = e.scheduler.get h.app) :
    ∃ u, Leads e.harness t u ∧ u.scheduler = e.scheduler.get (e.launch h).2.app ∧
      Departs e (Act.now h).1 t u (e.launch h).1 := by
  let now := (Act.now h).1
  unfold Engine.launch Engine.launchBy
  rw [bind_run, run_bind, show e.scheduler.get (Act.now h).2.app = t.scheduler from ht.symm]
  cases htake : t.scheduler.take now with
  | mk r s =>
    cases r with
    | none =>
      have hskip : Traffic.Step e.harness t { t with scheduler := s } := .skip now htake
      exact ⟨_, .next .here hskip, (lawful _ _).symm,
        .idle (congrArg Prod.fst htake) ⟨.next .here hskip, rfl, rfl⟩⟩
    | some taken =>
      obtain ⟨q, rest, job, hqueue, -, -, -, -⟩ := Scheduler.take_some htake
      let d : Departure ν := { number := q.seq, taken, time := now }
      have hleaves : Leaves t now d := ⟨by rw [hqueue]; rfl, congrArg Prod.fst htake⟩
      have hq : q ∈ t.scheduler.queue := hqueue ▸ List.mem_cons_self
      have hdepart : Traffic.Step e.harness t
          { t with scheduler := s, departures := t.departures ++ [d] } :=
        .depart now (congrArg List.head? hqueue) htake
      have hopen : t.landings.get? d.number = none := orderly.open_of_mem hq
      simp only
      rw [bind_run]
      generalize hcreated : FireContext.create taken.job.definition taken.fire.triggerData
        taken.fire.refireCount _ = created
      obtain ⟨fire, host⟩ := created
      have hdefinition : fire.definition = taken.job.definition := by
        cases hcreated
        rfl
      have hattempt : fire.refireCount = taken.fire.refireCount := by
        cases hcreated
        rfl
      have hhost : s = e.scheduler.get host.app := by
        cases hcreated
        exact (lawful _ _).symm
      obtain ⟨u, hu, hus, hending⟩ := serves_permit lawful keep
        { fire with scheduledFor := taken.fire.scheduledFor } taken.listeners
        (t := { t with scheduler := s, departures := t.departures ++ [d] }) hhost
      have hleads : Leads e.harness t u := (Leads.here.next hdepart).trans hu.leads
      rw [bind_run]
      generalize hpermit : e.permit { fire with scheduledFor := taken.fire.scheduledFor }
        taken.listeners host = permitted at hus hending ⊢
      obtain ⟨r, last⟩ := permitted
      cases r with
      | ok handler =>
        exact ⟨u, hleads, hus, .airborne hleaves hu.departures hu.landings hopen rfl hattempt⟩
      | error outcome =>
        refine ⟨u, hleads, hus, .grounded hleaves hu.departures hu.landings hopen ?_⟩
        obtain rfl | ⟨rfl, hunknown⟩ := hending outcome rfl
        · exact .vetoed
        · exact .noHandler (hdefinition ▸ hunknown)

theorem afterFire_app (e : Engine σ η ν) (fire : PendingFire) (trigger : Option Trigger)
    (outcome : FireOutcome) (h : Host σ) :
    ∃ now, (e.afterFire fire trigger outcome h).2.app =
      e.scheduler.put (((e.scheduler.get h.app).afterFire fire trigger outcome now).getD
        (e.scheduler.get h.app)) h.app := by
  refine ⟨(Act.now h).1, ?_⟩
  unfold Engine.afterFire
  rw [bind_run, read_bind]
  cases (e.scheduler.get (Act.now h).2.app).contains fire.key with
  | false => rfl
  | true =>
    simp only [↓reduceIte]
    cases Scheduler.nextFire fire trigger outcome (Act.now h).1 <;> rfl

theorem afterFire_answer (e : Engine σ η ν) (fire : PendingFire) (trigger : Option Trigger)
    (outcome : FireOutcome) (h : Host σ) : ∃ now, (e.afterFire fire trigger outcome h).1 =
      ((e.scheduler.get h.app).afterFire fire trigger outcome now).isSome := by
  refine ⟨(Act.now h).1, ?_⟩
  unfold Engine.afterFire
  rw [bind_run, read_bind]
  cases (e.scheduler.get (Act.now h).2.app).contains fire.key with
  | false => rfl
  | true =>
    simp only [↓reduceIte]
    cases Scheduler.nextFire fire trigger outcome (Act.now h).1 <;> rfl

theorem settle_of_no_delay (e : Engine σ η ν) (taken : TakenFire ν) {outcome : FireOutcome}
    (hdelay : outcome.delay? = none) (h : Host σ) : (e.settle taken outcome h).1 =
      .fired { key := taken.fire.key, attempt := taken.fire.refireCount, outcome } := by
  obtain ⟨now, hanswer⟩ := afterFire_answer e taken.fire taken.job.trigger outcome h
  rw [Scheduler.afterFire_isSome _ _ _ _ hdelay] at hanswer
  unfold Engine.settle
  rw [bind_run, hanswer]
  rfl

theorem settle_lands (lawful : e.Lawful) (ht : t.scheduler = e.scheduler.get h.app)
    (d : Departure ν) (outcome : FireOutcome) :
    ∃ now, (t.land d outcome now).scheduler =
      e.scheduler.get (e.settle d.taken outcome h).2.app := by
  obtain ⟨now, happ⟩ := afterFire_app e d.taken.fire d.taken.job.trigger outcome h
  have hland : (t.land d outcome now).scheduler = e.scheduler.get
      (e.afterFire d.taken.fire d.taken.job.trigger outcome h).2.app := by
    rw [happ, lawful, ← ht]
    rfl
  refine ⟨now, hland.trans ?_⟩
  unfold Engine.settle
  rw [bind_run]
  cases (e.afterFire d.taken.fire d.taken.job.trigger outcome h).1 <;> rfl

/-- What a try at firing is to the traffic: nothing, or one departure and what is reported of it. -/
inductive Fires (now : Instant) (t u : Traffic η ν) : FireTry → Prop where
  | idle (none : (t.scheduler.take now).1 = none) (departures : u.departures = t.departures) :
      Fires now t u .idle
  | fired {d : Departure ν} {ended : Instant} {report : FireReport} (leaves : Leaves t now d)
      (departures : u.departures = t.departures ++ [d]) (key : d.taken.fire.key = report.key)
      (attempt : d.taken.fire.refireCount = report.attempt)
      (landing : u.landings.get? d.number = some (report.outcome, ended)) :
      Fires now t u (.fired report)
  | crashed {d : Departure ν} (leaves : Leaves t now d)
      (departures : u.departures = t.departures ++ [d]) : Fires now t u .crashed

theorem settle_fires (lawful : e.Lawful) {t u : Traffic η ν} {h : Host σ}
    (hu : u.scheduler = e.scheduler.get h.app) {now : Instant} {d : Departure ν}
    (hleaves : Leaves t now d) (hdepartures : u.departures = t.departures ++ [d])
    {outcome : FireOutcome} (hopen : u.landings.get? d.number = none)
    (hending : Ending e.harness u.scheduler.registry d.taken outcome) :
    ∃ v, Traffic.Step e.harness u v ∧
      v.scheduler = e.scheduler.get (e.settle d.taken outcome h).2.app ∧
      Fires now t v (e.settle d.taken outcome h).1 := by
  obtain ⟨ended, hland⟩ := settle_lands lawful hu d outcome
  have hd : d ∈ u.departures := hdepartures ▸ List.mem_append_right _ List.mem_cons_self
  refine ⟨_, .land outcome ended hd hopen hending, hland, ?_⟩
  obtain hcrashed | hfired := settle_answer e d.taken outcome h
  · rw [hcrashed]
    exact .crashed hleaves hdepartures
  · rw [hfired]
    exact .fired hleaves hdepartures rfl rfl (if_pos rfl)

/-- Each try of an engine at firing is traffic, and what is reported is how the fire ended there. -/
theorem fireNext_traffic (lawful : e.Lawful) (keep : e.Disciplined) (ht : Reachable e.harness t)
    (hs : t.scheduler = e.scheduler.get h.app) :
    ∃ u, Leads e.harness t u ∧ u.scheduler = e.scheduler.get (e.fireNext h).2.app ∧
      Fires (Act.now h).1 t u (e.fireNext h).1 := by
  obtain ⟨u, hleads, hus, hdeparts⟩ := launch_departs lawful keep ht.orderly hs
  unfold Engine.fireNext
  rw [bind_run]
  generalize e.launch h = launched at hus hdeparts ⊢
  obtain ⟨r, host⟩ := launched
  cases hdeparts with
  | idle none same => exact ⟨u, hleads, hus, .idle none same.departures⟩
  | @grounded d outcome hleaves hdepartures hlandings hopen hending =>
    obtain ⟨v, hstep, hvs, hfires⟩ :=
      settle_fires lawful hus hleaves hdepartures (hlandings ▸ hopen) hending
    exact ⟨v, hleads.next hstep, hvs, hfires⟩
  | @airborne d flight hleaves hdepartures hlandings hopen htaken hattempt =>
    obtain ⟨v, hv, hvs⟩ :=
      ((Calls.composes e).run (keep.runs flight.handler) flight.context).serves lawful host u hus
    simp only
    rw [bind_run]
    generalize hran : e.harness.run (e.job flight.handler) flight.context host = ran at hvs ⊢
    obtain ⟨result, landed⟩ := ran
    obtain ⟨w, hw, hws⟩ := ((Calls.composes e).tellAll keep.after flight.context result
      flight.taken.listeners).serves lawful landed v hvs
    have hending : Ending e.harness w.scheduler.registry d.taken (.dispatched result) := by
      have hresult : (e.harness.run (e.job flight.handler) flight.context host).1 = result := by
        rw [hran]
      rw [← hresult]
      exact .ran _ flight.context host hattempt
    have hwaiting : w.landings.get? d.number = none := by
      rw [hw.landings, hv.landings, hlandings]
      exact hopen
    obtain ⟨x, hstep, hxs, hfires⟩ := settle_fires lawful hws hleaves
      ((hw.departures.trans hv.departures).trans hdepartures) hwaiting hending
    unfold Engine.land
    rw [bind_run, htaken]
    rw [htaken] at hxs hfires
    exact ⟨x, ((hleads.trans hv.leads).trans hw.leads).next hstep, hxs, hfires⟩

theorem runDue_traffic (lawful : e.Lawful) (keep : e.Disciplined) (n : Nat)
    (ht : Reachable e.harness t) (hs : t.scheduler = e.scheduler.get h.app) :
    ∃ u, Leads e.harness t u ∧ u.scheduler = e.scheduler.get (e.runDue n h).2.app := by
  induction n generalizing t h with
  | zero => exact ⟨t, .here, hs⟩
  | succ n ih =>
    obtain ⟨u, hleads, hus, -⟩ := fireNext_traffic lawful keep ht hs
    unfold Engine.runDue
    rw [bind_run]
    cases (e.fireNext h).1 with
    | idle => exact ⟨u, hleads, hus⟩
    | crashed => exact ⟨u, hleads, hus⟩
    | fired report =>
      obtain ⟨v, hv, hvs⟩ := ih (hleads.reachable ht) hus
      exact ⟨v, hleads.trans hv, hvs⟩

end Engine

end JobEngine
