import JobEngine.Ledger.Memory
import JobEngine.Proofs.Queue
import JobEngine.Proofs.EngineSteps
import JobEngine.Registration
/-! A scheduler and a ledger in one application, and how to reason about acts on them. What an act
does is stated by what holds of the two before and after it; clock, log and all other parts of the
application are left open. -/

namespace JobEngine

theorem JobStatus.register_app {σ : Type} (definition : JobDefinition) (triggered : Bool)
    (h : Host σ) : (JobStatus.register definition triggered h).2.app = h.app :=
  definition.data.readOwner_app _

namespace Composes

variable {σ : Type} {C : {α : Type} → Act σ α → Prop} {ledger : StatusLedger σ}
variable {scheduler : JobScheduler σ} {definition : JobDefinition}

theorem failStatus (kind : Composes C) {key : JobKey} {cause : SchedulerError}
    (htransition : C (ledger.transition key (.failed cause.message))) :
    C (Registration.failStatus ledger key cause) := by
  apply kind.bind (kind.log _ _ _ _)
  intro _
  apply kind.bind htransition
  intro r
  cases r with
  | error e => exact kind.log _ _ _ _
  | ok row => exact kind.pure _

theorem submitNow (kind : Composes C) {job : Job σ}
    (hcheck : ∀ row, C (job.isSchedulable ledger row))
    (hschedule : C (Registration.scheduleJob ledger scheduler definition none))
    (htrigger : C (scheduler.triggerNow definition.key Dict.empty))
    (hfail : ∀ cause, C (Registration.failStatus ledger definition.key cause)) :
    C (Registration.submitNow ledger scheduler job definition) := by
  apply kind.bind (kind.still (JobStatus.register_app definition false))
  intro candidate
  apply kind.bind (hcheck candidate)
  intro schedulable
  split
  · apply kind.bind hschedule
    intro r
    cases r with
    | error e => exact kind.pure _
    | ok status =>
      apply kind.bind htrigger
      intro r
      cases r with
      | ok _ => exact kind.pure _
      | error source => exact kind.bind (hfail source) fun _ => kind.pure _
  · exact kind.bind (kind.log _ _ _ _) fun _ => kind.pure _

end Composes

/-- The places of a scheduler and of a ledger in an application, apart from each other. -/
structure Site (σ η ν : Type) where
  scheduler : Part σ (Scheduler η ν)
  ledger : Part σ MemoryLedger
  scheduler_put : ∀ s a, scheduler.get (scheduler.put s a) = s
  ledger_put : ∀ l a, ledger.get (ledger.put l a) = l
  scheduler_put_ledger : ∀ l a, scheduler.get (ledger.put l a) = scheduler.get a
  ledger_put_scheduler : ∀ s a, ledger.get (scheduler.put s a) = ledger.get a

namespace Site

variable {σ η ν α β : Type}

/-- The two are as described before the act, so they are as described after it. -/
def Triple (site : Site σ η ν) (P : Scheduler η ν → MemoryLedger → Prop) (a : Act σ α)
    (Q : α → Scheduler η ν → MemoryLedger → Prop) : Prop :=
  ∀ h, P (site.scheduler.get h.app) (site.ledger.get h.app) →
    Q (a h).1 (site.scheduler.get (a h).2.app) (site.ledger.get (a h).2.app)

abbrev Keeps (site : Site σ η ν) (P : Scheduler η ν → MemoryLedger → Prop) (a : Act σ α) : Prop :=
  site.Triple P a fun _ => P

abbrev book (site : Site σ η ν) : StatusLedger σ := MemoryLedger.service site.ledger

abbrev service (site : Site σ η ν) : JobScheduler σ := Scheduler.service site.scheduler

namespace Triple

variable {site : Site σ η ν} {P P' : Scheduler η ν → MemoryLedger → Prop} {a : Act σ α}
variable {Q Q' : α → Scheduler η ν → MemoryLedger → Prop}

theorem bind {f : α → Act σ β} {R : β → Scheduler η ν → MemoryLedger → Prop}
    (ha : site.Triple P a Q) (hf : ∀ x, site.Triple (Q x) (f x) R) : site.Triple P (a >>= f) R :=
  fun h hP => hf _ (a h).2 (ha h hP)

theorem mono (ha : site.Triple P a Q) (hP : ∀ s l, P' s l → P s l)
    (hQ : ∀ x s l, Q x s l → Q' x s l) : site.Triple P' a Q' :=
  fun h h' => hQ _ _ _ (ha h (hP _ _ h'))

theorem pure {x : α} (h : ∀ s l, P s l → Q x s l) : site.Triple P (pure x) Q := fun _ => h _ _

theorem still (h : ∀ h, (a h).2.app = h.app) : site.Keeps P a := fun host hP => by
  rw [h]
  exact hP

theorem after {f : α → Act σ β} {R : β → Scheduler η ν → MemoryLedger → Prop}
    (ha : site.Keeps P a) (hf : ∀ x, site.Triple P (f x) R) : site.Triple P (a >>= f) R :=
  ha.bind hf

theorem assuming {C : Prop} (h : C → site.Triple P a Q) : site.Triple (fun s l => C ∧ P s l) a Q :=
  fun host hP => h hP.1 host hP.2

theorem naming (h : ∀ s l, P s l → site.Triple (fun s' l' => s' = s ∧ l' = l) a Q) :
    site.Triple P a Q := fun host hP => h _ _ hP host ⟨rfl, rfl⟩

theorem now : site.Keeps P (Act.now : Act σ Instant) := still fun _ => rfl

theorem log (c : Component) (l : Level) (message : String) (fields : Log.Fields) :
    site.Keeps P (Act.log c l message fields : Act σ Unit) := still fun _ => rfl

theorem onScheduler {step : Scheduler η ν → α × Scheduler η ν}
    (h : ∀ s l, P s l → Q (step s).1 (step s).2 l) : site.Triple P (site.scheduler.run step) Q := by
  intro host hP
  change Q _ (site.scheduler.get (site.scheduler.put _ _))
    (site.ledger.get (site.scheduler.put _ _))
  rw [site.scheduler_put, site.ledger_put_scheduler]
  exact h _ _ hP

theorem onLedger {step : MemoryLedger → α × MemoryLedger}
    (h : ∀ s l, P s l → Q (step l).1 s (step l).2) : site.Triple P (site.ledger.run step) Q := by
  intro host hP
  change Q _ (site.scheduler.get (site.ledger.put _ _)) (site.ledger.get (site.ledger.put _ _))
  rw [site.ledger_put, site.scheduler_put_ledger]
  exact h _ _ hP

theorem attempt {step : Scheduler η ν → Except SchedulerError (Scheduler η ν)}
    {Q : Except SchedulerError Unit → Scheduler η ν → MemoryLedger → Prop}
    (hok : ∀ s s' l, P s l → step s = .ok s' → Q (.ok ()) s' l)
    (herror : ∀ s l e, P s l → step s = .error e → Q (.error e) s l) :
    site.Triple P (Scheduler.attempt site.scheduler step) Q := by
  refine onScheduler fun s l hP => ?_
  cases hstep : step s with
  | ok s' => exact hok s s' l hP hstep
  | error e => exact herror s l e hP hstep

section

variable {R : Scheduler η ν → MemoryLedger → Prop}

theorem triggerNow {key : JobKey} {data : TriggerData}
    (h : ∀ s s' l now, R s l → s.triggerNow key data now = .ok s' → R s' l) :
    site.Keeps R (site.service.triggerNow key data) :=
  now.after fun time => attempt (fun s s' l hR hs => h s s' l time hR hs) fun _ _ _ hR _ => hR

theorem deleteJob {key : JobKey} (h : ∀ s l, R s l → R (s.deleteJob key).2 l) :
    site.Keeps R (site.service.deleteJob key) :=
  onScheduler (Q := fun _ => R) h

theorem create {row : JobStatus} (h : ∀ s l l', P s l → l.create row = .ok l' → R s l')
    (hsame : ∀ s l, P s l → R s l) : site.Triple P (site.book.create row) fun _ => R := by
  refine onLedger fun s l hP => ?_
  cases hcreate : l.create row with
  | error e =>
    simp only [MemoryLedger.attempt, hcreate, Except.map]
    exact hsame s l hP
  | ok l' =>
    simp only [MemoryLedger.attempt, hcreate, Except.map]
    exact h s l l' hP hcreate

theorem merge {row : JobStatus} (h : ∀ s l now, P s l → R s (l.merge row now).2) :
    site.Triple P (site.book.merge row) fun _ => R :=
  now.after fun time => onLedger fun s l hP => h s l time hP

theorem transition {key : JobKey} {u : StatusUpdate}
    (h : ∀ s l now r, R s l → l.transition key u now = .ok r → R s r.2) :
    site.Keeps R (site.book.transition key u) := by
  refine now.after fun time => onLedger fun s l hR => ?_
  cases htransition : l.transition key u time with
  | error e =>
    simp only [MemoryLedger.attempt, htransition]
    exact hR
  | ok r =>
    simp only [MemoryLedger.attempt, htransition]
    exact h s l time r hR htransition

end

/-- What a registration asks of a description that it is to keep. While it is under way the
description may say more, from when the listener was matched until the job is stored. -/
structure Registers (key : JobKey) (P M : Scheduler η ν → MemoryLedger → Prop) : Prop where
  weaken : ∀ s l, M s l → P s l
  matched : ∀ s s' l, P s l → s.addMatcher StatusListener.name key = .ok s' → M s' l
  created : ∀ s l l' row, M s l → row.id = key → row.state ≠ .running → l.create row = .ok l' →
    M s l'
  merged : ∀ s l row now, M s l → l.get? key = some row → M s (l.merge row now).2
  scheduled : ∀ s s' l definition trigger, M s l → definition.key = key →
    s.scheduleJob definition trigger = .ok s' → P s' l
  added : ∀ s s' l definition, M s l → definition.key = key →
    s.addJob definition false = .ok s' → P s' l
  refused : ∀ s l cause now r, P s l → l.transition key (.failed cause) now = .ok r → P s r.2

section

variable {key : JobKey} {M : Scheduler η ν → MemoryLedger → Prop} {definition : JobDefinition}

theorem adoptExisting (h : Registers key P M) :
    site.Triple M (Registration.adoptExisting site.book key) fun _ => P := by
  have hget : site.Triple M (site.book.get key) fun r s l =>
      M s l ∧ ∀ row, r = .ok (some row) → l.get? key = some row := by
    intro host hM
    exact ⟨hM, fun row hrow => Except.ok.inj hrow⟩
  refine hget.bind ?_
  rintro (e | _ | row)
  · exact pure fun s l hM => h.weaken s l hM.1
  · exact pure fun s l hM => h.weaken s l hM.1
  · refine bind (Q := fun _ => P) (merge fun s l time hM => ?_) ?_
    · exact h.weaken s _ (h.merged s l row time hM.1 (hM.2 row rfl))
    · rintro (e | merged)
      · exact pure fun _ _ hP => hP
      · exact (log _ _ _ _).after fun _ => pure fun _ _ hP => hP

theorem failStatus (h : Registers key P M) (cause : SchedulerError) :
    site.Keeps P (Registration.failStatus site.book key cause) :=
  have kind : Composes (site.Keeps P) := ⟨still, after⟩
  kind.failStatus (transition fun s l time r hP => h.refused s l cause.message time r hP)

theorem attach (h : Registers key P M) (hkey : definition.key = key) (trigger : Option Trigger) :
    site.Triple M (Registration.attach site.service definition trigger) fun _ => P := by
  cases trigger with
  | none =>
    exact attempt (fun s s' l hM hs => h.added s s' l definition hM hkey hs) fun s l _ hM _ =>
      h.weaken s l hM
  | some trigger =>
    refine (attempt (Q := fun _ => P) (fun s s' l hM hs => ?_) fun s l _ hM _ => ?_).bind ?_
    · exact h.scheduled s s' l definition trigger hM hkey hs
    · exact h.weaken s l hM
    · rintro (e | ⟨⟩)
      · exact pure fun _ _ hP => hP
      · exact (log _ _ _ _).after fun _ => pure fun _ _ hP => hP

private theorem registerRow (triggered : Bool) :
    site.Triple P (JobStatus.register definition triggered) fun row s l =>
      P s l ∧ row.id = definition.key ∧ row.state ≠ .running := by
  intro host hP
  rw [JobStatus.register_app]
  refine ⟨hP, rfl, ?_⟩
  change (if triggered then JobState.pending else .created) ≠ .running
  split <;> exact JobState.noConfusion

theorem scheduleJob (h : Registers definition.key P M) (trigger : Option Trigger) :
    site.Keeps P (Registration.scheduleJob site.book site.service definition trigger) := by
  have hmatch : site.Triple P (site.service.addMatcher StatusListener.name definition.key)
      fun r s l => P s l ∧ (r = .ok () → M s l) := by
    refine attempt (Q := fun r s l => P s l ∧ (r = .ok () → M s l)) (fun s s' l hP hs => ?_) ?_
    · have hM := h.matched s s' l hP hs
      exact ⟨h.weaken s' l hM, fun _ => hM⟩
    · exact fun s l e hP _ => ⟨hP, nofun⟩
  refine hmatch.bind ?_
  rintro (source | ⟨⟩)
  · exact pure fun s l hP => hP.1
  refine (registerRow trigger.isSome).bind fun status => ?_
  refine bind (Q := fun _ => M) (create (fun s l l' hP hl => ?_) fun s l hP => hP.1.2 rfl) ?_
  · exact h.created s l l' status (hP.1.2 rfl) hP.2.1 hP.2.2 hl
  rintro (source | ⟨⟩)
  · cases source with
    | alreadyExists key => exact adoptExisting h
    | notFound key => exact pure h.weaken
    | invalidTransition key source target => exact pure h.weaken
    | storage reason => exact pure h.weaken
  · refine (attach h rfl trigger).bind ?_
    rintro (source | ⟨⟩)
    · exact (failStatus h source).after fun _ => pure fun _ _ hP => hP
    · exact (log _ _ _ _).after fun _ => pure fun _ _ hP => hP

end

end Triple

theorem keeps_composes (site : Site σ η ν) (P : Scheduler η ν → MemoryLedger → Prop) :
    Composes (site.Keeps P) := ⟨Triple.still, Triple.after⟩

theorem Triple.statusBefore {site : Site σ η ν} {P : Scheduler η ν → MemoryLedger → Prop}
    {fire : FireContext} (h : ∀ s l now r, P s l →
      l.transition fire.key (.running fire.refireCount) now = .ok r → P s r.2) :
    site.Keeps P (StatusListener.before site.book fire) :=
  (site.keeps_composes P).statusBefore (Triple.transition h)

def Apart (site : Site σ η ν) (a : Act σ α) : Prop :=
  ∀ h, site.scheduler.get (a h).2.app = site.scheduler.get h.app ∧
    site.ledger.get (a h).2.app = site.ledger.get h.app

theorem Apart.keeps {site : Site σ η ν} {a : Act σ α} (ha : site.Apart a)
    {P : Scheduler η ν → MemoryLedger → Prop} : site.Keeps P a := fun h hP => by
  rw [(ha h).1, (ha h).2]
  exact hP

theorem apart_still (site : Site σ η ν) {a : Act σ α} (h : ∀ h, (a h).2.app = h.app) :
    site.Apart a := fun host => by
  rw [h]
  exact ⟨rfl, rfl⟩

end Site

structure Plant (σ η ν : Type) extends Site σ η ν where
  harness : Harness σ
  job : η → Job σ
  listener : ν → JobListener σ
  status : ν
  keepsBook : listener status = StatusListener.listener (MemoryLedger.service ledger)

namespace Plant

variable {σ η ν : Type} {p : Plant σ η ν} {P : Scheduler η ν → MemoryLedger → Prop}

def engine (p : Plant σ η ν) : Engine σ η ν :=
  { scheduler := p.scheduler, harness := p.harness, job := p.job, listener := p.listener }

theorem fireNext_eq (p : Plant σ η ν) (h : Host σ) :
    p.engine.fireNext h = (match (p.engine.launch h).1 with
      | .idle => pure .idle
      | .grounded taken outcome => p.engine.settle taken outcome
      | .airborne flight => do
        let result ← p.harness.run (p.job flight.handler) flight.context
        p.engine.land flight result : Act σ FireTry) (p.engine.launch h).2 := rfl

theorem runDue_succ (p : Plant σ η ν) (n : Nat) (h : Host σ) :
    p.engine.runDue (n + 1) h = (match (p.engine.fireNext h).1 with
      | .idle => pure (some [])
      | .crashed => pure none
      | .fired report => do
        return (← p.engine.runDue n).map (report :: ·) : Act σ (Option (List FireReport)))
      (p.engine.fireNext h).2 := rfl

theorem launchBy_triple {P' : Scheduler η ν → MemoryLedger → Prop} {now : Instant}
    (htake : ∀ s l, P s l → P' (s.take now).2 l)
    (hbefore : ∀ n fire, p.Keeps P' ((p.listener n).before fire)) :
    p.Triple P (p.engine.launchBy now) fun _ => P' := by
  have htaken : p.Triple P (p.engine.scheduler.run (·.take now)) fun _ => P' :=
    Site.Triple.onScheduler htake
  refine htaken.bind fun taken => ?_
  cases taken with
  | none => exact Site.Triple.pure fun _ _ hP => hP
  | some taken =>
    refine Site.Triple.after (Site.Triple.still fun _ => rfl) fun fire => ?_
    refine Site.Triple.after ((Site.keeps_composes _ _).permit hbefore _ _) fun permitted => ?_
    cases permitted with
    | error outcome => exact Site.Triple.pure fun _ _ hP => hP
    | ok handler => exact Site.Triple.pure fun _ _ hP => hP

theorem launch_keeps (htake : ∀ s l now, P s l → P (s.take now).2 l)
    (hbefore : ∀ n fire, p.Keeps P ((p.listener n).before fire)) : p.Keeps P p.engine.launch :=
  Site.Triple.now.after fun now => launchBy_triple (fun s l hP => htake s l now hP) hbefore

theorem afterFire_triple {fire : PendingFire} {trigger : Option Trigger} {outcome : FireOutcome}
    {Q : Bool → Scheduler η ν → MemoryLedger → Prop}
    (h : ∀ s l now, P s l → Q (s.afterFire fire trigger outcome now).isSome
      ((s.afterFire fire trigger outcome now).getD s) l) :
    p.Triple P (p.engine.afterFire fire trigger outcome) Q := by
  refine Site.Triple.now.after fun now => ?_
  have hread : p.Keeps P (p.engine.scheduler.read (·.contains fire.key)) :=
    Site.Triple.still fun _ => rfl
  refine Site.Triple.after hread fun kept => ?_
  have hrun : p.Triple P (p.engine.scheduler.run fun s =>
      ((s.afterFire fire trigger outcome now).isSome,
        (s.afterFire fire trigger outcome now).getD s)) Q :=
    Site.Triple.onScheduler fun s l hP => h s l now hP
  cases kept with
  | false => exact hrun
  | true =>
    simp only [↓reduceIte]
    split
    · exact (Site.Triple.log _ _ _ _).after fun _ => hrun
    · exact hrun

theorem settle_keeps {taken : TakenFire ν} {outcome : FireOutcome}
    (h : ∀ s l now, P s l →
      P ((s.afterFire taken.fire taken.job.trigger outcome now).getD s) l) :
    p.Keeps P (p.engine.settle taken outcome) := by
  refine (afterFire_triple (Q := fun _ => P) h).bind fun kept => ?_
  cases kept <;> exact Site.Triple.pure fun _ _ hP => hP

theorem settle_vetoed (taken : TakenFire ν) :
    p.Triple P (p.engine.settle taken .vetoed) fun r s l => P s l ∧
      r = .fired
        { key := taken.fire.key, attempt := taken.fire.refireCount, outcome := .vetoed } := by
  have hafter : p.Triple P (p.engine.afterFire taken.fire taken.job.trigger .vetoed)
      fun kept s l => kept = true ∧ P s l := by
    refine afterFire_triple fun s l now hP => ?_
    rw [Scheduler.afterFire_vetoed]
    exact ⟨rfl, hP⟩
  refine hafter.bind fun kept => Site.Triple.assuming ?_
  rintro rfl
  exact Site.Triple.pure fun _ _ hP => ⟨hP, rfl⟩

theorem land_keeps {flight : Flight η ν} {result : Except DispatchError Unit}
    (htell : ∀ n fire result, p.Keeps P ((p.listener n).after fire result))
    (h : ∀ s l now, P s l → P ((s.afterFire flight.taken.fire flight.taken.job.trigger
      (.dispatched result) now).getD s) l) : p.Keeps P (p.engine.land flight result) :=
  Site.Triple.after ((Site.keeps_composes _ _).tellAll htell flight.context result
    flight.taken.listeners) fun _ => settle_keeps h

def retrying : Plant (Scheduler Unit Unit × MemoryLedger) Unit Unit where
  scheduler := { get := Prod.fst, put := fun s a => (s, a.2) }
  ledger := { get := Prod.snd, put := fun l a => (a.1, l) }
  scheduler_put _ _ := rfl
  ledger_put _ _ := rfl
  scheduler_put_ledger _ _ := rfl
  ledger_put_scheduler _ _ := rfl
  harness := { policy := .unlimited, bus := .ofPublish fun _ => pure (.ok ()) }
  job _ := { name := "report", body := fun _ => Body.fail (.conflict "busy") }
  listener _ := StatusListener.listener
    (MemoryLedger.service { get := Prod.snd, put := fun l a => (a.1, l) })
  status := ()
  keepsBook := rfl

def report : JobDefinition := { key := ⟨"daily"⟩, kind := "report" }

def opened : Host (Scheduler Unit Unit × MemoryLedger) where
  clock := .epoch
  app := ({ registry := [("report", ())], listeners := [(StatusListener.name, ())] }, {})

def registered : Host (Scheduler Unit Unit × MemoryLedger) :=
  (Registration.scheduleJob retrying.book retrying.service report
    (some { schedule := .once .epoch }) opened).2

end Plant

end JobEngine
