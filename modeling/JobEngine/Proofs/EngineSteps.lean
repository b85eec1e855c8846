import JobEngine.Proofs.Parts
import JobEngine.Scheduler.Engine
/-! An engine does to the application what its parts do: the listeners and the runs, and beside them
the two steps that take a fire off the queue and queue what follows it. -/

namespace JobEngine

variable {σ η ν α β : Type} {C : {α : Type} → Act σ α → Prop}

/-- The listeners and the runs of an engine are acts of some kind. -/
structure Engine.MadeOf (C : {α : Type} → Act σ α → Prop) (e : Engine σ η ν) : Prop where
  before : ∀ n fire, C ((e.listener n).before fire)
  after : ∀ n fire result, C ((e.listener n).after fire result)
  runs : ∀ handler, e.harness.MadeOf C (e.job handler)

def Engine.follow (e : Engine σ η ν) (fire : PendingFire) (trigger : Option Trigger)
    (outcome : FireOutcome) (now : Instant) : Act σ Bool :=
  e.scheduler.run fun s =>
    let next := s.afterFire fire trigger outcome now
    (next.isSome, next.getD s)

namespace Engine

variable {e : Engine σ η ν}

theorem read_bind (view : Scheduler η ν → β) (f : β → Act σ α) (h : Host σ) :
    (e.scheduler.read view >>= f) h = f (view (e.scheduler.get h.app)) h := rfl

theorem bind_run (a : Act σ β) (f : β → Act σ α) (h : Host σ) :
    (a >>= f) h = f (a h).1 (a h).2 := rfl

theorem run_bind (step : Scheduler η ν → β × Scheduler η ν) (f : β → Act σ α) (h : Host σ) :
    (e.scheduler.run step >>= f) h = f (step (e.scheduler.get h.app)).1
      { h with app := e.scheduler.put (step (e.scheduler.get h.app)).2 h.app } := rfl

theorem settle_answer (e : Engine σ η ν) (taken : TakenFire ν) (outcome : FireOutcome)
    (h : Host σ) :
    (e.settle taken outcome h).1 = .crashed ∨ (e.settle taken outcome h).1 =
      .fired { key := taken.fire.key, attempt := taken.fire.refireCount, outcome } := by
  unfold Engine.settle
  rw [bind_run]
  cases (e.afterFire taken.fire taken.job.trigger outcome h).1 with
  | false => exact .inl rfl
  | true => exact .inr rfl

theorem settle_report {taken : TakenFire ν} {outcome : FireOutcome} {h : Host σ}
    {report : FireReport} (hreport : (e.settle taken outcome h).1 = .fired report) :
    report = { key := taken.fire.key, attempt := taken.fire.refireCount, outcome } := by
  obtain hcrashed | hfired := settle_answer e taken outcome h
  · rw [hcrashed] at hreport
    cases hreport
  · rw [hfired] at hreport
    cases hreport
    rfl

theorem permit_error {fire : FireContext} {listeners : Assoc String ν} {h : Host σ}
    {outcome : FireOutcome} (herror : (e.permit fire listeners h).1 = .error outcome) :
    outcome = .vetoed ∨ outcome = .noHandler ∧
      (e.scheduler.get h.app).registry.resolve fire.definition.kind = none := by
  unfold Engine.permit at herror
  rw [read_bind] at herror
  cases hresolve : (e.scheduler.get h.app).registry.resolve fire.definition.kind with
  | none =>
    rw [hresolve] at herror
    cases herror
    exact .inr ⟨rfl, rfl⟩
  | some handler =>
    rw [hresolve] at herror
    simp only at herror
    rw [bind_run] at herror
    cases hveto : (e.firstVeto fire listeners h).1 with
    | none =>
      rw [hveto] at herror
      cases herror
    | some name =>
      rw [hveto] at herror
      cases herror
      exact .inl rfl

theorem launch_grounded {h : Host σ} {taken : TakenFire ν} {outcome : FireOutcome}
    (hgrounded : (e.launch h).1 = .grounded taken outcome) :
    outcome = .vetoed ∨ outcome = .noHandler := by
  unfold Engine.launch Engine.launchBy at hgrounded
  rw [bind_run, run_bind] at hgrounded
  cases htake : ((e.scheduler.get (Act.now h).2.app).take (Act.now h).1).1 with
  | none =>
    rw [htake] at hgrounded
    cases hgrounded
  | some next =>
    rw [htake] at hgrounded
    simp only at hgrounded
    rw [bind_run, bind_run] at hgrounded
    generalize hpermit : e.permit _ _ _ = permitted at hgrounded
    obtain ⟨r, host⟩ := permitted
    cases r with
    | ok handler => cases hgrounded
    | error other =>
      cases hgrounded
      exact (permit_error (congrArg Prod.fst hpermit)).imp id And.left

section

variable {e' : Engine σ η ν} (sameScheduler : e'.scheduler = e.scheduler)
variable (sameListener : e'.listener = e.listener)

include sameListener

private theorem firstVeto_congr : e'.firstVeto = e.firstVeto := by
  funext fire listeners
  induction listeners with
  | nil => rfl
  | cons entry rest ih => simp only [Engine.firstVeto, ih, sameListener]

private theorem tellAll_congr : e'.tellAll = e.tellAll := by
  funext fire result listeners
  induction listeners with
  | nil => rfl
  | cons entry rest ih => simp only [Engine.tellAll, ih, sameListener]

include sameScheduler

theorem launch_congr : e'.launch = e.launch := by
  unfold Engine.launch Engine.launchBy Engine.permit
  rw [firstVeto_congr sameListener, sameScheduler]

omit sameListener in
theorem settle_congr : e'.settle = e.settle := by
  unfold Engine.settle Engine.afterFire
  rw [sameScheduler]

theorem land_congr : e'.land = e.land := by
  unfold Engine.land
  rw [tellAll_congr sameListener, settle_congr sameScheduler]

end

end Engine

namespace Composes

variable {e : Engine σ η ν}

theorem statusBefore (kind : Composes C) {ledger : StatusLedger σ} {fire : FireContext}
    (htransition : C (ledger.transition fire.key (.running fire.refireCount))) :
    C (StatusListener.before ledger fire) := by
  apply kind.bind htransition
  intro r
  split
  · exact kind.pure _
  · exact kind.bind (kind.log _ _ _ _) fun _ => kind.pure _
  · exact kind.bind (kind.log _ _ _ _) fun _ => kind.pure _

theorem statusAfter (kind : Composes C) {ledger : StatusLedger σ} {fire : FireContext}
    {result : Except DispatchError Unit}
    (htransition : C (ledger.transition fire.key (StatusListener.updateFor result))) :
    C (StatusListener.after ledger fire result) := by
  apply kind.bind htransition
  intro r
  cases r with
  | error e => exact kind.log _ _ _ _
  | ok row => exact kind.pure _

theorem firstVeto (kind : Composes C) (hbefore : ∀ n fire, C ((e.listener n).before fire))
    (fire : FireContext) (listeners : Assoc String ν) : C (e.firstVeto fire listeners) := by
  induction listeners with
  | nil => exact kind.pure none
  | cons entry rest ih =>
    apply kind.bind (hbefore entry.2 fire)
    intro verdict
    cases verdict with
    | veto => exact kind.pure _
    | proceed => exact ih

theorem tellAll (kind : Composes C)
    (hafter : ∀ n fire result, C ((e.listener n).after fire result)) (fire : FireContext)
    (result : Except DispatchError Unit) (listeners : Assoc String ν) :
    C (e.tellAll fire result listeners) := by
  induction listeners with
  | nil => exact kind.pure ()
  | cons entry rest ih => exact kind.bind (hafter entry.2 fire result) fun _ => ih

theorem permit (kind : Composes C) (hbefore : ∀ n fire, C ((e.listener n).before fire))
    (fire : FireContext) (listeners : Assoc String ν) : C (e.permit fire listeners) := by
  apply kind.bind (kind.still fun _ => rfl)
  intro handler
  cases handler with
  | none => exact kind.bind (kind.log _ _ _ _) fun _ => kind.pure _
  | some handler =>
    apply kind.bind (kind.firstVeto hbefore fire listeners)
    intro veto
    cases veto with
    | none => exact kind.pure _
    | some name => exact kind.bind (kind.log _ _ _ _) fun _ => kind.pure _

theorem launchBy (kind : Composes C) (hbefore : ∀ n fire, C ((e.listener n).before fire))
    {now : Instant} (htake : C (e.scheduler.run (·.take now))) : C (e.launchBy now) := by
  apply kind.bind htake
  intro taken
  cases taken with
  | none => exact kind.pure _
  | some taken =>
    apply kind.bind (kind.still fun _ => rfl)
    intro fire
    apply kind.bind (kind.permit hbefore _ _)
    intro permitted
    cases permitted with
    | error outcome => exact kind.pure _
    | ok handler => exact kind.pure _

theorem launch (kind : Composes C) (hbefore : ∀ n fire, C ((e.listener n).before fire))
    (htake : ∀ now, C (e.scheduler.run (·.take now))) : C e.launch :=
  kind.bind kind.now fun now => kind.launchBy hbefore (htake now)

theorem afterFire (kind : Composes C) {fire : PendingFire} {trigger : Option Trigger}
    {outcome : FireOutcome} (hfollow : ∀ now, C (e.follow fire trigger outcome now)) :
    C (e.afterFire fire trigger outcome) := by
  apply kind.bind kind.now
  intro now
  apply kind.bind (kind.still fun _ => rfl)
  intro kept
  cases kept with
  | false => exact hfollow now
  | true =>
    simp only [↓reduceIte]
    split
    · exact kind.bind (kind.log _ _ _ _) fun _ => hfollow now
    · exact hfollow now

theorem settleFire (kind : Composes C) {taken : TakenFire ν} {outcome : FireOutcome}
    (hfollow : ∀ now, C (e.follow taken.fire taken.job.trigger outcome now)) :
    C (e.settle taken outcome) := by
  apply kind.bind (kind.afterFire hfollow)
  intro kept
  cases kept <;> exact kind.pure _

theorem fireNext (kind : Composes C) (made : e.MadeOf C)
    (htake : ∀ now, C (e.scheduler.run (·.take now)))
    (hfollow : ∀ fire trigger outcome now, C (e.follow fire trigger outcome now)) :
    C e.fireNext := by
  apply kind.bind (kind.launch made.before htake)
  intro launched
  cases launched with
  | idle => exact kind.pure _
  | grounded taken outcome => exact kind.settleFire (hfollow _ _ _)
  | airborne flight =>
    apply kind.bind (kind.run (made.runs flight.handler) flight.context)
    intro result
    apply kind.bind (kind.tellAll made.after flight.context result flight.taken.listeners)
    exact fun _ => kind.settleFire (hfollow _ _ _)

theorem runDue (kind : Composes C) (hfire : C e.fireNext) (max : Nat) : C (e.runDue max) := by
  induction max with
  | zero => exact kind.pure _
  | succ max ih =>
    apply kind.bind hfire
    intro fired
    cases fired with
    | idle => exact kind.pure _
    | crashed => exact kind.pure _
    | fired report => exact kind.bind ih fun _ => kind.pure _

end Composes

end JobEngine
