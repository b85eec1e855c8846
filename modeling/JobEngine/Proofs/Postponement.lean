import JobEngine.Config
import JobEngine.Proofs.Queue
/-! When a refire comes. It waits out its delay as long as that leads to an instant of the calendar.
A delay that leads past the end of the calendar loses the refire, and one that is too long to be
added to any instant is not waited for at all. -/

namespace JobEngine

namespace Instant

@[simp] private theorem shift?_zero (t : Instant) : t.shift? 0 = some t :=
  ofNanos?_eq_some_iff.mpr (Int.add_zero t.nanos).symm

private theorem plus_of_shift {t due : Instant} {delay : Duration}
    (h : t.shift? delay.nanos = some due) :
    t.plus delay = due := by
  unfold plus
  rw [h, Option.getD_some]

private theorem plus_of_not_shift {t : Instant} {delay : Duration}
    (h : t.shift? delay.nanos = none) :
    t.plus delay = last := by
  unfold plus
  rw [h, Option.getD_none]

end Instant

theorem Duration.shift_of_not_isOffset {delay : Duration} (h : ¬delay.isOffset) (now : Instant) :
    now.shift? delay.nanos = none := by
  cases hshift : now.shift? delay.nanos with
  | none => rfl
  | some due => exact absurd (Duration.isOffset_of_shift hshift) h

namespace Scheduler

variable {η ν : Type} {s s' : Scheduler η ν} {fire : PendingFire} {trigger : Option Trigger}
variable {outcome : FireOutcome} {delay : Duration} {now : Instant}

/-- One more fire waits: the next attempt at this one. It is not due before the delay has passed, or
not before the last instant when the delay leads past the end of the calendar. -/
def Postponed (s s' : Scheduler η ν) (fire : PendingFire) (delay : Duration) (now : Instant) :
    Prop :=
  ∃ q : QueuedFire, s'.queue.Perm (q :: s.queue) ∧
    q.fire = { fire with refireCount := fire.refireCount + 1 } ∧ now.plus delay ≤ q.due

theorem postponed_enqueue_iff {due : Instant} :
    s.Postponed (s.enqueue due { fire with refireCount := fire.refireCount + 1 }) fire delay now ↔
      now.plus delay ≤ due := by
  constructor
  · rintro ⟨q, hqueue, -, hdue⟩
    have hcount := ((place_perm _ s.queue).symm.trans hqueue).countP_eq fun a => a.due = due
    have hsame : q.due = due := Classical.byContradiction fun hne => by simp [hne] at hcount
    exact hsame ▸ hdue
  · intro hdue
    exact ⟨_, place_perm _ _, rfl, hdue⟩

private theorem afterFire_of_shift {due : Instant} (hstored : s.contains fire.key)
    (hdelay : outcome.delay? = some delay) (hshift : now.shift? delay.nanos = some due) :
    s.afterFire fire trigger outcome now =
      some (s.enqueue due { fire with refireCount := fire.refireCount + 1 }) := by
  rw [afterFire_of_delay hstored hdelay, if_pos (Duration.isOffset_of_shift hshift), hshift]
  rfl

private theorem afterFire_of_not_shift (hstored : s.contains fire.key)
    (hdelay : outcome.delay? = some delay) (hoffset : delay.isOffset)
    (hshift : now.shift? delay.nanos = none) : s.afterFire fire trigger outcome now = none := by
  rw [afterFire_of_delay hstored hdelay, if_pos hoffset, hshift]
  rfl

theorem afterFire_of_not_isOffset (hstored : s.contains fire.key)
    (hdelay : outcome.delay? = some delay) (hoffset : ¬delay.isOffset) :
    s.afterFire fire trigger outcome now =
      some (s.enqueue now { fire with refireCount := fire.refireCount + 1 }) := by
  rw [afterFire_of_delay hstored hdelay, if_neg hoffset, Instant.shift?_zero]
  rfl

/-- A refire is postponed by its delay just when the delay leads to an instant of the calendar. When
it does not, the refire is lost, or it is due at once if the delay cannot be added to any instant;
only at the very end of the calendar is that late enough. -/
theorem refire_postponed_iff (s : Scheduler η ν) (fire : PendingFire) (trigger : Option Trigger)
    (outcome : FireOutcome) (delay : Duration) (now : Instant) (hstored : s.contains fire.key)
    (hdelay : outcome.delay? = some delay) :
    ((∃ s', s.afterFire fire trigger outcome now = some s' ∧ s.Postponed s' fire delay now) ↔
        (now.shift? delay.nanos).isSome ∨ ¬delay.isOffset ∧ now = .last) ∧
      (s.afterFire fire trigger outcome now = none ↔
        delay.isOffset ∧ now.shift? delay.nanos = none) ∧
      (¬delay.isOffset → s.afterFire fire trigger outcome now =
        some (s.enqueue now { fire with refireCount := fire.refireCount + 1 })) := by
  refine ⟨?_, ?_, afterFire_of_not_isOffset hstored hdelay⟩
  · cases hshift : now.shift? delay.nanos with
    | some due =>
      have hdue : now.plus delay ≤ due :=
        Instant.plus_of_shift hshift ▸ Int.le_refl (now.plus delay).nanos
      exact iff_of_true ⟨_, afterFire_of_shift hstored hdelay hshift,
        postponed_enqueue_iff.mpr hdue⟩ (.inl rfl)
    | none =>
      by_cases hoffset : delay.isOffset
      · rw [afterFire_of_not_shift hstored hdelay hoffset hshift]
        simp [hoffset]
      · rw [afterFire_of_not_isOffset hstored hdelay hoffset]
        simp only [Option.some.injEq, exists_eq_left', postponed_enqueue_iff,
          Instant.plus_of_not_shift hshift, Option.isSome_none, Bool.false_eq_true, false_or,
          hoffset, not_false_eq_true, true_and]
        constructor
        · exact fun hlast => Instant.ext_nanos (Int.le_antisymm now.le_max hlast)
        · rintro rfl
          exact Int.le_refl Instant.last.nanos
  · cases hshift : now.shift? delay.nanos with
    | some due => simp [afterFire_of_shift hstored hdelay hshift]
    | none =>
      by_cases hoffset : delay.isOffset
      · simp [afterFire_of_not_shift hstored hdelay hoffset hshift, hoffset]
      · simp [afterFire_of_not_isOffset hstored hdelay hoffset, hoffset]

def oneJob : Scheduler Unit Unit :=
  { registry := [("report", ())]
    jobs :=
      [(⟨"daily"⟩, { definition := { key := ⟨"daily"⟩, kind := "report" }, trigger := none })] }

def attempted : PendingFire :=
  { key := ⟨"daily"⟩, refireCount := 0, triggerData := Dict.empty, scheduledFor := .epoch
    origin := .trigger }

def configuredDelay (millis : Nat) : Duration :=
  (HarnessConfig.retryPolicy { refireDelay := .ofMillis millis }).backoff.delayFor 1

def busyFor (millis : Nat) : FireOutcome :=
  .dispatched (.error
    { key := ⟨"daily"⟩, attempt := 0, aftermath := .refire (configuredDelay millis)
      cause := .conflict "busy" })

theorem one_second_postponed : ∃ s', oneJob.afterFire attempted none (busyFor 1000) .epoch =
    some s' ∧ oneJob.Postponed s' attempted (configuredDelay 1000) .epoch :=
  (refire_postponed_iff oneJob attempted none (busyFor 1000) (configuredDelay 1000) .epoch rfl
    rfl).1.mpr (.inl rfl)

/-- Among the delays that can be configured there is one with which a refire is lost, and one with
which it is due at once. -/
theorem postponement_fails :
    oneJob.contains attempted.key ∧
      oneJob.afterFire attempted none (busyFor 10000000000000000) .epoch = none ∧
      ∃ s', oneJob.afterFire attempted none (busyFor 18446744073709551615) .epoch = some s' ∧
        s'.nextDue = some .epoch ∧
        ¬oneJob.Postponed s' attempted (configuredDelay 18446744073709551615) .epoch := by
  have hlong : ¬(configuredDelay 18446744073709551615).isOffset := by decide
  have hshift := Duration.shift_of_not_isOffset hlong .epoch
  refine ⟨rfl, by decide, _, afterFire_of_not_isOffset rfl rfl hlong, rfl, ?_⟩
  rw [postponed_enqueue_iff, Instant.plus_of_not_shift hshift]
  decide

end Scheduler

end JobEngine
