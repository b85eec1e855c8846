import JobEngine.Scheduler.Basic
/-! What the steps of a scheduler do to its queue and its jobs. Each step is taken apart once, into
what it requires and what it leaves behind. -/

namespace JobEngine

namespace Assoc

variable {α : Type u} {β : Type v} [DecidableEq α] (m : Assoc α β)

@[simp] theorem get?_put (a k : α) (b : β) :
    get? (put m a b) k = if a = k then some b else get? m k := by
  split
  next h => rw [h, get?_put_self]
  next h => exact get?_put_of_ne m b h

@[simp] theorem get?_erase (a k : α) : get? (erase m a) k = if a = k then none else get? m k := by
  split
  next h => rw [h, get?_erase_self]
  next h => exact get?_erase_of_ne m h

theorem has_put (a k : α) (b : β) : has (put m a b) k ↔ a = k ∨ has m k := by
  unfold has
  by_cases h : a = k <;> simp [h]

theorem has_erase (a k : α) : has (erase m a) k ↔ a ≠ k ∧ has m k := by
  unfold has
  by_cases h : a = k <;> simp [h]

end Assoc

theorem Duration.isOffset_of_shift {now due : Instant} {delay : Duration}
    (h : now.shift? delay.nanos = some due) : delay.isOffset :=
  isOffset_of_le (Int.le_of_eq (Instant.ofNanos?_eq_some_iff.mp h).symm)

def FireOutcome.delay? : FireOutcome → Option Duration
  | .dispatched (.error e) => e.refireDelay
  | _ => none

namespace Scheduler

variable {η ν : Type} {s s' : Scheduler η ν} {q : QueuedFire} {waiting : List QueuedFire}

theorem place_perm (q : QueuedFire) (waiting : List QueuedFire) :
    (place q waiting).Perm (q :: waiting) := by
  induction waiting with
  | nil => exact .refl _
  | cons a rest ih =>
    unfold place
    split
    · exact .refl _
    · exact (ih.cons a).trans (.swap q a rest)

theorem mem_place {a : QueuedFire} : a ∈ place q waiting ↔ a = q ∨ a ∈ waiting := by
  rw [(place_perm q waiting).mem_iff, List.mem_cons]

@[simp] theorem mem_enqueue {due : Instant} {fire : PendingFire} :
    q ∈ (s.enqueue due fire).queue ↔ q = { due, seq := s.seq + 1, fire } ∨ q ∈ s.queue := mem_place

def store (s : Scheduler η ν) (key : JobKey) (job : StoredJob) : Scheduler η ν :=
  { s with jobs := s.jobs.put key job }

def triggerOf (s : Scheduler η ν) (key : JobKey) : Option Trigger :=
  (s.jobs.get? key).bind (·.trigger)

section

variable {key k : JobKey} {job : StoredJob}

@[simp] theorem jobs_store :
    (s.store key job).jobs.get? k = if key = k then some job else s.jobs.get? k :=
  s.jobs.get?_put key k job

@[simp] theorem jobs_deleteJob :
    (s.deleteJob key).2.jobs.get? k = if key = k then none else s.jobs.get? k :=
  s.jobs.get?_erase key k

theorem contains_store : (s.store key job).contains k ↔ key = k ∨ s.contains k :=
  s.jobs.has_put key k job

theorem contains_deleteJob : (s.deleteJob key).2.contains k ↔ key ≠ k ∧ s.contains k :=
  s.jobs.has_erase key k

@[simp] theorem triggerOf_store :
    (s.store key job).triggerOf k = if key = k then job.trigger else s.triggerOf k := by
  unfold triggerOf
  rw [jobs_store]
  split <;> rfl

@[simp] theorem triggerOf_deleteJob :
    (s.deleteJob key).2.triggerOf k = if key = k then none else s.triggerOf k := by
  unfold triggerOf
  rw [jobs_deleteJob]
  split <;> rfl

theorem triggerOf_of_not_contains (h : s.contains key = false) : s.triggerOf key = none := by
  unfold triggerOf
  cases hjob : s.jobs.get? key with
  | none => rfl
  | some job => simp [contains, Assoc.has, hjob] at h

end

theorem scheduleJob_ok {definition : JobDefinition} {trigger : Trigger}
    (h : s.scheduleJob definition trigger = .ok s') :
    s.hasHandler definition.kind ∧ s.contains definition.key = false ∧
      s' = (s.store definition.key { definition, trigger := some trigger }).enqueue
        trigger.schedule.firstFire (firstFire definition.key trigger) := by
  unfold scheduleJob at h
  split at h
  · cases h
  next hhandler =>
    split at h
    · cases h
    next hcontains =>
      cases h
      exact ⟨by simpa using hhandler, by simpa using hcontains, rfl⟩

theorem addJob_ok {definition : JobDefinition} {replace : Bool}
    (h : s.addJob definition replace = .ok s') :
    s.hasHandler definition.kind ∧
      s' = s.store definition.key { definition, trigger := s.triggerOf definition.key } := by
  unfold addJob at h
  split at h
  · cases h
  next hhandler =>
    refine ⟨by simpa using hhandler, ?_⟩
    unfold triggerOf
    split at h
    next hnew =>
      cases h
      rw [hnew]
      rfl
    next old hold =>
      split at h
      · cases h
        rw [hold]
        rfl
      · cases h

theorem triggerNow_ok {key : JobKey} {data : TriggerData} {now : Instant}
    (h : s.triggerNow key data now = .ok s') :
    s.contains key ∧ s' = s.enqueue now
      { key, refireCount := 0, triggerData := data, scheduledFor := now, origin := .manual } := by
  unfold triggerNow at h
  split at h
  next hcontains =>
    cases h
    exact ⟨hcontains, rfl⟩
  · cases h

theorem addMatcher_ok {name : String} {key : JobKey} (h : s.addMatcher name key = .ok s') :
    ∃ matchers, s' = { s with matchers } := by
  unfold addMatcher at h
  split at h
  · cases h
    exact ⟨_, rfl⟩
  · cases h

theorem take_some {now : Instant} {taken : TakenFire ν} (h : s.take now = (some taken, s')) :
    ∃ q rest job, s.queue = q :: rest ∧ q.due ≤ now ∧ s.jobs.get? q.fire.key = some job ∧
      taken = { fire := q.fire, job, listeners := s.listenersFor q.fire.key } ∧
      s' = { s with queue := rest } := by
  unfold take at h
  split at h
  · cases h
  next q rest hqueue =>
    split at h
    · cases h
    next hdue =>
      simp only [Prod.mk.injEq, Option.map_eq_some_iff] at h
      obtain ⟨⟨job, hjob, rfl⟩, rfl⟩ := h
      exact ⟨q, rest, job, hqueue, Int.not_lt.mp hdue, hjob, rfl, rfl⟩

theorem take_due {rest : List QueuedFire} {job : StoredJob} {now : Instant}
    (hqueue : s.queue = q :: rest) (hdue : q.due ≤ now) (hjob : s.jobs.get? q.fire.key = some job) :
    s.take now = (some { fire := q.fire, job, listeners := s.listenersFor q.fire.key },
      { s with queue := rest }) := by
  have hnot : ¬now < q.due := Int.not_lt.mpr hdue
  unfold take
  simp only [hqueue, hnot, hjob, ↓reduceIte, Option.map_some]

theorem take_none {now : Instant} (h : s.take now = (none, s')) :
    s' = s ∨ ∃ q rest, s.queue = q :: rest ∧ s.contains q.fire.key = false ∧
      s' = { s with queue := rest } := by
  unfold take at h
  split at h
  · cases h
    exact .inl rfl
  next q rest hqueue =>
    split at h
    · cases h
      exact .inl rfl
    next hdue =>
      simp only [Prod.mk.injEq, Option.map_eq_none_iff] at h
      obtain ⟨hjob, rfl⟩ := h
      exact .inr ⟨q, rest, hqueue, by simp [contains, Assoc.has, hjob], rfl⟩

def slotFire (fire : PendingFire) (trigger : Option Trigger) (slot : Instant) : PendingFire :=
  { fire with
    refireCount := 0, triggerData := (trigger.map (·.data)).getD Dict.empty
    scheduledFor := slot, origin := .trigger }

section

variable {fire : PendingFire} {trigger : Option Trigger} {outcome : FireOutcome} {now : Instant}

theorem nextFire_of_delay {delay : Duration} (h : outcome.delay? = some delay) :
    nextFire fire trigger outcome now =
      match now.shift? (if delay.isOffset then delay.nanos else 0) with
      | some due => .refire due
      | none => .beyondCalendar := by
  match outcome, h with
  | .dispatched (.error { aftermath := .refire _, .. }), h =>
    cases h
    rfl

theorem nextSlot_cases (fire : PendingFire) (trigger : Option Trigger) (now : Instant) :
    nextSlot fire trigger now = .nothing ∨ ∃ slot, nextSlot fire trigger now = .slot slot := by
  unfold nextSlot
  split
  · split
    · exact .inr ⟨_, rfl⟩
    · exact .inl rfl
  · exact .inl rfl

theorem nextFire_of_no_delay (h : outcome.delay? = none) :
    nextFire fire trigger outcome now = .nothing ∨
      ∃ slot, nextFire fire trigger outcome now = .slot slot :=
  match outcome, h with
  | .vetoed, _ => .inl rfl
  | .noHandler, _ => nextSlot_cases fire trigger now
  | .dispatched (.ok ()), _ => nextSlot_cases fire trigger now
  | .dispatched (.error { aftermath := .exhausted, .. }), _ => nextSlot_cases fire trigger now
  | .dispatched (.error { aftermath := .fatal, .. }), _ => nextSlot_cases fire trigger now

theorem delay_of_refire {due : Instant} (h : nextFire fire trigger outcome now = .refire due) :
    ∃ delay, outcome.delay? = some delay := by
  cases hdelay : outcome.delay? with
  | some delay => exact ⟨delay, rfl⟩
  | none =>
    have hother : nextFire fire trigger outcome now = .nothing ∨
        ∃ slot, nextFire fire trigger outcome now = .slot slot := nextFire_of_no_delay hdelay
    rw [h] at hother
    obtain hnothing | ⟨slot, hslot⟩ := hother
    · cases hnothing
    · cases hslot

private theorem nextFire_of_passed (hdelay : outcome.delay? = none) (hpassed : outcome ≠ .vetoed) :
    nextFire fire trigger outcome now = nextSlot fire trigger now :=
  match outcome, hdelay with
  | .vetoed, _ => absurd rfl hpassed
  | .noHandler, _ => rfl
  | .dispatched (.ok ()), _ => rfl
  | .dispatched (.error { aftermath := .exhausted, .. }), _ => rfl
  | .dispatched (.error { aftermath := .fatal, .. }), _ => rfl

theorem nextSlot_eq_slot {slot : Instant} (h : nextSlot fire trigger now = .slot slot) :
    fire.origin = .trigger ∧ ∃ T, trigger = some T ∧
      T.schedule.nextFireAfter fire.scheduledFor now = some slot := by
  unfold nextSlot at h
  split at h
  next T horigin =>
    split at h
    next next hnext =>
      cases h
      exact ⟨horigin, T, rfl, hnext⟩
    · cases h
  · cases h

theorem nextFire_eq_slot {slot : Instant} (h : nextFire fire trigger outcome now = .slot slot) :
    outcome.delay? = none ∧ outcome ≠ .vetoed ∧ nextSlot fire trigger now = .slot slot := by
  have hpassed : outcome ≠ .vetoed := by
    rintro rfl
    cases h
  cases hdelay : outcome.delay? with
  | none => exact ⟨rfl, hpassed, nextFire_of_passed hdelay hpassed ▸ h⟩
  | some delay =>
    rw [nextFire_of_delay hdelay] at h
    split at h <;> cases h

theorem nextFire_eq_nothing {T : Trigger} (horigin : fire.origin = .trigger)
    (h : nextFire fire (some T) outcome now = .nothing) : outcome = .vetoed ∨
      outcome.delay? = none ∧ T.schedule.nextFireAfter fire.scheduledFor now = none := by
  cases hdelay : outcome.delay? with
  | some delay =>
    rw [nextFire_of_delay hdelay] at h
    split at h <;> cases h
  | none =>
    refine Classical.or_iff_not_imp_left.mpr fun hpassed => ⟨rfl, ?_⟩
    rw [nextFire_of_passed hdelay hpassed] at h
    simp only [nextSlot, horigin] at h
    split at h
    · cases h
    next hnone => exact hnone

theorem afterFire_of_delay {delay : Duration} (hstored : s.contains fire.key)
    (hdelay : outcome.delay? = some delay) :
    s.afterFire fire trigger outcome now =
      (now.shift? (if delay.isOffset then delay.nanos else 0)).map fun due =>
        s.enqueue due { fire with refireCount := fire.refireCount + 1 } := by
  unfold afterFire
  rw [if_pos hstored, nextFire_of_delay hdelay]
  cases now.shift? (if delay.isOffset then delay.nanos else 0) <;> rfl

@[simp] theorem afterFire_vetoed (s : Scheduler η ν) (fire : PendingFire) (trigger : Option Trigger)
    (now : Instant) : s.afterFire fire trigger .vetoed now = some s := by
  unfold afterFire
  split <;> rfl

theorem afterFire_isSome (s : Scheduler η ν) (fire : PendingFire) (trigger : Option Trigger)
    (now : Instant) (hdelay : outcome.delay? = none) :
    (s.afterFire fire trigger outcome now).isSome := by
  unfold afterFire
  split
  · have hnext : nextFire fire trigger outcome now = .nothing ∨
        ∃ slot, nextFire fire trigger outcome now = .slot slot := nextFire_of_no_delay hdelay
    obtain hnext | ⟨slot, hnext⟩ := hnext <;> rw [hnext] <;> rfl
  · rfl

theorem afterFire_cases (s : Scheduler η ν) (fire : PendingFire) (trigger : Option Trigger)
    (outcome : FireOutcome) (now : Instant) :
    (s.afterFire fire trigger outcome now).getD s = s ∧
        (s.contains fire.key = false ∨ (∀ due, nextFire fire trigger outcome now ≠ .refire due) ∧
          ∀ slot, nextFire fire trigger outcome now ≠ .slot slot) ∨
      s.contains fire.key ∧
        ((∃ due, nextFire fire trigger outcome now = .refire due ∧
            (s.afterFire fire trigger outcome now).getD s =
              s.enqueue due { fire with refireCount := fire.refireCount + 1 }) ∨
          ∃ slot, nextFire fire trigger outcome now = .slot slot ∧
            (s.afterFire fire trigger outcome now).getD s =
              s.enqueue slot (slotFire fire trigger slot)) := by
  unfold afterFire
  split
  next hcontains =>
    cases hnext : nextFire fire trigger outcome now with
    | nothing =>
      exact .inl ⟨rfl, .inr ⟨fun _ => NextFire.noConfusion, fun _ => NextFire.noConfusion⟩⟩
    | refire due => exact .inr ⟨hcontains, .inl ⟨due, rfl, rfl⟩⟩
    | slot slot => exact .inr ⟨hcontains, .inr ⟨slot, rfl, rfl⟩⟩
    | beyondCalendar =>
      exact .inl ⟨rfl, .inr ⟨fun _ => NextFire.noConfusion, fun _ => NextFire.noConfusion⟩⟩
  next hcontains => exact .inl ⟨rfl, .inl (by simpa using hcontains)⟩

end

end Scheduler

end JobEngine
