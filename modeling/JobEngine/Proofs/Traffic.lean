import JobEngine.Proofs.Answer
import JobEngine.Proofs.Intact
/-! Every way in which a scheduler can be used. Workers take fires and follow them up, and between
these two anyone may store jobs, queue fires and delete jobs, in any order and at any time of the
clock. A history is kept beside the scheduler: what was taken and when, how it ended, which keys
were deleted, and to which logical fire each number in the queue belongs. -/

namespace JobEngine

structure Departure (ν : Type) where
  number : Nat
  taken : TakenFire ν
  time : Instant

/-- A scheduler and its history. A logical fire is known by the number with which it was queued at
first; a refire gets a number of its own, but belongs to the line of the fire that it follows. -/
structure Traffic (η ν : Type) where
  scheduler : Scheduler η ν
  lineOf : Nat → Nat := id
  departures : List (Departure ν) := []
  /-- How fires ended and when that was evaluated, by their numbers. -/
  landings : Assoc Nat (FireOutcome × Instant) := []
  /-- The keys that were deleted, with the last number that had been given then. -/
  removals : List (JobKey × Nat) := []

/-- How a fire that was taken can end. -/
inductive Ending (harness : Harness σ) (registry : Registry η) (taken : TakenFire ν) :
    FireOutcome → Prop where
  | noHandler (unknown : registry.resolve taken.job.definition.kind = none) :
      Ending harness registry taken .noHandler
  | vetoed : Ending harness registry taken .vetoed
  | ran (job : Job σ) (fire : FireContext) (host : Host σ)
      (hattempt : fire.refireCount = taken.fire.refireCount) :
      Ending harness registry taken (.dispatched (harness.run job fire host).1)

namespace Traffic

variable {σ η ν : Type}

def refires (t : Traffic η ν) (taken : TakenFire ν) (outcome : FireOutcome) (now : Instant) :
    Bool :=
  t.scheduler.contains taken.fire.key &&
    match Scheduler.nextFire taken.fire taken.job.trigger outcome now with
    | .refire _ => true
    | _ => false

def assign (lineOf : Nat → Nat) (number line : Nat) : Nat → Nat := fun n =>
  if n = number then line else lineOf n

def land (t : Traffic η ν) (d : Departure ν) (outcome : FireOutcome) (now : Instant) :
    Traffic η ν :=
  { t with
    scheduler :=
      (t.scheduler.afterFire d.taken.fire d.taken.job.trigger outcome now).getD t.scheduler
    lineOf :=
      if t.refires d.taken outcome now then
        assign t.lineOf (t.scheduler.seq + 1) (t.lineOf d.number)
      else t.lineOf
    landings := (d.number, outcome, now) :: t.landings }

/-- One step of anyone who uses the scheduler. -/
inductive Step (harness : Harness σ) : Traffic η ν → Traffic η ν → Prop where
  | scheduleJob {t s} (definition : JobDefinition) (trigger : Trigger)
      (h : t.scheduler.scheduleJob definition trigger = .ok s) :
      Step harness t { t with scheduler := s }
  | addJob {t s} (definition : JobDefinition) (replace : Bool)
      (h : t.scheduler.addJob definition replace = .ok s) : Step harness t { t with scheduler := s }
  | triggerNow {t s} (key : JobKey) (data : TriggerData) (now : Instant)
      (h : t.scheduler.triggerNow key data now = .ok s) : Step harness t { t with scheduler := s }
  | addMatcher {t s} (name : String) (key : JobKey)
      (h : t.scheduler.addMatcher name key = .ok s) : Step harness t { t with scheduler := s }
  | addListener {t} (name : String) (listener : ν) :
      Step harness t { t with scheduler := t.scheduler.addListener name listener }
  | deleteJob {t} (key : JobKey) :
      Step harness t
        { t with
          scheduler := (t.scheduler.deleteJob key).2
          removals := (key, t.scheduler.seq) :: t.removals }
  | depart {t q taken s} (now : Instant) (hnext : t.scheduler.queue.head? = some q)
      (h : t.scheduler.take now = (some taken, s)) :
      Step harness t
        { t with
          scheduler := s
          departures := t.departures ++ [{ number := q.seq, taken, time := now }] }
  | skip {t s} (now : Instant) (h : t.scheduler.take now = (none, s)) :
      Step harness t { t with scheduler := s }
  | land {t d} (outcome : FireOutcome) (now : Instant) (hd : d ∈ t.departures)
      (hopen : t.landings.get? d.number = none)
      (hending : Ending harness t.scheduler.registry d.taken outcome) :
      Step harness t (t.land d outcome now)

inductive Reachable (harness : Harness σ) : Traffic η ν → Prop where
  | start (registry : Registry η) (listeners : Assoc String ν)
      (matchers : Assoc String (List JobKey)) :
      Reachable harness { scheduler := { registry, listeners, matchers } }
  | next {t t'} : Reachable harness t → Step harness t t' → Reachable harness t'

/-- What holds of all traffic. -/
structure Orderly (t : Traffic η ν) : Prop where
  numbered : (t.scheduler.queue.map (·.seq)).Nodup
  given : ∀ q ∈ t.scheduler.queue, q.seq ≤ t.scheduler.seq
  stored : ∀ q ∈ t.scheduler.queue, t.scheduler.contains q.fire.key
  handled : ∀ key job, t.scheduler.jobs.get? key = some job →
    t.scheduler.hasHandler job.definition.kind
  gone : ∀ d ∈ t.departures, d.number ≤ t.scheduler.seq ∧
    (∀ q ∈ t.scheduler.queue, q.seq ≠ d.number) ∧ t.scheduler.hasHandler d.taken.job.definition.kind
  once : ∀ d ∈ t.departures, ∀ d' ∈ t.departures, d.number = d'.number → d = d'
  landed : ∀ n, t.landings.get? n ≠ none → ∃ d ∈ t.departures, d.number = n
  fresh : ∀ n, t.scheduler.seq < n → t.lineOf n = n
  line_le : ∀ n, t.lineOf n ≤ n

/-! The steps come down to storing a job, queueing a fire, removing fires, and writing history. -/

def enqueue (t : Traffic η ν) (line : Nat) (due : Instant) (fire : PendingFire) : Traffic η ν :=
  { t with
    scheduler := t.scheduler.enqueue due fire
    lineOf := assign t.lineOf (t.scheduler.seq + 1) line }

def record (t : Traffic η ν) (n : Nat) (outcome : FireOutcome) (now : Instant) : Traffic η ν :=
  { t with landings := (n, outcome, now) :: t.landings }

def store (t : Traffic η ν) (key : JobKey) (job : StoredJob) : Traffic η ν :=
  { t with scheduler := t.scheduler.store key job }

def withQueue (t : Traffic η ν) (queue : List QueuedFire) : Traffic η ν :=
  { t with scheduler := { t.scheduler with queue } }

def depart (t : Traffic η ν) (d : Departure ν) : Traffic η ν :=
  { t with departures := t.departures ++ [d] }

section

variable {t : Traffic η ν} {d : Departure ν} {outcome : FireOutcome} {now : Instant}

@[simp] theorem assign_self (lineOf : Nat → Nat) (n line : Nat) : assign lineOf n line n = line :=
  if_pos rfl

theorem assign_of_ne (lineOf : Nat → Nat) {n k : Nat} (line : Nat) (h : k ≠ n) :
    assign lineOf n line k = lineOf k := if_neg h

private theorem assign_eq (lineOf : Nat → Nat) {n line : Nat} (h : lineOf n = line) :
    assign lineOf n line = lineOf := by
  funext k
  by_cases hk : k = n
  · simp [hk, h]
  · exact assign_of_ne lineOf line hk

theorem enqueue_own (h : ∀ n, t.scheduler.seq < n → t.lineOf n = n) (due : Instant)
    (fire : PendingFire) :
    t.enqueue (t.scheduler.seq + 1) due fire =
      { t with scheduler := t.scheduler.enqueue due fire } := by
  unfold enqueue
  rw [assign_eq t.lineOf (h _ (Nat.lt_succ_self _))]

theorem refires_iff : t.refires d.taken outcome now ↔ t.scheduler.contains d.taken.fire.key ∧
    ∃ due, Scheduler.nextFire d.taken.fire d.taken.job.trigger outcome now = .refire due := by
  unfold refires
  rw [Bool.and_eq_true]
  refine and_congr_right fun _ => ?_
  cases Scheduler.nextFire d.taken.fire d.taken.job.trigger outcome now <;> simp

/-- Following up a fire writes down how it ended and queues a refire in its line, or the next slot
in a line of its own, or nothing. -/
theorem Orderly.land_cases (h : Orderly t) (d : Departure ν) (outcome : FireOutcome)
    (now : Instant) :
    t.land d outcome now = t.record d.number outcome now ∧
        ¬t.refires d.taken outcome now ∧ (t.scheduler.contains d.taken.fire.key = false ∨
          ∀ slot, Scheduler.nextFire d.taken.fire d.taken.job.trigger outcome now ≠ .slot slot) ∨
      t.scheduler.contains d.taken.fire.key ∧
        ((∃ due, Scheduler.nextFire d.taken.fire d.taken.job.trigger outcome now = .refire due ∧
            t.land d outcome now = (t.record d.number outcome now).enqueue (t.lineOf d.number) due
              { d.taken.fire with refireCount := d.taken.fire.refireCount + 1 }) ∨
          ¬t.refires d.taken outcome now ∧ ∃ slot,
            Scheduler.nextFire d.taken.fire d.taken.job.trigger outcome now = .slot slot ∧
            t.land d outcome now =
              (t.record d.number outcome now).enqueue (t.scheduler.seq + 1) slot
                (Scheduler.slotFire d.taken.fire d.taken.job.trigger slot)) := by
  obtain ⟨hsame, hno⟩ | ⟨hcontains, ⟨due, hnext, hafter⟩ | ⟨slot, hnext, hafter⟩⟩ :=
    t.scheduler.afterFire_cases d.taken.fire d.taken.job.trigger outcome now
  · have hrefires : ¬t.refires d.taken outcome now := by
      rw [refires_iff]
      rintro ⟨hcontains, due, hdue⟩
      obtain hmissing | hother := hno
      · rw [hmissing] at hcontains
        cases hcontains
      · exact hother.1 due hdue
    exact .inl ⟨by simp [land, record, hsame, hrefires], hrefires, hno.imp_right And.right⟩
  · have hrefires : t.refires d.taken outcome now := refires_iff.mpr ⟨hcontains, due, hnext⟩
    exact .inr ⟨hcontains, .inl ⟨due, hnext, by simp [land, record, enqueue, hafter, hrefires]⟩⟩
  · have hrefires : ¬t.refires d.taken outcome now := by
      rw [refires_iff]
      rintro ⟨-, due, hdue⟩
      rw [hnext] at hdue
      cases hdue
    have hown := enqueue_own (t := t.record d.number outcome now) h.fresh slot
      (Scheduler.slotFire d.taken.fire d.taken.job.trigger slot)
    refine .inr ⟨hcontains, .inr ⟨hrefires, slot, hnext, Eq.trans ?_ hown.symm⟩⟩
    simp [land, record, hafter, hrefires]

namespace Orderly

theorem listening (h : Orderly t) (listeners : Assoc String ν)
    (matchers : Assoc String (List JobKey)) :
    Orderly { t with scheduler := { t.scheduler with listeners, matchers } } :=
  ⟨h.numbered, h.given, h.stored, h.handled, h.gone, h.once, h.landed, h.fresh, h.line_le⟩

theorem stocked (h : Orderly t) : t.scheduler.Stocked := ⟨h.stored, h.handled⟩

theorem store (h : Orderly t) {key : JobKey} {job : StoredJob}
    (hhandler : t.scheduler.hasHandler job.definition.kind) : Orderly (t.store key job) :=
  have hstocked := h.stocked.store hhandler
  { h with stored := hstocked.stored, handled := hstocked.handled }

theorem enqueue (h : Orderly t) {line : Nat} (hline : line ≤ t.scheduler.seq + 1) {due : Instant}
    {fire : PendingFire} (hstored : t.scheduler.contains fire.key) :
    Orderly (t.enqueue line due fire) where
  numbered := by
    have hnew : ∀ q ∈ t.scheduler.queue, q.seq ≠ t.scheduler.seq + 1 := fun q hq heq => by
      have hgiven := h.given q hq
      omega
    refine (((Scheduler.place_perm _ _).map (·.seq)).nodup_iff).mpr ?_
    refine List.nodup_cons.mpr ⟨?_, h.numbered⟩
    simpa using hnew
  given q hq := by
    rcases Scheduler.mem_enqueue.mp hq with rfl | hq
    · exact Nat.le_refl _
    · exact Nat.le_succ_of_le (h.given q hq)
  stored := (h.stocked.enqueue hstored).stored
  handled := h.handled
  gone d hd := by
    obtain ⟨hnumber, hnone, hhandler⟩ := h.gone d hd
    refine ⟨Nat.le_succ_of_le hnumber, fun q hq => ?_, hhandler⟩
    rcases Scheduler.mem_enqueue.mp hq with rfl | hq
    · exact fun heq => absurd hnumber (Nat.not_le.mpr (heq ▸ Nat.lt_succ_self _))
    · exact hnone q hq
  once := h.once
  landed := h.landed
  fresh n hn := by
    change t.scheduler.seq + 1 < n at hn
    change assign t.lineOf (t.scheduler.seq + 1) line n = n
    rw [assign_of_ne _ _ (Nat.ne_of_gt hn), h.fresh n (Nat.lt_of_succ_lt hn)]
  line_le n := by
    change assign t.lineOf (t.scheduler.seq + 1) line n ≤ n
    by_cases hn : n = t.scheduler.seq + 1
    · rw [hn, assign_self]
      exact hline
    · rw [assign_of_ne _ _ hn]
      exact h.line_le n

theorem record (h : Orderly t) (hd : d ∈ t.departures) :
    Orderly (t.record d.number outcome now) where
  numbered := h.numbered
  given := h.given
  stored := h.stored
  handled := h.handled
  gone := h.gone
  once := h.once
  landed n hn := by
    by_cases hsame : d.number = n
    · exact ⟨d, hd, hsame⟩
    · refine h.landed n ?_
      simpa [Traffic.record, Assoc.get?, hsame] using hn
  fresh := h.fresh
  line_le := h.line_le

theorem withQueue (h : Orderly t) {queue : List QueuedFire}
    (hsub : queue.Sublist t.scheduler.queue) : Orderly (t.withQueue queue) where
  numbered := h.numbered.sublist (hsub.map _)
  given q hq := h.given q (hsub.subset hq)
  stored := (h.stocked.drop hsub).stored
  handled := h.handled
  gone d hd :=
    have hgone := h.gone d hd
    ⟨hgone.1, fun q hq => hgone.2.1 q (hsub.subset hq), hgone.2.2⟩
  once := h.once
  landed := h.landed
  fresh := h.fresh
  line_le := h.line_le

theorem depart (h : Orderly t) (hnumber : d.number ≤ t.scheduler.seq)
    (hnone : ∀ q ∈ t.scheduler.queue, q.seq ≠ d.number)
    (hnew : ∀ d' ∈ t.departures, d'.number ≠ d.number)
    (hhandler : t.scheduler.hasHandler d.taken.job.definition.kind) : Orderly (t.depart d) where
  numbered := h.numbered
  given := h.given
  stored := h.stored
  handled := h.handled
  gone d' hd' := by
    rcases List.mem_append.mp hd' with hd' | hd'
    · exact h.gone d' hd'
    · rw [List.mem_singleton.mp hd']
      exact ⟨hnumber, hnone, hhandler⟩
  once a ha b hb hab := by
    rcases List.mem_append.mp ha with ha | ha <;> rcases List.mem_append.mp hb with hb | hb
    · exact h.once a ha b hb hab
    · rw [List.mem_singleton.mp hb] at hab
      exact absurd hab (hnew a ha)
    · rw [List.mem_singleton.mp ha] at hab
      exact absurd hab.symm (hnew b hb)
    · rw [List.mem_singleton.mp ha, List.mem_singleton.mp hb]
  landed n hn := by
    obtain ⟨d', hd', hnumber⟩ := h.landed n hn
    exact ⟨d', List.mem_append_left _ hd', hnumber⟩
  fresh := h.fresh
  line_le := h.line_le

end Orderly

theorem Orderly.open_of_mem (h : Orderly t) {q : QueuedFire} (hq : q ∈ t.scheduler.queue) :
    t.landings.get? q.seq = none := by
  refine Classical.byContradiction fun hlanded => ?_
  obtain ⟨d, hd, hnumber⟩ := h.landed _ hlanded
  exact (h.gone d hd).2.1 q hq hnumber.symm

theorem Orderly.take_none (h : Orderly t) {now : Instant} {s : Scheduler η ν}
    (ht : t.scheduler.take now = (none, s)) : s = t.scheduler := by
  obtain hsame | ⟨q, rest, hqueue, hmissing, -⟩ := Scheduler.take_none ht
  · exact hsame
  · have hstored := h.stored q (hqueue ▸ List.mem_cons_self)
    rw [hmissing] at hstored
    cases hstored

def delete (t : Traffic η ν) (key : JobKey) : Traffic η ν :=
  { t with
    scheduler := (t.scheduler.deleteJob key).2
    removals := (key, t.scheduler.seq) :: t.removals }

/-- What a step amounts to when the traffic is orderly. -/
inductive Effect (harness : Harness σ) (t : Traffic η ν) : Traffic η ν → Prop where
  | idle : Effect harness t t
  | listened (listeners : Assoc String ν) (matchers : Assoc String (List JobKey)) :
      Effect harness t { t with scheduler := { t.scheduler with listeners, matchers } }
  | stored {definition : JobDefinition} (hhandler : t.scheduler.hasHandler definition.kind) :
      Effect harness t (t.store definition.key
        { definition, trigger := t.scheduler.triggerOf definition.key })
  | queued {due fire} (hstored : t.scheduler.contains fire.key) (hfirst : fire.refireCount = 0)
      (hmanual : fire.origin = .manual) :
      Effect harness t (t.enqueue (t.scheduler.seq + 1) due fire)
  | scheduled {definition : JobDefinition} {trigger : Trigger}
      (hhandler : t.scheduler.hasHandler definition.kind)
      (hnew : t.scheduler.contains definition.key = false) :
      Effect harness t ((t.store definition.key { definition, trigger := some trigger }).enqueue
        (t.scheduler.seq + 1) trigger.schedule.firstFire
        (Scheduler.firstFire definition.key trigger))
  | deleted (key : JobKey) : Effect harness t (t.delete key)
  | departed {q : QueuedFire} {rest : List QueuedFire} {job : StoredJob}
      {listeners : Assoc String ν} {now : Instant} (hqueue : t.scheduler.queue = q :: rest)
      (hdue : q.due ≤ now) (hjob : t.scheduler.jobs.get? q.fire.key = some job) :
      Effect harness t ((t.withQueue rest).depart
        { number := q.seq, taken := { fire := q.fire, job, listeners }, time := now })
  | landed {d : Departure ν} {outcome : FireOutcome} {now : Instant} (hd : d ∈ t.departures)
      (hopen : t.landings.get? d.number = none)
      (hending : Ending harness t.scheduler.registry d.taken outcome) :
      Effect harness t (t.land d outcome now)

theorem Step.effect {harness : Harness σ} {t' : Traffic η ν} (h : Step harness t t')
    (ho : Orderly t) : Effect harness t t' := by
  cases h with
  | scheduleJob definition trigger h =>
    obtain ⟨hhandler, hnew, rfl⟩ := Scheduler.scheduleJob_ok h
    have hstore : Orderly (t.store definition.key ⟨definition, some trigger⟩) := ho.store hhandler
    have hown := enqueue_own hstore.fresh trigger.schedule.firstFire
      (Scheduler.firstFire definition.key trigger)
    exact hown ▸ .scheduled hhandler hnew
  | addJob definition replace h =>
    obtain ⟨hhandler, rfl⟩ := Scheduler.addJob_ok h
    exact .stored hhandler
  | triggerNow key data now h =>
    obtain ⟨hcontains, rfl⟩ := Scheduler.triggerNow_ok h
    exact enqueue_own ho.fresh _ _ ▸ .queued hcontains rfl rfl
  | addMatcher name key h =>
    obtain ⟨matchers, rfl⟩ := Scheduler.addMatcher_ok h
    exact .listened t.scheduler.listeners matchers
  | addListener name listener => exact .listened _ t.scheduler.matchers
  | deleteJob key => exact .deleted key
  | depart now hnext h =>
    obtain ⟨q, rest, job, hqueue, hdue, hjob, rfl, rfl⟩ := Scheduler.take_some h
    rw [hqueue, List.head?_cons] at hnext
    cases hnext
    exact .departed hqueue hdue hjob
  | skip now h =>
    obtain rfl := ho.take_none h
    exact .idle
  | land outcome now hd hopen hending => exact .landed hd hopen hending

theorem Orderly.delete (h : Orderly t) (key : JobKey) : Orderly (t.delete key) where
  numbered := h.numbered.sublist (List.filter_sublist.map _)
  given q hq := h.given q ((List.mem_filter.mp hq).1)
  stored := (h.stocked.delete key).stored
  handled := (h.stocked.delete key).handled
  gone d hd :=
    have hgone := h.gone d hd
    ⟨hgone.1, fun q hq => hgone.2.1 q ((List.mem_filter.mp hq).1), hgone.2.2⟩
  once := h.once
  landed := h.landed
  fresh := h.fresh
  line_le := h.line_le

theorem Orderly.land (h : Orderly t) (hd : d ∈ t.departures) (outcome : FireOutcome)
    (now : Instant) : Orderly (t.land d outcome now) := by
  have hrecord : Orderly (t.record d.number outcome now) := h.record hd
  obtain ⟨heq, -⟩ | ⟨hcontains, ⟨due, -, heq⟩ | ⟨-, slot, -, heq⟩⟩ := h.land_cases d outcome now
  · exact heq ▸ hrecord
  · have hline : t.lineOf d.number ≤ t.scheduler.seq + 1 :=
      Nat.le_succ_of_le (Nat.le_trans (h.line_le _) (h.gone d hd).1)
    exact heq ▸ hrecord.enqueue hline hcontains
  · exact heq ▸ hrecord.enqueue (Nat.le_refl _) hcontains

theorem Effect.orderly {harness : Harness σ} {t' : Traffic η ν} (h : Effect harness t t')
    (ho : Orderly t) : Orderly t' := by
  cases h with
  | idle => exact ho
  | listened listeners matchers => exact ho.listening listeners matchers
  | stored hhandler => exact ho.store hhandler
  | queued hstored hfirst hmanual => exact ho.enqueue (Nat.le_refl _) hstored
  | @scheduled definition trigger hhandler hnew =>
    have hstore : Orderly (t.store definition.key ⟨definition, some trigger⟩) := ho.store hhandler
    exact hstore.enqueue (Nat.le_refl _) (Scheduler.contains_store.mpr (.inl rfl))
  | deleted key => exact ho.delete key
  | departed hqueue hdue hjob =>
    have hnumbered := ho.numbered
    rw [hqueue, List.map_cons, List.nodup_cons] at hnumbered
    have hq := hqueue ▸ List.mem_cons_self
    refine (ho.withQueue (hqueue ▸ List.sublist_cons_self _ _)).depart (ho.given _ hq) ?_ ?_
      (ho.handled _ _ hjob)
    · exact fun q' hq' heq => hnumbered.1 (List.mem_map.mpr ⟨q', hq', heq⟩)
    · exact fun d' hd' heq => (ho.gone d' hd').2.1 _ hq heq.symm
  | landed hd hopen hending => exact ho.land hd _ _

theorem Reachable.orderly {harness : Harness σ} (h : Reachable harness t) : Orderly t := by
  induction h with
  | start registry listeners matchers =>
    exact
      { numbered := .nil, given := by simp, stored := by simp, handled := by simp, gone := by simp
        once := by simp, landed := fun _ h => absurd rfl h, fresh := fun _ _ => rfl
        line_le := Nat.le_refl }
  | next _ step ih => exact (step.effect ih).orderly ih

end

end Traffic

end JobEngine
