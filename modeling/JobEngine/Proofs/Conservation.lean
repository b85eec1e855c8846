import JobEngine.Proofs.Backlog
import JobEngine.Proofs.Transcript
import Mathlib.Algebra.Order.Group.Multiset
import Mathlib.Tactic.Abel
/-! Where the fires are. Whatever is done with a scheduler, each fire that was ever queued waits, or
was dropped with its job, or was taken; and fires are taken in the order in which they are due. -/

namespace JobEngine

variable {σ η ν : Type}

def QueuedFire.Prompt (q : QueuedFire) : Prop := q.fire.scheduledFor ≤ q.due

namespace Scheduler

def beyond (queue other : List QueuedFire) : List QueuedFire :=
  queue.filter fun q => !other.any (·.seq == q.seq)

section

variable {q : QueuedFire} {queue other : List QueuedFire}

theorem beyond_of_subset (h : ∀ q ∈ queue, q ∈ other) : beyond queue other = [] := by
  refine List.filter_eq_nil_iff.mpr fun q hq => ?_
  have hany : other.any (·.seq == q.seq) := List.any_eq_true.mpr ⟨q, h q hq, beq_self_eq_true _⟩
  simp [hany]

private theorem beyond_cons (h : ∀ a ∈ queue, a.seq ≠ q.seq) : beyond (q :: queue) queue = [q] := by
  have hnew : queue.any (·.seq == q.seq) = false := by simpa using h
  have hrest : beyond queue queue = [] := beyond_of_subset fun _ => id
  unfold beyond at hrest ⊢
  rw [List.filter_cons_of_pos (by simp [hnew]), hrest]

@[simp] private theorem beyond_tail (distinct : ((q :: queue).map (·.seq)).Nodup) :
    beyond (q :: queue) queue = [q] := by
  rw [List.map_cons, List.nodup_cons] at distinct
  exact beyond_cons fun a ha heq => distinct.1 (List.mem_map.mpr ⟨a, ha, heq⟩)

private theorem beyond_place (h : ∀ a ∈ queue, a.seq ≠ q.seq) :
    beyond (place q queue) queue = [q] := by
  have hperm : (beyond (place q queue) queue).Perm (beyond (q :: queue) queue) :=
    (place_perm q queue).filter _
  rw [beyond_cons h] at hperm
  exact List.perm_singleton.mp hperm

private theorem beyond_filter (distinct : (queue.map (·.seq)).Nodup) (p : QueuedFire → Bool) :
    beyond queue (queue.filter p) = queue.filter (!p ·) := by
  refine List.filter_congr fun q hq => congrArg _ ?_
  refine Bool.eq_iff_iff.mpr ?_
  rw [List.any_eq_true]
  constructor
  · rintro ⟨a, ha, hseq⟩
    obtain ⟨ha, hp⟩ := List.mem_filter.mp ha
    rwa [List.inj_on_of_nodup_map distinct ha hq (eq_of_beq hseq)] at hp
  · exact fun hp => ⟨q, List.mem_filter.mpr ⟨hq, hp⟩, beq_self_eq_true _⟩

end

end Scheduler

open Scheduler (beyond place)

namespace Traffic

inductive Cause (ν : Type) where
  | call
  | deletion (key : JobKey)
  | pop (d : Departure ν)
  | followUp (d : Departure ν) (now : Instant)

def Cause.removes : Cause ν → Bool
  | .call | .followUp .. => false
  | .deletion _ | .pop _ => true

/-- A step of traffic and what it is about. -/
inductive Move (harness : Harness σ) : Traffic η ν → Cause ν → Traffic η ν → Prop where
  | call {t u} (step : Step harness t u) (departures : u.departures = t.departures)
      (landings : u.landings = t.landings) (removals : u.removals = t.removals) :
      Move harness t .call u
  | deletion {t} (key : JobKey) : Move harness t (.deletion key) (t.delete key)
  | pop {t q taken s} (now : Instant) (hnext : t.scheduler.queue.head? = some q)
      (h : t.scheduler.take now = (some taken, s)) :
      Move harness t (.pop { number := q.seq, taken, time := now })
        { t with
          scheduler := s
          departures := t.departures ++ [{ number := q.seq, taken, time := now }] }
  | followUp {t d} (outcome : FireOutcome) (now : Instant) (hd : d ∈ t.departures)
      (hopen : t.landings.get? d.number = none)
      (hending : Ending harness t.scheduler.registry d.taken outcome) :
      Move harness t (.followUp d now) (t.land d outcome now)

/-- What a step did to the queue: the fires that came into it and those that are gone from it. -/
structure Event (ν : Type) where
  cause : Cause ν
  queued : List QueuedFire
  gone : List QueuedFire

inductive Logged (harness : Harness σ) (t : Traffic η ν) : Event ν → Traffic η ν → Prop where
  | of {cause : Cause ν} {u : Traffic η ν} (move : Move harness t cause u) :
      Logged harness t
        { cause
          queued := beyond u.scheduler.queue t.scheduler.queue
          gone := beyond t.scheduler.queue u.scheduler.queue } u

namespace Event

def popped (event : Event ν) : List QueuedFire :=
  match event.cause with
  | .pop _ => event.gone
  | _ => []

def dropped (event : Event ν) : List QueuedFire :=
  match event.cause with
  | .deletion _ => event.gone
  | _ => []

/-- No fire is followed up before the time at which it was taken, as far as this step goes. -/
def Onward (event : Event ν) : Prop :=
  match event.cause with
  | .followUp d now => d.time ≤ now
  | _ => True

end Event

section

variable {harness : Harness σ} {t u v : Traffic η ν} {event : Event ν} {events : List (Event ν)}

theorem Move.step {cause : Cause ν} (move : Move harness t cause u) : Step harness t u := by
  cases move with
  | call step => exact step
  | deletion key => exact .deleteJob key
  | pop now hnext h => exact .depart now hnext h
  | followUp outcome now hd hopen hending => exact .land outcome now hd hopen hending

theorem Step.move (step : Step harness t u) : ∃ cause, Move harness t cause u := by
  cases step with
  | scheduleJob definition trigger h => exact ⟨_, .call (.scheduleJob _ _ h) rfl rfl rfl⟩
  | addJob definition replace h => exact ⟨_, .call (.addJob _ _ h) rfl rfl rfl⟩
  | triggerNow key data now h => exact ⟨_, .call (.triggerNow _ _ _ h) rfl rfl rfl⟩
  | addMatcher name key h => exact ⟨_, .call (.addMatcher _ _ h) rfl rfl rfl⟩
  | addListener name listener => exact ⟨_, .call (.addListener _ _) rfl rfl rfl⟩
  | skip now h => exact ⟨_, .call (.skip _ h) rfl rfl rfl⟩
  | deleteJob key => exact ⟨_, .deletion key⟩
  | depart now hnext h => exact ⟨_, .pop now hnext h⟩
  | land outcome now hd hopen hending => exact ⟨_, .followUp outcome now hd hopen hending⟩

/-- What can happen to a queue. -/
inductive Flow (t u : Traffic η ν) : Event ν → Prop where
  | still {cause : Cause ν} (keeps : cause.removes = false)
      (departures : u.departures = t.departures)
      (queue : u.scheduler.queue = t.scheduler.queue) (seq : u.scheduler.seq = t.scheduler.seq) :
      Flow t u { cause, queued := [], gone := [] }
  | queued {cause : Cause ν} {q : QueuedFire} (keeps : cause.removes = false)
      (departures : u.departures = t.departures)
      (queue : u.scheduler.queue = place q t.scheduler.queue)
      (number : q.seq = t.scheduler.seq + 1) (seq : u.scheduler.seq = t.scheduler.seq + 1)
      (prompt : q.Prompt ∨ ∃ d ∈ t.departures, ∃ now, cause = .followUp d now ∧
        q.fire.scheduledFor = d.taken.fire.scheduledFor ∧ now ≤ q.due) :
      Flow t u { cause, queued := [q], gone := [] }
  | dropped (key : JobKey) (departures : u.departures = t.departures)
      (queue : u.scheduler.queue = t.scheduler.queue.filter fun q => q.fire.key ≠ key)
      (seq : u.scheduler.seq = t.scheduler.seq) :
      Flow t u
        { cause := .deletion key
          queued := []
          gone := t.scheduler.queue.filter fun q => q.fire.key = key }
  | popped {d : Departure ν} {q : QueuedFire} (departures : u.departures = t.departures ++ [d])
      (queue : t.scheduler.queue = q :: u.scheduler.queue)
      (first : ∀ other ∈ u.scheduler.queue, q.before other) (due : q.due ≤ d.time)
      (number : d.number = q.seq) (fire : d.taken.fire = q.fire)
      (seq : u.scheduler.seq = t.scheduler.seq) :
      Flow t u { cause := .pop d, queued := [], gone := [q] }

/-- What a call of the scheduler does to its queue. -/
theorem Step.called (ho : Orderly t) (step : Step harness t u)
    (departures : u.departures = t.departures) (landings : u.landings = t.landings)
    (removals : u.removals = t.removals) :
    u.scheduler.queue = t.scheduler.queue ∧ u.scheduler.seq = t.scheduler.seq ∨
      ∃ q : QueuedFire, u.scheduler.queue = place q t.scheduler.queue ∧
        q.seq = t.scheduler.seq + 1 ∧ u.scheduler.seq = t.scheduler.seq + 1 ∧ q.Prompt := by
  cases step with
  | scheduleJob definition trigger h =>
    obtain ⟨-, -, rfl⟩ := Scheduler.scheduleJob_ok h
    exact .inr ⟨_, rfl, rfl, rfl, Int.le_refl _⟩
  | addJob definition replace h =>
    obtain ⟨-, rfl⟩ := Scheduler.addJob_ok h
    exact .inl ⟨rfl, rfl⟩
  | triggerNow key data now h =>
    obtain ⟨-, rfl⟩ := Scheduler.triggerNow_ok h
    exact .inr ⟨_, rfl, rfl, rfl, Int.le_refl _⟩
  | addMatcher name key h =>
    obtain ⟨matchers, rfl⟩ := Scheduler.addMatcher_ok h
    exact .inl ⟨rfl, rfl⟩
  | addListener name listener => exact .inl ⟨rfl, rfl⟩
  | skip now h =>
    obtain rfl := ho.take_none h
    exact .inl ⟨rfl, rfl⟩
  | deleteJob key => exact absurd removals (List.cons_ne_self _ _)
  | depart now hnext h =>
    exact absurd (congrArg List.length departures) (by simp)
  | land outcome now hd hopen hending => exact absurd landings (List.cons_ne_self _ _)

/-- What follows a fire is due at the slot for which it is scheduled or, if it is a refire, not
before it was queued. -/
theorem land_queue (d : Departure ν) (outcome : FireOutcome) (now : Instant) :
    let u := t.land d outcome now
    u.scheduler.queue = t.scheduler.queue ∧ u.scheduler.seq = t.scheduler.seq ∨
      ∃ q : QueuedFire, u.scheduler.queue = place q t.scheduler.queue ∧
        q.seq = t.scheduler.seq + 1 ∧ u.scheduler.seq = t.scheduler.seq + 1 ∧
        (q.Prompt ∨ q.fire.scheduledFor = d.taken.fire.scheduledFor ∧ now ≤ q.due) := by
  intro u
  have hscheduler : u.scheduler = (t.scheduler.afterFire d.taken.fire d.taken.job.trigger outcome
    now).getD t.scheduler := rfl
  rw [hscheduler]
  obtain ⟨hsame, -⟩ | ⟨-, ⟨due, hnext, hafter⟩ | ⟨slot, -, hafter⟩⟩ :=
    t.scheduler.afterFire_cases d.taken.fire d.taken.job.trigger outcome now
  · rw [hsame]
    exact .inl ⟨rfl, rfl⟩
  · rw [hafter]
    obtain ⟨delay, hdelay⟩ := Scheduler.delay_of_refire hnext
    refine .inr ⟨_, rfl, rfl, rfl, .inr ⟨rfl, ?_⟩⟩
    rw [Scheduler.nextFire_of_delay hdelay] at hnext
    split at hnext
    next due' hshift =>
      cases hnext
      have hnanos := Instant.ofNanos?_eq_some_iff.mp hshift
      change now.nanos ≤ due.nanos
      rw [hnanos]
      split <;> omega
    · cases hnext
  · rw [hafter]
    exact .inr ⟨_, rfl, rfl, rfl, .inl (Int.le_refl _)⟩

theorem Flow.of_call (ho : Orderly t) {cause : Cause ν} (keeps : cause.removes = false)
    (departures : u.departures = t.departures)
    (h : u.scheduler.queue = t.scheduler.queue ∧ u.scheduler.seq = t.scheduler.seq ∨
      ∃ q : QueuedFire, u.scheduler.queue = place q t.scheduler.queue ∧
        q.seq = t.scheduler.seq + 1 ∧ u.scheduler.seq = t.scheduler.seq + 1 ∧
        (q.Prompt ∨ ∃ d ∈ t.departures, ∃ now, cause = .followUp d now ∧
          q.fire.scheduledFor = d.taken.fire.scheduledFor ∧ now ≤ q.due)) :
    Flow t u
      { cause
        queued := beyond u.scheduler.queue t.scheduler.queue
        gone := beyond t.scheduler.queue u.scheduler.queue } := by
  obtain ⟨hqueue, hseq⟩ | ⟨q, hqueue, hnumber, hseq, hprompt⟩ := h
  · have hnothing : beyond t.scheduler.queue t.scheduler.queue = [] :=
      Scheduler.beyond_of_subset fun _ => id
    rw [hqueue, hnothing]
    exact .still keeps departures hqueue hseq
  · have hnew : ∀ a ∈ t.scheduler.queue, a.seq ≠ q.seq := fun a ha heq => by
      have hgiven := ho.given a ha
      omega
    have hgone : beyond t.scheduler.queue (place q t.scheduler.queue) = [] :=
      Scheduler.beyond_of_subset fun a ha => Scheduler.mem_place.mpr (.inr ha)
    rw [hqueue, Scheduler.beyond_place hnew, hgone]
    exact .queued keeps departures hqueue hnumber hseq hprompt

theorem Move.flow (ht : Reachable harness t) {cause : Cause ν} (move : Move harness t cause u) :
    Flow t u
      { cause
        queued := beyond u.scheduler.queue t.scheduler.queue
        gone := beyond t.scheduler.queue u.scheduler.queue } := by
  have ho := ht.orderly
  cases move with
  | call step departures landings removals =>
    refine .of_call ho rfl departures ?_
    obtain hsame | ⟨q, hqueue, hnumber, hseq, hprompt⟩ :=
      step.called ho departures landings removals
    · exact .inl hsame
    · exact .inr ⟨q, hqueue, hnumber, hseq, .inl hprompt⟩
  | @followUp d outcome now hd hopen hending =>
    refine .of_call ho rfl rfl ?_
    obtain hsame | ⟨q, hqueue, hnumber, hseq, hprompt⟩ := land_queue d outcome now
    · exact .inl hsame
    · exact .inr ⟨q, hqueue, hnumber, hseq, hprompt.imp id fun hlate => ⟨d, hd, now, rfl, hlate⟩⟩
  | deletion key =>
    have hqueue : (t.delete key).scheduler.queue =
        t.scheduler.queue.filter fun q => q.fire.key ≠ key := rfl
    have hgone : beyond t.scheduler.queue (t.delete key).scheduler.queue =
        t.scheduler.queue.filter fun q => q.fire.key = key := by
      rw [hqueue, Scheduler.beyond_filter ho.numbered]
      exact List.filter_congr fun q _ => by simp
    rw [hgone, hqueue, Scheduler.beyond_of_subset fun q hq => (List.mem_filter.mp hq).1]
    exact .dropped key rfl hqueue rfl
  | @pop q taken s now hnext h =>
    obtain ⟨q', rest, job, hqueue, hdue, -, rfl, rfl⟩ := Scheduler.take_some h
    rw [hqueue, List.head?_cons] at hnext
    cases hnext
    have hordered := ht.intact.ordered
    have hnumbered := ho.numbered
    rw [hqueue] at hordered hnumbered
    simp only [hqueue]
    rw [Scheduler.beyond_tail hnumbered,
      Scheduler.beyond_of_subset fun a ha => List.mem_cons_of_mem q ha]
    exact .popped rfl hqueue (List.pairwise_cons.mp hordered).1 hdue rfl rfl rfl

theorem Logged.flow (ht : Reachable harness t) (logged : Logged harness t event u) :
    Flow t u event := by
  cases logged with
  | of move => exact move.flow ht

theorem Logged.reachable (ht : Reachable harness t) (logged : Logged harness t event u) :
    Reachable harness u := by
  cases logged with
  | of move => exact ht.next move.step

/-! What comes of one step and of a whole run. -/

theorem Event.removed_of_keeps (event : Event ν) (keeps : event.cause.removes = false) :
    event.popped = [] ∧ event.dropped = [] := by
  unfold Event.popped Event.dropped
  cases hcause : event.cause with
  | call => exact ⟨rfl, rfl⟩
  | followUp => exact ⟨rfl, rfl⟩
  | deletion | pop =>
    rw [hcause] at keeps
    cases keeps

/-- What was waiting or has been queued waits still, or was taken or dropped. -/
theorem Flow.balance (flow : Flow t u event) : (t.scheduler.queue ++ event.queued).Perm
    (u.scheduler.queue ++ (event.popped ++ event.dropped)) := by
  cases flow with
  | @still cause keeps departures queue seq =>
    obtain ⟨hpopped, hdropped⟩ := Event.removed_of_keeps ⟨cause, [], []⟩ keeps
    rw [hpopped, hdropped, queue]
    exact .refl _
  | @queued cause q keeps departures queue number seq prompt =>
    obtain ⟨hpopped, hdropped⟩ := Event.removed_of_keeps ⟨cause, [q], []⟩ keeps
    rw [hpopped, hdropped, queue, List.append_nil, List.append_nil]
    exact (List.perm_append_singleton q _).trans (Scheduler.place_perm q _).symm
  | dropped key departures queue seq =>
    rw [queue, List.append_nil]
    refine ((List.filter_append_perm (fun q => q.fire.key ≠ key) _).symm.trans ?_)
    exact .of_eq (congrArg _ (List.filter_congr fun q _ => by simp))
  | popped departures queue first due number fire seq =>
    rw [queue, List.append_nil]
    exact (List.perm_append_singleton _ _).symm

theorem Flow.numbers (flow : Flow t u event) : t.scheduler.seq ≤ u.scheduler.seq ∧
    event.queued.map (·.seq) =
      List.range' (t.scheduler.seq + 1) (u.scheduler.seq - t.scheduler.seq) := by
  cases flow with
  | still keeps departures queue seq => simp [seq]
  | queued keeps departures queue number seq prompt => simp [seq, number]
  | dropped key departures queue seq => simp [seq]
  | popped departures queue first due number fire seq => simp [seq]

theorem Flow.departed (flow : Flow t u event) :
    u.departures.map (fun d => (d.number, d.taken.fire)) =
      t.departures.map (fun d => (d.number, d.taken.fire)) ++
        event.popped.map fun q => (q.seq, q.fire) := by
  cases flow with
  | @still cause keeps departures queue seq =>
    rw [departures, (Event.removed_of_keeps ⟨cause, [], []⟩ keeps).1]
    exact (List.append_nil _).symm
  | @queued cause q keeps departures queue number seq prompt =>
    rw [departures, (Event.removed_of_keeps ⟨cause, [q], []⟩ keeps).1]
    exact (List.append_nil _).symm
  | dropped key departures queue seq =>
    rw [departures]
    exact (List.append_nil _).symm
  | popped departures queue first due number fire seq =>
    rw [departures, List.map_append, List.map_singleton, number, fire]
    rfl

theorem Flow.waited (flow : Flow t u event) :
    ∀ q ∈ u.scheduler.queue, q ∈ t.scheduler.queue ∨ t.scheduler.seq < q.seq := by
  cases flow with
  | still keeps departures queue seq => exact fun q hq => .inl (queue ▸ hq)
  | queued keeps departures queue number seq prompt =>
    intro q hq
    rw [queue, Scheduler.mem_place] at hq
    obtain rfl | hq := hq
    · exact .inr (number ▸ Nat.lt_succ_self _)
    · exact .inl hq
  | dropped key departures queue seq =>
    exact fun q hq => .inl (List.mem_filter.mp (queue ▸ hq)).1
  | popped departures queue first due number fire seq =>
    exact fun q hq => .inl (queue ▸ List.mem_cons_of_mem _ hq)

theorem Flow.first (ho : Orderly t) (flow : Flow t u event) : event.popped = [] ∨
    ∃ q, event.popped = [q] ∧ q ∈ t.scheduler.queue ∧ q.seq ≤ u.scheduler.seq ∧
      ∀ other ∈ u.scheduler.queue, q.before other := by
  cases flow with
  | @still cause keeps departures queue seq =>
    exact .inl (Event.removed_of_keeps ⟨cause, [], []⟩ keeps).1
  | @queued cause q keeps departures queue number seq prompt =>
    exact .inl (Event.removed_of_keeps ⟨cause, [q], []⟩ keeps).1
  | dropped key departures queue seq => exact .inl rfl
  | @popped d q departures queue first due number fire seq =>
    have hq : q ∈ t.scheduler.queue := queue ▸ List.mem_cons_self
    exact .inr ⟨q, rfl, hq, seq ▸ ho.given q hq, first⟩

structure Timely (t : Traffic η ν) : Prop where
  waiting : ∀ q ∈ t.scheduler.queue, q.Prompt
  departed : ∀ d ∈ t.departures, d.taken.fire.scheduledFor ≤ d.time

theorem Flow.timely (onward : event.Onward) (timely : Timely t) (flow : Flow t u event) :
    Timely u := by
  cases flow with
  | still keeps departures queue seq =>
    exact ⟨queue ▸ timely.waiting, departures ▸ timely.departed⟩
  | @queued cause q keeps departures queue number seq prompt =>
    refine ⟨fun a ha => ?_, departures ▸ timely.departed⟩
    rw [queue, Scheduler.mem_place] at ha
    obtain rfl | ha := ha
    · obtain hprompt | ⟨d, hd, now, rfl, hsame, hlate⟩ := prompt
      · exact hprompt
      · unfold QueuedFire.Prompt
        rw [hsame]
        exact Int.le_trans (timely.departed d hd) (Int.le_trans onward hlate)
    · exact timely.waiting a ha
  | dropped key departures queue seq =>
    refine ⟨fun a ha => timely.waiting a ?_, departures ▸ timely.departed⟩
    exact (List.mem_filter.mp (queue ▸ ha)).1
  | @popped d q departures queue first due number fire seq =>
    refine ⟨fun a ha => timely.waiting a (queue ▸ List.mem_cons_of_mem _ ha), fun a ha => ?_⟩
    rw [departures, List.mem_append, List.mem_singleton] at ha
    obtain ha | rfl := ha
    · exact timely.departed a ha
    · rw [fire]
      exact Int.le_trans (timely.waiting q (queue ▸ List.mem_cons_self)) due

abbrev Log (harness : Harness σ) : Traffic η ν → List (Event ν) → Traffic η ν → Prop :=
  Transcript (Logged harness)

section

variable (ht : Reachable harness t) (log : Log harness t events u)

include ht log

theorem Log.reachable : Reachable harness u := log.kept (fun first => first.reachable) ht

theorem Log.balance : (t.scheduler.queue ++ events.flatMap (·.queued)).Perm
    (u.scheduler.queue ++ (events.flatMap (·.popped) ++ events.flatMap (·.dropped))) := by
  induction log with
  | here t => simp
  | @step t v u event events first rest ih =>
    have hfirst := (first.flow ht).balance
    have hrest := ih (first.reachable ht)
    rw [← Multiset.coe_eq_coe] at hfirst hrest ⊢
    simp only [← Multiset.coe_add, List.flatMap_cons] at hfirst hrest ⊢
    rw [← add_assoc, hfirst, add_right_comm, hrest]
    abel

theorem Log.numbers : t.scheduler.seq ≤ u.scheduler.seq ∧
    (events.flatMap (·.queued)).map (·.seq) =
      List.range' (t.scheduler.seq + 1) (u.scheduler.seq - t.scheduler.seq) := by
  induction log with
  | here t => simp
  | @step t v u event events first rest ih =>
    obtain ⟨hle, hfirst⟩ := (first.flow ht).numbers
    obtain ⟨hle', hrest⟩ := ih (first.reachable ht)
    refine ⟨Nat.le_trans hle hle', ?_⟩
    have hstart : v.scheduler.seq + 1 =
        t.scheduler.seq + 1 + (v.scheduler.seq - t.scheduler.seq) := by omega
    have hcount : v.scheduler.seq - t.scheduler.seq + (u.scheduler.seq - v.scheduler.seq) =
        u.scheduler.seq - t.scheduler.seq := by omega
    rw [List.flatMap_cons, List.map_append, hfirst, hrest, hstart, List.range'_append_1, hcount]

theorem Log.departed : u.departures.map (fun d => (d.number, d.taken.fire)) =
    t.departures.map (fun d => (d.number, d.taken.fire)) ++
      (events.flatMap (·.popped)).map fun q => (q.seq, q.fire) := by
  induction log with
  | here t => exact (List.append_nil _).symm
  | step first rest ih =>
    rw [ih (first.reachable ht), (first.flow ht).departed, List.flatMap_cons, List.map_append,
      List.append_assoc]

theorem Log.awaited : ∀ q ∈ events.flatMap (·.popped),
    q ∈ t.scheduler.queue ∨ t.scheduler.seq < q.seq := by
  induction log with
  | here t => simp
  | step first rest ih =>
    have hflow := first.flow ht
    intro q hq
    rw [List.flatMap_cons, List.mem_append] at hq
    obtain hq | hq := hq
    · obtain hnone | ⟨a, hpopped, ha, -, -⟩ := hflow.first ht.orderly
      · rw [hnone] at hq
        cases hq
      · rw [hpopped, List.mem_singleton] at hq
        exact .inl (hq ▸ ha)
    · obtain hwaiting | hnew := ih (first.reachable ht) q hq
      · exact hflow.waited q hwaiting
      · exact .inr (Nat.lt_of_le_of_lt hflow.numbers.1 hnew)

theorem Log.inTurn :
    (events.flatMap (·.popped)).Pairwise fun a b => a.due = b.due → a.seq < b.seq := by
  induction log with
  | here t => exact .nil
  | step first rest ih =>
    rw [List.flatMap_cons, List.pairwise_append]
    obtain hnone | ⟨q, hpopped, -, hgiven, hfirst⟩ := (first.flow ht).first ht.orderly
    · rw [hnone]
      exact ⟨.nil, ih (first.reachable ht), by simp⟩
    · rw [hpopped]
      refine ⟨List.pairwise_singleton _ q, ih (first.reachable ht), ?_⟩
      simp only [List.mem_singleton, forall_eq]
      intro b hb hdue
      obtain hwaiting | hnew := Log.awaited (first.reachable ht) rest b hb
      · have hbefore := QueuedFire.before_iff.mp (hfirst b hwaiting)
        rw [hdue] at hbefore
        omega
      · exact Nat.lt_of_le_of_lt hgiven hnew

theorem Log.timely (onward : ∀ event ∈ events, event.Onward) (timely : Timely t) : Timely u := by
  induction log with
  | here t => exact timely
  | step first rest ih =>
    obtain ⟨hfirst, hrest⟩ := List.forall_mem_cons.mp onward
    exact ih (first.reachable ht) hrest ((first.flow ht).timely hfirst timely)

end

/-- Where the fires of a run are, and how they came there. -/
structure Conserved (harness : Harness σ) (start : Traffic η ν) (events : List (Event ν))
    (t : Traffic η ν) : Prop where
  numbered : (events.flatMap (·.queued)).map (·.seq) = List.range' 1 t.scheduler.seq
  balanced : (events.flatMap (·.queued)).Perm
    (t.scheduler.queue ++ (events.flatMap (·.popped) ++ events.flatMap (·.dropped)))
  apart : ((t.scheduler.queue ++
    (events.flatMap (·.popped) ++ events.flatMap (·.dropped))).map (·.seq)).Nodup
  departed : t.departures.map (fun d => (d.number, d.taken.fire)) =
    (events.flatMap (·.popped)).map fun q => (q.seq, q.fire)
  first : ∀ before d queued gone after, events = before ++ ⟨.pop d, queued, gone⟩ :: after →
    ∃ s u q, Log harness start before s ∧ Logged harness s ⟨.pop d, queued, gone⟩ u ∧
      Log harness u after t ∧ s.scheduler.queue = q :: u.scheduler.queue ∧ gone = [q] ∧
      (∀ other ∈ u.scheduler.queue, q.before other) ∧ q.due ≤ d.time ∧ d.taken.fire = q.fire
  inTurn : (events.flatMap (·.popped)).Pairwise fun a b => a.due = b.due → a.seq < b.seq
  timely : (∀ event ∈ events, event.Onward) →
    ∀ d ∈ t.departures, d.taken.fire.scheduledFor ≤ d.time
  deleted : ∀ before key queued gone after,
    events = before ++ ⟨.deletion key, queued, gone⟩ :: after →
    ∃ s u, Log harness start before s ∧ Logged harness s ⟨.deletion key, queued, gone⟩ u ∧
      Log harness u after t ∧ gone = (s.scheduler.queue.filter fun q => q.fire.key = key) ∧
      u.scheduler.queue = s.scheduler.queue.filter fun q => q.fire.key ≠ key

theorem conserved {registry : Registry η} {listeners : Assoc String ν}
    {matchers : Assoc String (List JobKey)}
    (log : Log harness { scheduler := { registry, listeners, matchers } } events t) :
    Conserved harness { scheduler := { registry, listeners, matchers } } events t := by
  have ht : Reachable harness { scheduler := { registry, listeners, matchers } } :=
    .start registry listeners matchers
  have hnumbers : (events.flatMap (·.queued)).map (·.seq) = List.range' 1 t.scheduler.seq :=
    (log.numbers ht).2
  have hbalance := log.balance ht
  refine ⟨hnumbers, hbalance, ?_, log.departed ht, ?_, log.inTurn ht, ?_, ?_⟩
  · refine ((hbalance.map (·.seq)).nodup_iff).mp ?_
    change ((events.flatMap (·.queued)).map (·.seq)).Nodup
    rw [hnumbers]
    exact List.nodup_range'
  · rintro before d queued gone after rfl
    obtain ⟨s, u, hbefore, logged, hafter⟩ := log.at_event
    cases logged.flow (Log.reachable ht hbefore) with
    | still keeps => cases keeps
    | queued keeps => cases keeps
    | popped departures queue first due number fire seq =>
      exact ⟨s, u, _, hbefore, logged, hafter, queue, rfl, first, due, fire⟩
  · exact fun onward => (log.timely ht onward ⟨by simp, by simp⟩).departed
  · rintro before key queued gone after rfl
    obtain ⟨s, u, hbefore, logged, hafter⟩ := log.at_event
    cases logged.flow (Log.reachable ht hbefore) with
    | still keeps => cases keeps
    | queued keeps => cases keeps
    | dropped key departures queue seq => exact ⟨s, u, hbefore, logged, hafter, rfl, queue⟩

end

section

variable {harness : Harness σ} {t u : Traffic η ν} {events : List (Event ν)} {now : Instant}
variable {d : Departure ν}

theorem Orderly.beyond_take_none (ho : Orderly t) (h : (t.scheduler.take now).1 = none) :
    beyond t.scheduler.queue (t.scheduler.take now).2.queue = [] := by
  have hsame : (t.scheduler.take now).2 = t.scheduler := ho.take_none (Prod.ext h rfl)
  rw [hsame]
  exact Scheduler.beyond_of_subset fun _ => id

theorem Orderly.beyond_take (ho : Orderly t) (leaves : Engine.Leaves t now d) :
    ∃ q ∈ t.scheduler.queue, beyond t.scheduler.queue (t.scheduler.take now).2.queue = [q] ∧
      q.seq = d.number ∧ q.fire = d.taken.fire := by
  obtain ⟨q, rest, job, hqueue, -, -, htaken, hrest⟩ :=
    Scheduler.take_some (Prod.ext leaves.taken rfl : t.scheduler.take now = (some d.taken, _))
  have hnumber := leaves.number
  have hnumbered := ho.numbered
  rw [hqueue] at hnumber hnumbered
  refine ⟨q, hqueue ▸ List.mem_cons_self, ?_, Option.some.inj hnumber, by rw [htaken]⟩
  have hleft : (t.scheduler.take now).2.queue = rest := congrArg Scheduler.queue hrest
  rw [hleft, hqueue]
  exact Scheduler.beyond_tail hnumbered

theorem Log.popped_none (ht : Reachable harness t) (log : Log harness t events u)
    (h : u.departures = t.departures) : events.flatMap (·.popped) = [] := by
  have hdeparted := log.departed ht
  rw [h, List.self_eq_append_right] at hdeparted
  exact List.map_eq_nil_iff.mp hdeparted

theorem Log.popped_one (ht : Reachable harness t) (log : Log harness t events u)
    (leaves : Engine.Leaves t now d) (h : u.departures = t.departures ++ [d]) :
    events.flatMap (·.popped) = beyond t.scheduler.queue (t.scheduler.take now).2.queue := by
  have ho := ht.orderly
  obtain ⟨q, hq, hbeyond, hnumber, -⟩ := ho.beyond_take leaves
  have hdeparted := log.departed ht
  rw [h, List.map_append, List.append_cancel_left_eq] at hdeparted
  obtain ⟨a, hpopped, ha⟩ := List.map_eq_singleton_iff.mp hdeparted.symm
  have hsame : a.seq = q.seq := (congrArg Prod.fst ha).trans hnumber.symm
  have hwaiting : a ∈ t.scheduler.queue := by
    refine (log.awaited ht a (hpopped ▸ List.mem_singleton_self a)).resolve_right fun hnew => ?_
    have hgiven := ho.given q hq
    omega
  rw [hpopped, hbeyond, List.inj_on_of_nodup_map ho.numbered hwaiting hq hsame]

end

theorem Leads.logged {harness : Harness σ} {t u : Traffic η ν} (leads : Leads harness t u) :
    ∃ events, Log harness t events u := by
  induction leads with
  | here => exact ⟨[], .here t⟩
  | next _ step ih =>
    obtain ⟨events, hevents⟩ := ih
    obtain ⟨cause, hmove⟩ := step.move
    exact ⟨_, hevents.append (.step (.of hmove) (.here _))⟩

end Traffic

end JobEngine
