import JobEngine.Proofs.RefireChain
import JobEngine.Proofs.Slots
import JobEngine.Proofs.TriggerFires
/-! A repeating trigger makes one stream of fires, slot after slot. The next one is queued when the
one before it has ended for good, for the first slot that is still to come. Fires that are asked for
by hand leave the stream alone. -/

namespace JobEngine

variable {σ η ν : Type}

open Schedule (IsSlot IsNextSlot slotNumber)
open Scheduler (Successor)

/-- A fire of the repeating trigger of a key, for one of its slots. -/
structure OnStream (key : JobKey) (interval : Duration) (startAt : Instant) (data : TriggerData)
    (fire : PendingFire) : Prop where
  key : fire.key = key
  origin : fire.origin = .trigger
  data : fire.triggerData = data
  slot : fire.scheduledFor.nanos =
    startAt.nanos + slotNumber interval startAt fire.scheduledFor * interval.nanos

/-- How the stream goes on after a fire: with another attempt for the same slot when a refire was
asked for, and with the next slot otherwise. -/
inductive Turn (interval : Duration) (startAt : Instant) (fire : PendingFire)
    (outcome : FireOutcome) (now : Instant) (next : PendingFire) : Prop where
  | again {delay : Duration} (hdelay : outcome.delay? = some delay)
      (hnext : next = { fire with refireCount := fire.refireCount + 1 })
  | onward (hdelay : outcome.delay? = none) (hpassed : outcome ≠ .vetoed)
      (hfirst : next.refireCount = 0)
      (hslot : IsNextSlot interval startAt fire.scheduledFor now next.scheduledFor)
      (hlater : slotNumber interval startAt fire.scheduledFor <
        slotNumber interval startAt next.scheduledFor)

section

variable {key : JobKey} {interval : Duration} {startAt now : Instant} {data : TriggerData}
variable {fire next : PendingFire} {outcome : FireOutcome}

theorem OnStream.isSlot (h : OnStream key interval startAt data fire) :
    IsSlot interval startAt fire.scheduledFor := ⟨_, h.slot⟩

private theorem onStream_firstFire (key : JobKey) (interval : Duration) (startAt : Instant)
    (data : TriggerData) : OnStream key interval startAt data
      (Scheduler.firstFire key { schedule := .every interval startAt, data }) :=
  ⟨rfl, rfl, rfl, (Schedule.isSlot_start interval startAt).nanos_eq⟩

theorem OnStream.turn (h : OnStream key interval startAt data fire)
    (hnext : Successor fire (some { schedule := .every interval startAt, data }) outcome now next) :
    OnStream key interval startAt data next ∧ Turn interval startAt fire outcome now next := by
  cases hnext with
  | refire hrefire =>
    obtain ⟨delay, hdelay⟩ := Scheduler.delay_of_refire hrefire
    exact ⟨⟨h.key, h.origin, h.data, h.slot⟩, .again hdelay rfl⟩
  | @slot slot hslot =>
    obtain ⟨hdelay, hpassed, hslot⟩ := Scheduler.nextFire_eq_slot hslot
    obtain ⟨-, T, hT, hafter⟩ := Scheduler.nextSlot_eq_slot hslot
    cases hT
    have next := (Schedule.nextFireAfter_eq_some_iff h.isSlot).mp hafter
    refine ⟨⟨h.key, rfl, rfl, next.onGrid.nanos_eq⟩, .onward hdelay hpassed rfl next ?_⟩
    exact h.isSlot.slotNumber_lt next.onGrid next.afterPrevious

theorem OnStream.last (h : OnStream key interval startAt data fire)
    (hstop : ∀ next,
      ¬Successor fire (some { schedule := .every interval startAt, data }) outcome now next)
    (hplace : Scheduler.nextFire fire (some { schedule := .every interval startAt, data }) outcome
      now ≠ .beyondCalendar) :
    outcome = .vetoed ∨ outcome.delay? = none ∧
      (Schedule.every interval startAt).nextFireAfter fire.scheduledFor now = none ∧
      ∀ slot, IsSlot interval startAt slot → fire.scheduledFor < slot → ¬now < slot := by
  have hnothing : Scheduler.nextFire fire (some { schedule := .every interval startAt, data })
      outcome now = .nothing := by
    cases hnext : Scheduler.nextFire fire (some { schedule := .every interval startAt, data })
      outcome now with
    | nothing => rfl
    | refire due => exact absurd (.refire hnext) (hstop _)
    | slot slot => exact absurd (.slot hnext) (hstop _)
    | beyondCalendar => exact absurd hnext hplace
  obtain hvetoed | ⟨hdelay, hnone⟩ := Scheduler.nextFire_eq_nothing h.origin hnothing
  · exact .inl hvetoed
  · exact .inr ⟨hdelay, hnone, (Schedule.nextFireAfter_eq_none_iff h.isSlot).mp hnone⟩

end

namespace Traffic

def aloft (t : Traffic η ν) (key : JobKey) : List (Departure ν) :=
  t.departures.filter fun d =>
    d.taken.fire.isSlotOf key && (t.landings.get? d.number).isNone

def train (t : Traffic η ν) (key : JobKey) : List PendingFire :=
  (t.rides key).map (·.taken.fire) ++ (t.waiting key).map (·.fire)

inductive ManualStep (harness : Harness σ) (t : Traffic η ν) : Traffic η ν → Prop where
  | ask {s} (key : JobKey) (data : TriggerData) (now : Instant)
      (h : t.scheduler.triggerNow key data now = .ok s) :
      ManualStep harness t { t with scheduler := s }
  | depart {q taken s} (now : Instant) (hnext : t.scheduler.queue.head? = some q)
      (h : t.scheduler.take now = (some taken, s)) (hmanual : q.fire.origin = .manual) :
      ManualStep harness t
        { t with
          scheduler := s
          departures := t.departures ++ [{ number := q.seq, taken, time := now }] }
  | land {d} (outcome : FireOutcome) (now : Instant) (hd : d ∈ t.departures)
      (hopen : t.landings.get? d.number = none)
      (hending : Ending harness t.scheduler.registry d.taken outcome)
      (hmanual : d.taken.fire.origin = .manual) : ManualStep harness t (t.land d outcome now)

/-- The fires of a repeating trigger. -/
structure Stream (harness : Harness σ) (t : Traffic η ν) (key : JobKey) (interval : Duration)
    (startAt : Instant) (data : TriggerData) : Prop where
  single : (t.waiting key).length + (t.aloft key).length ≤ 1
  opening : (t.train key).head? =
    some (Scheduler.firstFire key { schedule := .every interval startAt, data })
  slots : ∀ fire ∈ t.train key, OnStream key interval startAt data fire
  turns : ∀ i d next, (t.rides key)[i]? = some d → (t.train key)[i + 1]? = some next →
    ∃ outcome now, t.landings.get? d.number = some (outcome, now) ∧
      Turn interval startAt d.taken.fire outcome now next
  stops : t.waiting key = [] → t.aloft key = [] → ∃ d outcome now,
    (t.rides key).getLast? = some d ∧ t.landings.get? d.number = some (outcome, now) ∧
      (outcome = .vetoed ∨ outcome.delay? = none ∧
        (Schedule.every interval startAt).nextFireAfter d.taken.fire.scheduledFor now = none ∧
        ∀ slot, IsSlot interval startAt slot → d.taken.fire.scheduledFor < slot → ¬now < slot)
  manual : ∀ t', ManualStep harness t t' → t'.train key = t.train key ∧ t'.aloft key = t.aloft key

section

variable {harness : Harness σ} {t t' : Traffic η ν} {key : JobKey} {T : Trigger}
variable {landings : Assoc Nat (FireOutcome × Instant)} {fire : PendingFire}
variable {ds : List (Departure ν)} {d : Departure ν} {outcome : FireOutcome} {now : Instant}
variable {interval : Duration} {startAt : Instant} {data : TriggerData}

/-! Keys that were never deleted. -/

theorem Step.removals_subset (step : Step harness t t') : ∀ r ∈ t.removals, r ∈ t'.removals := by
  cases step with
  | deleteJob key => exact fun _ => List.mem_cons_of_mem _
  | _ => exact fun _ h => h

def Known (t : Traffic η ν) : Prop := ∀ d ∈ t.departures,
  t.scheduler.contains d.taken.fire.key ∨ ∃ r ∈ t.removals, r.1 = d.taken.fire.key

theorem Known.store (h : Known t) (k : JobKey) (job : StoredJob) : Known (t.store k job) := by
  intro d hd
  exact (h d hd).imp_left fun hstored => Scheduler.contains_store.mpr (.inr hstored)

theorem Known.delete (h : Known t) (k : JobKey) : Known (t.delete k) := by
  intro d hd
  by_cases hk : k = d.taken.fire.key
  · exact .inr ⟨(k, t.scheduler.seq), List.mem_cons_self, hk⟩
  · exact (h d hd).imp (fun hstored => Scheduler.contains_deleteJob.mpr ⟨hk, hstored⟩)
      fun ⟨r, hr, hkey⟩ => ⟨r, List.mem_cons_of_mem _ hr, hkey⟩

theorem Effect.known (h : Effect harness t t') (ho : Orderly t) (hknown : Known t) :
    Known t' := by
  cases h with
  | idle | listened | queued => exact hknown
  | stored hhandler => exact hknown.store _ _
  | @scheduled definition T hhandler hnew => exact hknown.store definition.key ⟨definition, some T⟩
  | deleted k => exact hknown.delete k
  | @departed q rest job listeners now hqueue hdue hjob =>
    intro d hd
    obtain hd | hd := List.mem_append.mp hd
    · exact hknown d hd
    · rw [List.mem_singleton.mp hd]
      exact .inl (ho.stored q (hqueue ▸ List.mem_cons_self))
  | @landed d outcome now hd hopen hending =>
    obtain ⟨-, line, due, next, -, heq⟩ | ⟨heq, -⟩ := ho.land_successor d outcome now
    · exact heq ▸ hknown
    · exact heq ▸ hknown

theorem Reachable.known (h : Reachable harness t) : Known t := by
  induction h with
  | start registry listeners matchers => exact fun _ hd => by cases hd
  | next before step ih => exact (step.effect before.orderly).known before.orderly ih

theorem Reachable.lineage_of_never (h : Reachable harness t) (never : ∀ r ∈ t.removals, r.1 ≠ key) :
    ∃ rootOf, Lineage harness (Grounded key) t rootOf := by
  refine h.lineage (P := fun t => ∀ r ∈ t.removals, r.1 ≠ key) never
    (fun step never r hr => never r (step.removals_subset r hr)) ?_
  intro t t' before step never hnew _ d hd hkey
  obtain hstored | ⟨r, hr, hdeleted⟩ := before.known d hd
  · rw [hkey, hnew] at hstored
    cases hstored
  · exact absurd (hdeleted.trans hkey) (never r (step.removals_subset r hr))

private theorem current_of_never (never : ∀ r ∈ t.removals, r.1 ≠ key) (n : Nat) :
    t.Current key n :=
  fun r hr hkey => absurd hkey (never r hr)

private theorem aloft_eq (never : ∀ r ∈ t.removals, r.1 ≠ key) :
    t.aloft key = (t.rides key).filter fun d => (t.landings.get? d.number).isNone := by
  unfold aloft rides
  rw [List.filter_filter]
  refine List.filter_congr fun d _ => ?_
  rw [decide_eq_true (current_of_never never d.number), Bool.and_true, Bool.and_comm]

/-! What a trail says of the fires on it. -/

theorem Trail.turns
    (trail : Trail { schedule := .every interval startAt, data } landings key fire ds) :
    OnStream key interval startAt data fire ∧
      (∀ d ∈ ds, OnStream key interval startAt data d.taken.fire) ∧
      ∀ i d next, ds[i]? = some d → (ds.map (·.taken.fire) ++ [fire])[i + 1]? = some next →
        ∃ outcome now, landings.get? d.number = some (outcome, now) ∧
          Turn interval startAt d.taken.fire outcome now next := by
  induction trail with
  | nil =>
    refine ⟨onStream_firstFire key interval startAt data, fun d hd => ?_, fun i d next hd => ?_⟩
    · cases hd
    · cases hd
  | @snoc fire next ds outcome now d₀ trail ride hlanded hnext ih =>
    obtain ⟨hfire, hds, hturns⟩ := ih
    obtain ⟨hnext, hturn⟩ := hfire.turn hnext
    refine ⟨hnext, ?_, ?_⟩
    · intro d hd
      obtain hd | hd := List.mem_append.mp hd
      · exact hds d hd
      · rw [List.mem_singleton.mp hd, ride.fire]
        exact hfire
    · intro i d fire' hd hfire'
      rw [List.map_append, List.map_singleton, ride.fire] at hfire'
      obtain hd | ⟨rfl, rfl⟩ := getElem?_concat_cases hd
      · have hi := (List.getElem?_eq_some_iff.mp hd).1
        rw [List.getElem?_append_left (by simpa using hi)] at hfire'
        exact hturns i d fire' hd hfire'
      · rw [List.getElem?_append_right (by simp)] at hfire'
        simp at hfire'
        subst hfire'
        exact ⟨outcome, now, hlanded, ride.fire ▸ hturn⟩

theorem Trail.head (trail : Trail T landings key fire ds) :
    (ds.map (·.taken.fire) ++ [fire]).head? = some (Scheduler.firstFire key T) := by
  induction trail with
  | nil => rfl
  | snoc d trail ride hlanded hnext ih =>
    rw [List.map_append, List.map_singleton, ride.fire, List.head?_append, ih]
    rfl

theorem Standing.train_eq (h : Standing T t key) : ∃ fire ds, Trail T t.landings key fire ds ∧
    t.train key = ds.map (·.taken.fire) ++ [fire] ∧
      (t.rides key = ds ∨ ∃ d, t.rides key = ds ++ [d]) := by
  cases h with
  | waiting trail honly => exact ⟨_, _, trail, by rw [train, honly]; rfl, .inl rfl⟩
  | @aloft fire ds d trail hrides ride _ hnone
  | @stopped fire ds d _ _ trail hrides ride _ _ hnone =>
    refine ⟨fire, ds, trail, ?_, .inr ⟨d, hrides⟩⟩
    rw [train, hrides, hnone, List.map_append, List.map_singleton, ride.fire]
    exact List.append_nil _

theorem Standing.opening (h : Standing T t key) :
    (t.train key).head? = some (Scheduler.firstFire key T) := by
  obtain ⟨fire, ds, trail, htrain, -⟩ := h.train_eq
  rw [htrain]
  exact trail.head

theorem Standing.slots (h : Standing { schedule := .every interval startAt, data } t key) :
    ∀ fire ∈ t.train key, OnStream key interval startAt data fire := by
  obtain ⟨last, ds, trail, htrain, -⟩ := h.train_eq
  obtain ⟨hlast, hds, -⟩ := trail.turns
  intro fire hmem
  rw [htrain] at hmem
  obtain hmem | hmem := List.mem_append.mp hmem
  · obtain ⟨d, hd, rfl⟩ := List.mem_map.mp hmem
    exact hds d hd
  · rw [List.mem_singleton.mp hmem]
    exact hlast

theorem Standing.turns (h : Standing { schedule := .every interval startAt, data } t key)
    {i : Nat} {next : PendingFire} (hd : (t.rides key)[i]? = some d)
    (hnext : (t.train key)[i + 1]? = some next) : ∃ outcome now,
      t.landings.get? d.number = some (outcome, now) ∧
        Turn interval startAt d.taken.fire outcome now next := by
  obtain ⟨last, ds, trail, htrain, hrides⟩ := h.train_eq
  rw [htrain] at hnext
  have hi := (List.getElem?_eq_some_iff.mp hnext).1
  rw [List.length_append, List.length_map, List.length_singleton] at hi
  refine trail.turns.2.2 i d next ?_ hnext
  obtain hrides | ⟨d', hrides⟩ := hrides
  · exact hrides ▸ hd
  · rw [hrides, List.getElem?_append_left (by omega)] at hd
    exact hd

theorem Trail.none_open (trail : Trail T landings key fire ds) :
    ds.filter (fun d => (landings.get? d.number).isNone) = [] :=
  List.filter_eq_nil_iff.mpr fun d hd hnone =>
    trail.landed d hd (Option.isNone_iff_eq_none.mp hnone)

theorem Standing.single (h : Standing T t key) (never : ∀ r ∈ t.removals, r.1 ≠ key) :
    (t.waiting key).length + (t.aloft key).length ≤ 1 := by
  have haloft := aloft_eq never
  cases h with
  | waiting trail honly => simp [haloft, trail.none_open, honly]
  | @aloft fire ds d trail hrides ride hstill hnone =>
    simp [haloft, hrides, trail.none_open, hnone, hstill]
  | @stopped fire ds d outcome now trail hrides ride hlanded hstop hnone =>
    simp [haloft, hrides, trail.none_open, hnone, hlanded]

theorem Standing.stops (h : Standing T t key) (never : ∀ r ∈ t.removals, r.1 ≠ key)
    (hwaiting : t.waiting key = []) (haloft : t.aloft key = []) : ∃ d outcome now,
      (t.rides key).getLast? = some d ∧ t.landings.get? d.number = some (outcome, now) ∧
        d.taken.job.trigger = some T ∧
        ∀ next, ¬Successor d.taken.fire (some T) outcome now next := by
  cases h with
  | waiting trail honly =>
    rw [honly] at hwaiting
    cases hwaiting
  | @aloft fire ds d trail hrides ride hstill hnone =>
    rw [aloft_eq never, hrides] at haloft
    have hd := List.filter_eq_nil_iff.mp haloft d (List.mem_append_right ds List.mem_cons_self)
    simp [hstill] at hd
  | @stopped fire ds d outcome now trail hrides ride hlanded hstop hnone =>
    refine ⟨d, outcome, now, ?_, hlanded, ride.trigger, ride.fire ▸ hstop⟩
    rw [hrides, List.getLast?_concat]

/-! Fires that are asked for by hand. -/

theorem isSlotOf_of_manual (h : fire.origin = .manual) : fire.isSlotOf key = false := by
  simp [PendingFire.isSlotOf, h]

private theorem aloft_depart_of_not (hfire : d.taken.fire.isSlotOf key = false) :
    (t.depart d).aloft key = t.aloft key := by
  simp only [aloft, depart, List.filter_append, List.filter_cons, List.filter_nil, hfire,
    Bool.false_and, Bool.false_eq_true, ↓reduceIte, List.append_nil]

private theorem aloft_record_of_ne {n : Nat}
    (hother : ∀ d ∈ t.departures, d.taken.fire.isSlotOf key → d.number ≠ n) :
    (t.record n outcome now).aloft key = t.aloft key := by
  refine List.filter_congr fun d hd => ?_
  cases hslot : d.taken.fire.isSlotOf key with
  | false => rfl
  | true => rw [get?_record_of_ne (hother d hd hslot)]

theorem ManualStep.keeps (h : ManualStep harness t t') (ho : Orderly t) (key : JobKey) :
    t'.train key = t.train key ∧ t'.aloft key = t.aloft key := by
  unfold train
  cases h with
  | ask k data now hs =>
    obtain ⟨-, rfl⟩ := Scheduler.triggerNow_ok hs
    let fire : PendingFire :=
      { key := k, refireCount := 0, triggerData := data, scheduledFor := now, origin := .manual }
    have hwaiting : (t.enqueue 0 now fire).waiting key = t.waiting key :=
      waiting_enqueue_of_not (isSlotOf_of_manual rfl)
    exact ⟨congrArg _ (congrArg _ hwaiting), rfl⟩
  | @depart q taken s now hnext hs hmanual =>
    obtain ⟨q', rest, job, hqueue, -, -, rfl, rfl⟩ := Scheduler.take_some hs
    rw [hqueue, List.head?_cons] at hnext
    cases hnext
    have hfire : q.fire.isSlotOf key = false := isSlotOf_of_manual hmanual
    have hwaiting : t.waiting key = (t.withQueue rest).waiting key :=
      (waiting_of_queue hqueue key).trans (if_neg (Bool.eq_false_iff.mp hfire))
    let d : Departure ν :=
      { number := q.seq
        taken := { fire := q.fire, job, listeners := t.scheduler.listenersFor q.fire.key }
        time := now }
    have hrides : ((t.withQueue rest).depart d).rides key = t.rides key := by
      rw [rides_depart, hfire, Bool.false_and, if_neg Bool.false_ne_true]
      exact List.append_nil _
    have haloft : ((t.withQueue rest).depart d).aloft key = t.aloft key := aloft_depart_of_not hfire
    refine ⟨?_, haloft⟩
    rw [hwaiting, ← hrides]
    rfl
  | @land d outcome now hd hopen hending hmanual =>
    have hfire : d.taken.fire.isSlotOf key = false := isSlotOf_of_manual hmanual
    have haloft : (t.record d.number outcome now).aloft key = t.aloft key := by
      refine aloft_record_of_ne fun d' hd' hslot hnumber => ?_
      cases ho.once d' hd' d hd hnumber
      rw [hfire] at hslot
      cases hslot
    obtain ⟨-, line, due, next, hnext, heq⟩ | ⟨heq, -⟩ := ho.land_successor d outcome now
    · have hwaiting : ((t.record d.number outcome now).enqueue line due next).waiting key =
          (t.record d.number outcome now).waiting key :=
        waiting_enqueue_of_not ((hnext.isSlotOf key).trans hfire)
      rw [heq]
      exact ⟨congrArg _ (congrArg _ hwaiting), haloft⟩
    · rw [heq]
      exact ⟨rfl, haloft⟩

end

/-- Whatever goes on in the scheduler, the fires of a repeating trigger form one stream, as long as
its key is not deleted and the calendar has the times of all its refires. -/
theorem trigger_streams {harness : Harness σ} {t : Traffic η ν} (h : Reachable harness t)
    (key : JobKey) {interval : Duration} {startAt : Instant} {data : TriggerData}
    (scheduled : t.scheduler.triggerOf key = some { schedule := .every interval startAt, data })
    (never : ∀ r ∈ t.removals, r.1 ≠ key)
    (representable : ∀ d ∈ t.rides key, ∀ outcome now,
      t.landings.get? d.number = some (outcome, now) →
        Scheduler.nextFire d.taken.fire d.taken.job.trigger outcome now ≠ .beyondCalendar) :
    Stream harness t key interval startAt data := by
  obtain ⟨rootOf, lineage⟩ := h.lineage_of_never never
  have standing := lineage.regular.set _ scheduled
  refine ⟨standing.single never, standing.opening, standing.slots, fun i d next => standing.turns,
    fun hwaiting haloft => ?_, fun t' step => step.keeps h.orderly key⟩
  obtain ⟨d, outcome, now, hlast, hlanded, htrigger, hstop⟩ := standing.stops never hwaiting haloft
  have hd : d ∈ t.rides key := List.mem_of_getLast? hlast
  have hfire : OnStream key interval startAt data d.taken.fire :=
    standing.slots _ (List.mem_append_left _ (List.mem_map.mpr ⟨d, hd, rfl⟩))
  have hplace := representable d hd outcome now hlanded
  rw [htrigger] at hplace
  exact ⟨d, outcome, now, hlast, hlanded, hfire.last hstop hplace⟩

def oneSecond : Duration := .ofMillis 1000

/-- The first slot of a trigger takes two attempts, so the second slot comes next. -/
theorem second_slot_waits : ∃ t : Traffic Unit Unit, (t.train report.key).length = 3 ∧
    Stream onceMore t report.key oneSecond .epoch Dict.empty := by
  have opened : Reachable onceMore vacant := .start [("report", ())] [] []
  have stored := opened.next (.scheduleJob report { schedule := .every oneSecond .epoch } rfl)
  have first := stored.next (.depart .epoch rfl rfl)
  have refired :=
    first.next (.land (busy 0) .epoch List.mem_cons_self rfl (.ran _ _ _ rfl))
  have second := refired.next (.depart .epoch rfl rfl)
  have gone := second.next (.land (busy 1) .epoch
    (List.mem_cons_of_mem _ List.mem_cons_self) rfl (.ran _ _ _ rfl))
  refine ⟨_, rfl, trigger_streams gone report.key rfl (fun _ hr => by cases hr) ?_⟩
  intro d hd outcome now hlanded
  obtain rfl | hd := List.mem_cons.mp hd
  · cases hlanded
    exact NextFire.noConfusion
  · obtain rfl := List.mem_singleton.mp hd
    cases hlanded
    exact NextFire.noConfusion

end Traffic

end JobEngine
