import JobEngine.Proofs.Lineage
import JobEngine.Proofs.Refires
/-! The fires of a trigger come one at a time. The first is queued when the job is scheduled, and
each further one follows from how the one before it ended. Fires that are asked for by hand are no
part of this, and neither are fires of other keys. -/

namespace JobEngine

variable {σ η ν : Type}

def PendingFire.isSlotOf (key : JobKey) (fire : PendingFire) : Bool :=
  fire.key = key && fire.origin = .trigger

theorem PendingFire.isSlotOf_iff {key : JobKey} {fire : PendingFire} :
    fire.isSlotOf key ↔ fire.key = key ∧ fire.origin = .trigger := by
  simp [PendingFire.isSlotOf]

namespace Scheduler

inductive Successor (fire : PendingFire) (trigger : Option Trigger) (outcome : FireOutcome)
    (now : Instant) : PendingFire → Prop where
  | refire {due : Instant} (h : nextFire fire trigger outcome now = .refire due) :
      Successor fire trigger outcome now { fire with refireCount := fire.refireCount + 1 }
  | slot {slot : Instant} (h : nextFire fire trigger outcome now = .slot slot) :
      Successor fire trigger outcome now (slotFire fire trigger slot)

theorem Successor.isSlotOf {fire next : PendingFire} {trigger : Option Trigger}
    {outcome : FireOutcome} {now : Instant} (h : Successor fire trigger outcome now next)
    (key : JobKey) : next.isSlotOf key = fire.isSlotOf key := by
  cases h with
  | refire h => rfl
  | slot h =>
    have horigin := (nextSlot_eq_slot (nextFire_eq_slot h).2.2).1
    unfold PendingFire.isSlotOf
    rw [horigin]
    rfl

private theorem filter_place_of_not {p : QueuedFire → Bool} {q : QueuedFire} (h : p q = false)
    (queue : List QueuedFire) : (place q queue).filter p = queue.filter p := by
  induction queue with
  | nil => simp [place, h]
  | cons a rest ih =>
    unfold place
    split
    · simp [h]
    · rw [List.filter_cons, List.filter_cons, ih]

private theorem filter_place_of_nil {p : QueuedFire → Bool} {q : QueuedFire} (h : p q)
    {queue : List QueuedFire} (hnone : queue.filter p = []) : (place q queue).filter p = [q] := by
  have hperm := (place_perm q queue).filter p
  rw [List.filter_cons, if_pos h, hnone] at hperm
  exact List.perm_singleton.mp hperm

end Scheduler

open Scheduler (Successor)

namespace Traffic

def waiting (t : Traffic η ν) (key : JobKey) : List QueuedFire :=
  t.scheduler.queue.filter fun q => q.fire.isSlotOf key

/-- The fires of the trigger of a key that were taken since the key was last deleted. -/
def rides (t : Traffic η ν) (key : JobKey) : List (Departure ν) :=
  t.departures.filter fun d => d.taken.fire.isSlotOf key && t.Current key d.number

structure Ride (T : Trigger) (fire : PendingFire) (d : Departure ν) : Prop where
  fire : d.taken.fire = fire
  trigger : d.taken.job.trigger = some T

/-- The fires of a trigger so far, all of which have ended, and the one that follows them. -/
inductive Trail (T : Trigger) (landings : Assoc Nat (FireOutcome × Instant)) (key : JobKey) :
    PendingFire → List (Departure ν) → Prop where
  | nil : Trail T landings key (Scheduler.firstFire key T) []
  | snoc {fire next ds outcome now} (d : Departure ν) (trail : Trail T landings key fire ds)
      (ride : Ride T fire d) (hlanded : landings.get? d.number = some (outcome, now))
      (hnext : Successor fire (some T) outcome now next) : Trail T landings key next (ds ++ [d])

/-- How the trigger of a key stands: its next fire waits, or is under way, or none follows. -/
inductive Standing (T : Trigger) (t : Traffic η ν) (key : JobKey) : Prop where
  | waiting {q} (trail : Trail T t.landings key q.fire (t.rides key))
      (honly : t.waiting key = [q])
  | aloft {fire ds d} (trail : Trail T t.landings key fire ds) (hrides : t.rides key = ds ++ [d])
      (ride : Ride T fire d) (hopen : t.landings.get? d.number = none)
      (hnone : t.waiting key = [])
  | stopped {fire ds d outcome now} (trail : Trail T t.landings key fire ds)
      (hrides : t.rides key = ds ++ [d]) (ride : Ride T fire d)
      (hlanded : t.landings.get? d.number = some (outcome, now))
      (hstop : ∀ next, ¬Successor fire (some T) outcome now next) (hnone : t.waiting key = [])

structure Regular (t : Traffic η ν) (key : JobKey) : Prop where
  unset : t.scheduler.triggerOf key = none → t.rides key = [] ∧ t.waiting key = []
  set : ∀ T, t.scheduler.triggerOf key = some T → Standing T t key

section

variable {T : Trigger} {landings landings' : Assoc Nat (FireOutcome × Instant)} {key : JobKey}
variable {fire : PendingFire} {ds : List (Departure ν)} {d : Departure ν} {t t' : Traffic η ν}
variable {outcome : FireOutcome} {now : Instant}

theorem Trail.mono (h : ∀ n v, landings.get? n = some v → landings'.get? n = some v)
    (trail : Trail T landings key fire ds) : Trail T landings' key fire ds := by
  induction trail with
  | nil => exact .nil
  | snoc d trail ride hlanded hnext ih => exact .snoc d ih ride (h _ _ hlanded) hnext

theorem Trail.landed (trail : Trail T landings key fire ds) :
    ∀ d ∈ ds, landings.get? d.number ≠ none := by
  intro d' hd'
  induction trail with
  | nil => cases hd'
  | snoc d trail ride hlanded hnext ih =>
    obtain hd' | hd' := List.mem_append.mp hd'
    · exact ih hd'
    · rw [List.mem_singleton.mp hd', hlanded]
      exact Option.some_ne_none _

theorem Trail.data (trail : Trail T landings key fire ds) : fire.triggerData = T.data := by
  induction trail with
  | nil => rfl
  | snoc d trail ride hlanded hnext ih =>
    cases hnext with
    | refire h => exact ih
    | slot h => rfl

theorem mem_rides : d ∈ t.rides key ↔
    d ∈ t.departures ∧ d.taken.fire.isSlotOf key ∧ t.Current key d.number := by
  refine List.mem_filter.trans (and_congr_right fun _ => ?_)
  rw [Bool.and_eq_true, decide_eq_true_eq]

theorem Standing.frame (h : Standing T t key) (hrides : t'.rides key = t.rides key)
    (hwaiting : t'.waiting key = t.waiting key)
    (hlandings : ∀ n v, t.landings.get? n = some v → t'.landings.get? n = some v)
    (hopen : ∀ d ∈ t.rides key, t.landings.get? d.number = none →
      t'.landings.get? d.number = none) : Standing T t' key := by
  cases h with
  | waiting trail honly => exact .waiting (hrides ▸ trail.mono hlandings) (hwaiting ▸ honly)
  | @aloft fire ds d trail hline ride hstill hnone =>
    have hd : d ∈ t.rides key := by
      rw [hline]
      exact List.mem_append_right ds List.mem_cons_self
    exact .aloft (trail.mono hlandings) (hrides.trans hline) ride (hopen d hd hstill)
      (hwaiting ▸ hnone)
  | stopped trail hline ride hlanded hstop hnone =>
    exact .stopped (trail.mono hlandings) (hrides.trans hline) ride (hlandings _ _ hlanded) hstop
      (hwaiting ▸ hnone)

theorem Regular.frame (h : Regular t key)
    (htrigger : t'.scheduler.triggerOf key = t.scheduler.triggerOf key)
    (hrides : t'.rides key = t.rides key) (hwaiting : t'.waiting key = t.waiting key)
    (hlandings : ∀ n v, t.landings.get? n = some v → t'.landings.get? n = some v)
    (hopen : ∀ d ∈ t.rides key, t.landings.get? d.number = none →
      t'.landings.get? d.number = none) : Regular t' key where
  unset hunset := by
    rw [hrides, hwaiting]
    exact h.unset (htrigger ▸ hunset)
  set T hset := (h.set T (htrigger ▸ hset)).frame hrides hwaiting hlandings hopen

theorem Standing.aloft_of_open (h : Standing T t key) (hd : d ∈ t.rides key)
    (hopen : t.landings.get? d.number = none) : ∃ fire ds, Trail T t.landings key fire ds ∧
      t.rides key = ds ++ [d] ∧ Ride T fire d ∧ t.waiting key = [] := by
  cases h with
  | waiting trail honly => exact absurd hopen (trail.landed d hd)
  | @aloft fire ds d' trail hrides ride hstill hnone =>
    have hlast := hd
    rw [hrides] at hlast
    obtain hlast | hlast := List.mem_append.mp hlast
    · exact absurd hopen (trail.landed d hlast)
    · obtain rfl := List.mem_singleton.mp hlast
      exact ⟨fire, ds, trail, hrides, ride, hnone⟩
  | stopped trail hrides ride hlanded hstop hnone =>
    rw [hrides] at hd
    obtain hd | hd := List.mem_append.mp hd
    · exact absurd hopen (trail.landed d hd)
    · rw [List.mem_singleton.mp hd, hlanded] at hopen
      cases hopen

theorem waiting_enqueue_of_not {line : Nat} {due : Instant} (h : fire.isSlotOf key = false) :
    (t.enqueue line due fire).waiting key = t.waiting key :=
  Scheduler.filter_place_of_not h _

private theorem waiting_enqueue_slot {line : Nat} {due : Instant} (h : fire.isSlotOf key)
    (hnone : t.waiting key = []) :
    (t.enqueue line due fire).waiting key = [{ due, seq := t.scheduler.seq + 1, fire }] :=
  Scheduler.filter_place_of_nil h hnone

theorem waiting_of_queue {q : QueuedFire} {rest : List QueuedFire}
    (hqueue : t.scheduler.queue = q :: rest) (key : JobKey) : t.waiting key =
      if q.fire.isSlotOf key then q :: (t.withQueue rest).waiting key
      else (t.withQueue rest).waiting key := by
  unfold waiting
  rw [hqueue, List.filter_cons]
  rfl

theorem rides_depart (t : Traffic η ν) (d : Departure ν) (key : JobKey) :
    (t.depart d).rides key =
      t.rides key ++ if d.taken.fire.isSlotOf key && t.Current key d.number then [d] else [] := by
  simp only [rides, depart, List.filter_append, List.filter_cons, List.filter_nil]
  rfl

theorem Orderly.rides_delete_self (ho : Orderly t) : (t.delete key).rides key = [] := by
  refine List.filter_eq_nil_iff.mpr fun d hd hmem => ?_
  have hcurrent := of_decide_eq_true (Bool.and_eq_true_iff.mp hmem).2
  have hlater := hcurrent (key, t.scheduler.seq) List.mem_cons_self rfl
  exact absurd (ho.gone d hd).1 (Nat.not_le.mpr hlater)

private theorem rides_delete_of_ne {k : JobKey} (h : k ≠ key) :
    (t.delete k).rides key = t.rides key := by
  have hcurrent : ∀ n, (t.delete k).Current key n ↔ t.Current key n := by
    intro n
    refine ⟨fun hall r hr => hall r (List.mem_cons_of_mem _ hr), fun hall r hr hkey => ?_⟩
    obtain rfl | hr := List.mem_cons.mp hr
    · exact absurd hkey h
    · exact hall r hr hkey
  simp only [rides, hcurrent]
  rfl

@[simp] theorem waiting_delete (k : JobKey) :
    (t.delete k).waiting key = if k = key then [] else t.waiting key := by
  change (t.scheduler.queue.filter _).filter _ = _
  rw [List.filter_filter]
  split
  next h =>
    refine List.filter_eq_nil_iff.mpr fun q _ hmem => ?_
    obtain ⟨hslot, hkept⟩ := Bool.and_eq_true_iff.mp hmem
    exact of_decide_eq_true hkept ((PendingFire.isSlotOf_iff.mp hslot).1.trans h.symm)
  next h =>
    refine List.filter_congr fun q _ => ?_
    by_cases hkey : q.fire.key = key
    · simp [hkey, Ne.symm h]
    · simp [PendingFire.isSlotOf, hkey]

theorem Orderly.land_successor (ho : Orderly t) (d : Departure ν) (outcome : FireOutcome)
    (now : Instant) :
    (t.scheduler.contains d.taken.fire.key ∧ ∃ line due next,
        Successor d.taken.fire d.taken.job.trigger outcome now next ∧
        t.land d outcome now = (t.record d.number outcome now).enqueue line due next) ∨
      t.land d outcome now = t.record d.number outcome now ∧
        (t.scheduler.contains d.taken.fire.key →
          ∀ next, ¬Successor d.taken.fire d.taken.job.trigger outcome now next) := by
  obtain ⟨heq, hrefires, hslot⟩ | ⟨hstored, ⟨due, hnext, heq⟩ | ⟨-, slot, hnext, heq⟩⟩ :=
    ho.land_cases d outcome now
  · refine .inr ⟨heq, fun hstored next hsuccessor => ?_⟩
    cases hsuccessor with
    | refire h => exact hrefires (refires_iff.mpr ⟨hstored, _, h⟩)
    | slot h =>
      obtain hmissing | hno := hslot
      · rw [hmissing] at hstored
        cases hstored
      · exact hno _ h
  · exact .inl ⟨hstored, _, _, _, .refire hnext, heq⟩
  · exact .inl ⟨hstored, _, _, _, .slot hnext, heq⟩

namespace Regular

private theorem store_same (h : Regular t key) {k : JobKey} {job : StoredJob}
    (hkept : k = key → job.trigger = t.scheduler.triggerOf key) :
    Regular (t.store k job) key := by
  refine h.frame (Scheduler.triggerOf_store.trans ?_) rfl rfl (fun _ _ h => h) fun _ _ h => h
  split
  next hk => exact hkept hk
  · rfl

theorem enqueue_other (h : Regular t key) {line : Nat} {due : Instant}
    (hfire : fire.isSlotOf key = false) : Regular (t.enqueue line due fire) key :=
  h.frame rfl rfl (waiting_enqueue_of_not hfire) (fun _ _ h => h) fun _ _ h => h

theorem schedule (h : Regular t key) (T : Trigger) {definition : JobDefinition} {line : Nat}
    {due : Instant} (hkey : definition.key = key) (hnew : t.scheduler.contains key = false) :
    Regular ((t.store definition.key { definition, trigger := some T }).enqueue line due
      (Scheduler.firstFire definition.key T)) key := by
  obtain ⟨hrides, hwaiting⟩ := h.unset (Scheduler.triggerOf_of_not_contains hnew)
  let stored := t.store definition.key { definition, trigger := some T }
  have htrigger : stored.scheduler.triggerOf key = some T :=
    Scheduler.triggerOf_store.trans (if_pos hkey)
  have hslot : (Scheduler.firstFire definition.key T).isSlotOf key :=
    PendingFire.isSlotOf_iff.mpr ⟨hkey, rfl⟩
  constructor
  · intro hunset
    cases htrigger.symm.trans hunset
  · intro T' hset
    cases htrigger.symm.trans hset
    refine .waiting ?_ (waiting_enqueue_slot hslot hwaiting)
    change Trail T t.landings key (Scheduler.firstFire definition.key T) (t.rides key)
    rw [hrides, hkey]
    exact .nil

theorem delete (h : Regular t key) (ho : Orderly t) (k : JobKey) : Regular (t.delete k) key := by
  by_cases hk : k = key
  · subst hk
    constructor
    · intro _
      exact ⟨ho.rides_delete_self, (waiting_delete k).trans (if_pos rfl)⟩
    · intro T hset
      cases (Scheduler.triggerOf_deleteJob.trans (if_pos rfl)).symm.trans hset
  · exact h.frame (Scheduler.triggerOf_deleteJob.trans (if_neg hk)) (rides_delete_of_ne hk)
      ((waiting_delete k).trans (if_neg hk)) (fun _ _ h => h) fun _ _ h => h

theorem depart {rootOf : Nat → Nat} (h : Regular t key) (ho : Orderly t)
    (hroot : Rooted t rootOf key) {q : QueuedFire} {rest : List QueuedFire} {job : StoredJob}
    (hqueue : t.scheduler.queue = q :: rest) (hjob : t.scheduler.jobs.get? q.fire.key = some job)
    (hnumber : d.number = q.seq) (hfire : d.taken.fire = q.fire) (htaken : d.taken.job = job) :
    Regular ((t.withQueue rest).depart d) key := by
  have hq : q ∈ t.scheduler.queue := hqueue ▸ List.mem_cons_self
  have hwaiting := waiting_of_queue hqueue key
  have hrides := rides_depart (t.withQueue rest) d key
  rw [hfire] at hrides
  by_cases hslot : q.fire.isSlotOf key
  · rw [if_pos hslot] at hwaiting
    have hkey : q.fire.key = key := (PendingFire.isSlotOf_iff.mp hslot).1
    have htrigger : t.scheduler.triggerOf key = d.taken.job.trigger := by
      unfold Scheduler.triggerOf
      rw [← hkey, hjob, htaken]
      rfl
    have hcurrent : (t.withQueue rest).Current key d.number :=
      hnumber ▸ (hroot.waiting q hq hkey).mono (hroot.root_le q.seq)
    rw [hslot, decide_eq_true hcurrent] at hrides
    constructor
    · intro hunset
      rw [(h.unset hunset).2] at hwaiting
      cases hwaiting
    · intro T hset
      cases h.set T hset with
      | @waiting q' trail honly =>
        -- only one fire of the trigger waits, so it is the one that is taken
        rw [honly] at hwaiting
        obtain ⟨rfl, hnone⟩ := List.cons.inj hwaiting
        exact .aloft trail hrides ⟨hfire, htrigger.symm.trans hset⟩
          (hnumber ▸ ho.open_of_mem hq) hnone.symm
      | aloft _ _ _ _ hnone | stopped _ _ _ _ _ hnone =>
        rw [hnone] at hwaiting
        cases hwaiting
  · rw [if_neg hslot] at hwaiting
    rw [Bool.eq_false_iff.mpr hslot, Bool.false_and, if_neg Bool.false_ne_true,
      List.append_nil] at hrides
    exact h.frame rfl hrides hwaiting.symm (fun _ _ h => h) fun _ _ h => h

theorem record_other (h : Regular t key) {n : Nat} (hopen : t.landings.get? n = none)
    (hother : ∀ d ∈ t.rides key, d.number ≠ n) : Regular (t.record n outcome now) key :=
  h.frame rfl rfl rfl (record_extends hopen) fun d hd hstill =>
    (get?_record_of_ne (hother d hd)).trans hstill

theorem land_slot (h : Regular t key) (ho : Orderly t) (hd : d ∈ t.rides key)
    (hopen : t.landings.get? d.number = none) (hstored : t.scheduler.contains key) :
    Regular (t.land d outcome now) key := by
  have hslot : d.taken.fire.isSlotOf key := (mem_rides.mp hd).2.1
  have hkey : d.taken.fire.key = key := (PendingFire.isSlotOf_iff.mp hslot).1
  have hlanded : (t.record d.number outcome now).landings.get? d.number = some (outcome, now) :=
    if_pos rfl
  have hsuccessor := ho.land_successor d outcome now
  have hset : ∀ T, t.scheduler.triggerOf key = some T → Standing T (t.land d outcome now) key := by
    intro T hset
    -- the fire that ends is the one the trigger has under way, so its job is the one stored now
    obtain ⟨fire, ds, trail, hrides, ride, hnone⟩ := (h.set T hset).aloft_of_open hd hopen
    have trail' : Trail T (t.record d.number outcome now).landings key fire ds :=
      trail.mono (record_extends hopen)
    rw [ride.fire, ride.trigger] at hsuccessor
    obtain ⟨-, line, due, next, hnext, heq⟩ | ⟨heq, hstop⟩ := hsuccessor
    · have longer := Trail.snoc d trail' ride hlanded hnext
      rw [← hrides] at longer
      have hslot' : next.isSlotOf key := by
        rw [hnext.isSlotOf, ← ride.fire]
        exact hslot
      rw [heq]
      refine .waiting ?_ (waiting_enqueue_slot hslot' hnone)
      exact longer
    · have hkey' : fire.key = key := ride.fire ▸ hkey
      rw [heq]
      exact .stopped trail' hrides ride hlanded (hstop (hkey' ▸ hstored)) hnone
  have htrigger : (t.land d outcome now).scheduler.triggerOf key = t.scheduler.triggerOf key := by
    obtain ⟨-, line, due, next, -, heq⟩ | ⟨heq, -⟩ := hsuccessor <;> (rw [heq]; rfl)
  constructor
  · intro hunset
    rw [(h.unset (htrigger ▸ hunset)).1] at hd
    cases hd
  · exact fun T h => hset T (htrigger ▸ h)

theorem land {rootOf : Nat → Nat} (h : Regular t key) (ho : Orderly t)
    (hroot : Rooted t rootOf key) (hd : d ∈ t.departures)
    (hopen : t.landings.get? d.number = none) : Regular (t.land d outcome now) key := by
  by_cases hours : d.taken.fire.isSlotOf key ∧ t.scheduler.contains key
  · obtain ⟨hslot, hstored⟩ := hours
    have hkey : d.taken.fire.key = key := (PendingFire.isSlotOf_iff.mp hslot).1
    have hcurrent : t.Current key d.number :=
      (hroot.aloft hstored d hd hkey hopen).mono (hroot.root_le d.number)
    exact h.land_slot ho (mem_rides.mpr ⟨hd, hslot, hcurrent⟩) hopen hstored
  · -- the fire is not one that this trigger is waiting for
    have hother : ∀ d' ∈ t.rides key, d'.number ≠ d.number := by
      intro d' hd' hnumber
      obtain ⟨hmem, hslot, -⟩ := mem_rides.mp hd'
      cases ho.once d' hmem d hd hnumber
      have hmissing : t.scheduler.contains key = false :=
        Bool.eq_false_iff.mpr fun hstored => hours ⟨hslot, hstored⟩
      rw [(h.unset (Scheduler.triggerOf_of_not_contains hmissing)).1] at hd'
      cases hd'
    have hrecord : Regular (t.record d.number outcome now) key := h.record_other hopen hother
    obtain ⟨hstored, line, due, next, hnext, heq⟩ | ⟨heq, -⟩ := ho.land_successor d outcome now
    · have hslot : d.taken.fire.isSlotOf key = false := Bool.eq_false_iff.mpr fun hslot =>
        hours ⟨hslot, (PendingFire.isSlotOf_iff.mp hslot).1 ▸ hstored⟩
      exact heq ▸ hrecord.enqueue_other ((hnext.isSlotOf key).trans hslot)
    · exact heq ▸ hrecord

end Regular

variable {harness : Harness σ} {rootOf : Nat → Nat}

theorem Effect.regular (h : Effect harness t t') (ho : Orderly t) (hroot : Rooted t rootOf key)
    (hregular : Regular t key) : Regular t' key := by
  cases h with
  | idle => exact hregular
  | listened listeners matchers =>
    exact hregular.frame rfl rfl rfl (fun _ _ h => h) fun _ _ h => h
  | stored hhandler => exact hregular.store_same fun hk => by rw [hk]
  | queued hstored hfirst hmanual =>
    exact hregular.enqueue_other (by simp [PendingFire.isSlotOf, hmanual])
  | @scheduled definition T hhandler hnew =>
    by_cases hkey : definition.key = key
    · exact hregular.schedule T hkey (hkey ▸ hnew)
    · have hstore : Regular (t.store definition.key ⟨definition, some T⟩) key :=
        hregular.store_same fun hk => absurd hk hkey
      exact hstore.enqueue_other (by simp [PendingFire.isSlotOf, Scheduler.firstFire, hkey])
  | deleted k => exact hregular.delete ho k
  | departed hqueue hdue hjob => exact hregular.depart ho hroot hqueue hjob rfl rfl rfl
  | landed hd hopen hending => exact hregular.land ho hroot hd hopen

/-- When a key is stored anew only while it is grounded, its trigger fires come one at a time. -/
theorem Lineage.regular (h : Lineage harness (Grounded key) t rootOf) : Regular t key := by
  induction h with
  | start registry listeners matchers => exact ⟨fun _ => ⟨rfl, rfl⟩, fun _ h => by cases h⟩
  | next before step hsame hgrounded ih =>
    have ho := before.reachable.orderly
    exact (step.effect ho).regular ho before.rooted ih
  | land outcome now before hd hopen hending ih =>
    exact ih.land before.reachable.orderly before.rooted hd hopen

end

end Traffic

end JobEngine
