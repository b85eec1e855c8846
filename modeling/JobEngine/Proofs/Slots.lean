import JobEngine.Job.Trigger
import JobEngine.Time.Stored
/-! The slots of a repeating schedule are the whole multiples of its interval after its start. What
follows a slot is the first one that lies after it and after the present, as long as the calendar
has it. -/

namespace JobEngine

theorem Instant.shift?_eq_none_of_le {t : Instant} {a b : Int} (h : t.shift? a = none) (ha : 0 ≤ a)
    (hab : a ≤ b) : t.shift? b = none := by
  cases hb : t.shift? b with
  | none => rfl
  | some u =>
    have hu := Instant.ofNanos?_eq_some_iff.mp hb
    have hlow := t.min_le
    have hhigh := u.le_max
    have hinside : Instant.minNanos ≤ t.nanos + a ∧ t.nanos + a ≤ Instant.maxNanos := by omega
    simp [Instant.shift?, Instant.ofNanos?, hinside] at h

namespace Schedule

variable {interval : Duration} {startAt previous now slot : Instant}

def IsSlot (interval : Duration) (startAt t : Instant) : Prop :=
  ∃ n : Nat, t.nanos = startAt.nanos + n * interval.nanos

def slotNumber (interval : Duration) (startAt t : Instant) : Nat :=
  ((t.nanos - startAt.nanos) / interval.nanos).toNat

/-- The first slot that lies after both the previous one and the present. -/
structure IsNextSlot (interval : Duration) (startAt previous now slot : Instant) : Prop where
  onGrid : IsSlot interval startAt slot
  afterPrevious : previous < slot
  afterNow : now < slot
  first : ∀ t, IsSlot interval startAt t → previous < t → now < t → slot ≤ t

theorem isSlot_start (interval : Duration) (startAt : Instant) : IsSlot interval startAt startAt :=
  ⟨0, by simp⟩

private theorem slotNumber_eq {n : Nat} {t : Instant} (hstep : 0 < interval.nanos)
    (h : t.nanos = startAt.nanos + n * interval.nanos) : slotNumber interval startAt t = n := by
  have hpos : (interval.nanos : Int) ≠ 0 := by omega
  unfold slotNumber
  rw [h, show startAt.nanos + n * interval.nanos - startAt.nanos = n * interval.nanos by omega,
    Int.mul_ediv_cancel _ hpos, Int.toNat_natCast]

theorem IsSlot.nanos_eq {t : Instant} (h : IsSlot interval startAt t) :
    t.nanos = startAt.nanos + slotNumber interval startAt t * interval.nanos := by
  obtain ⟨n, hn⟩ := h
  by_cases hstep : interval.nanos = 0
  · simp [hn, hstep]
  · rw [slotNumber_eq (Nat.pos_of_ne_zero hstep) hn]
    exact hn

theorem IsSlot.exists_intervals (hprevious : IsSlot interval startAt previous)
    (hslot : IsSlot interval startAt slot) (hlater : previous < slot) :
    0 < interval.nanos ∧
      ∃ k : Int, 1 ≤ k ∧ slot.nanos = previous.nanos + k * interval.nanos := by
  obtain ⟨m, hm⟩ := hprevious
  obtain ⟨n, hn⟩ := hslot
  change previous.nanos < slot.nanos at hlater
  rw [hm, hn] at hlater
  have hless : (m : Int) * interval.nanos < n * interval.nanos := by omega
  have hmn : (m : Int) < n := Int.lt_of_mul_lt_mul_right hless (Int.natCast_nonneg _)
  refine ⟨Nat.pos_of_ne_zero fun hzero => by simp [hzero] at hless, n - m, by omega, ?_⟩
  rw [hm, hn, Int.sub_mul]
  omega

theorem IsSlot.slotNumber_lt (hprevious : IsSlot interval startAt previous)
    (hslot : IsSlot interval startAt slot) (hlater : previous < slot) :
    slotNumber interval startAt previous < slotNumber interval startAt slot := by
  change previous.nanos < slot.nanos at hlater
  rw [hprevious.nanos_eq, hslot.nanos_eq] at hlater
  have hless := Int.lt_of_add_lt_add_left hlater
  have hnumbers := Int.lt_of_mul_lt_mul_right hless (Int.natCast_nonneg _)
  omega

theorem IsSlot.isOffset (hprevious : IsSlot interval startAt previous)
    (hslot : IsSlot interval startAt slot) (hlater : previous < slot) : interval.isOffset := by
  obtain ⟨-, k, hk, heq⟩ := hprevious.exists_intervals hslot hlater
  have hone := Int.mul_le_mul_of_nonneg_right hk (Int.natCast_nonneg interval.nanos)
  have hbetween : previous.nanos + interval.nanos ≤ slot.nanos := by omega
  exact Duration.isOffset_of_le hbetween

theorem IsNextSlot.unique {slot' : Instant} (h : IsNextSlot interval startAt previous now slot)
    (h' : IsNextSlot interval startAt previous now slot') : slot = slot' :=
  Instant.ext_nanos (Int.le_antisymm (h.first slot' h'.onGrid h'.afterPrevious h'.afterNow)
    (h'.first slot h.onGrid h.afterPrevious h.afterNow))

def ahead (interval : Duration) (previous now : Instant) : Int :=
  max 1 (slotsUntil interval.nanos previous now)

section

variable (hpos : 0 < interval.nanos)

include hpos

theorem lt_ahead_mul :
    now.nanos < previous.nanos + ahead interval previous now * interval.nanos := by
  have hstep : (0 : Int) < interval.nanos := Int.natCast_pos.mpr hpos
  have hfloor := Int.lt_ediv_add_one_mul_self (now.nanos - previous.nanos) hstep
  have hmax : slotsUntil interval.nanos previous now ≤ ahead interval previous now :=
    Int.le_max_right _ _
  have hmul := Int.mul_le_mul_of_nonneg_right hmax (Int.le_of_lt hstep)
  unfold slotsUntil at hmul
  omega

theorem ahead_le {k : Int} (hk : 1 ≤ k) (hnow : now.nanos < previous.nanos + k * interval.nanos) :
    ahead interval previous now ≤ k := by
  have hstep : (0 : Int) < interval.nanos := Int.natCast_pos.mpr hpos
  have hdiv : (now.nanos - previous.nanos) / interval.nanos < k :=
    (Int.ediv_lt_iff_lt_mul hstep).mpr (by omega)
  exact Int.max_le.mpr ⟨hk, hdiv⟩

theorem ahead_eq_one (hnow : now.nanos < previous.nanos + interval.nanos) :
    ahead interval previous now = 1 := by
  have hle := ahead_le hpos (Int.le_refl 1) (by rw [Int.one_mul]; exact hnow)
  exact Int.le_antisymm hle (Int.le_max_left _ _)

theorem ahead_eq_slotsUntil (hnow : previous.nanos + interval.nanos ≤ now.nanos) :
    ahead interval previous now = slotsUntil interval.nanos previous now := by
  have hstep : (0 : Int) < interval.nanos := Int.natCast_pos.mpr hpos
  have hdiv : 1 ≤ (now.nanos - previous.nanos) / interval.nanos :=
    (Int.le_ediv_iff_mul_le hstep).mpr (by omega)
  unfold ahead slotsUntil
  omega

private theorem ahead_mul_le {t : Instant} (hprevious : IsSlot interval startAt previous)
    (ht : IsSlot interval startAt t) (hprev : previous < t) (hnow : now < t) :
    previous.nanos + ahead interval previous now * interval.nanos ≤ t.nanos := by
  obtain ⟨-, k, hk, heq⟩ := hprevious.exists_intervals ht hprev
  change now.nanos < t.nanos at hnow
  have hless := Int.mul_le_mul_of_nonneg_right (ahead_le hpos hk (heq ▸ hnow))
    (Int.natCast_nonneg interval.nanos)
  omega

theorem isNextSlot_of_nanos_eq (hprevious : IsSlot interval startAt previous)
    (heq : slot.nanos = previous.nanos + ahead interval previous now * interval.nanos) :
    IsNextSlot interval startAt previous now slot := by
  have hone : 1 ≤ ahead interval previous now := Int.le_max_left _ _
  have hmul := Int.mul_le_mul_of_nonneg_right hone (Int.natCast_nonneg interval.nanos)
  refine ⟨?_, ?_, ?_, fun t ht hprev hnow => ?_⟩
  · obtain ⟨n, hn⟩ := hprevious
    refine ⟨n + (ahead interval previous now).toNat, ?_⟩
    rw [heq, hn, Int.natCast_add, Int.toNat_of_nonneg (by omega), Int.add_mul]
    omega
  · change previous.nanos < slot.nanos
    omega
  · change now.nanos < slot.nanos
    rw [heq]
    exact lt_ahead_mul hpos
  · change slot.nanos ≤ t.nanos
    rw [heq]
    exact ahead_mul_le hpos hprevious ht hprev hnow

theorem exists_isNextSlot {t : Instant} (hprevious : IsSlot interval startAt previous)
    (ht : IsSlot interval startAt t) (hprev : previous < t) (hnow : now < t) :
    ∃ slot, IsNextSlot interval startAt previous now slot ∧
      slot.nanos = previous.nanos + ahead interval previous now * interval.nanos := by
  have hle := ahead_mul_le hpos hprevious ht hprev hnow
  have hone : 1 ≤ ahead interval previous now := Int.le_max_left _ _
  have hmul := Int.mul_le_mul_of_nonneg_right hone (Int.natCast_nonneg interval.nanos)
  let slot : Instant :=
    ⟨previous.nanos + ahead interval previous now * interval.nanos,
      by have := previous.min_le; omega, by have := t.le_max; omega⟩
  exact ⟨slot, isNextSlot_of_nanos_eq hpos hprevious rfl, rfl⟩

private theorem isNextSlot_iff (hprevious : IsSlot interval startAt previous) :
    IsNextSlot interval startAt previous now slot ↔
      slot.nanos = previous.nanos + ahead interval previous now * interval.nanos := by
  constructor
  · intro next
    obtain ⟨slot', next', heq⟩ :=
      exists_isNextSlot hpos hprevious next.onGrid next.afterPrevious next.afterNow
    rw [next.unique next']
    exact heq
  · exact isNextSlot_of_nanos_eq hpos hprevious

theorem nextFireAfter_eq (hoffset : interval.isOffset) :
    (every interval startAt).nextFireAfter previous now =
      previous.shift? (ahead interval previous now * interval.nanos) := by
  have hzero : interval.isZero = false := by simp [Duration.isZero, Nat.ne_of_gt hpos]
  unfold nextFireAfter
  simp only [hzero, hoffset, Bool.not_true, Bool.or_self, Bool.false_eq_true, ↓reduceIte]
  cases hnext : previous.shift? interval.nanos with
  | none =>
    -- where one interval leads past the calendar, more of them do as well
    have hone := Int.mul_le_mul_of_nonneg_right
      (Int.le_max_left 1 (slotsUntil interval.nanos previous now))
      (Int.natCast_nonneg interval.nanos)
    exact (Instant.shift?_eq_none_of_le hnext (Int.natCast_nonneg _) (by
      rw [Int.one_mul] at hone
      exact hone)).symm
  | some next =>
    have hnanos := Instant.ofNanos?_eq_some_iff.mp hnext
    simp only [Option.bind_eq_bind, Option.bind_some]
    split
    next hnow =>
      change now.nanos < next.nanos at hnow
      rw [ahead_eq_one hpos (by omega), Int.one_mul]
      exact hnext.symm
    next hnow =>
      change ¬now.nanos < next.nanos at hnow
      rw [ahead_eq_slotsUntil hpos (by omega), Int.mul_comm]

end

/-- The next fire of a repeating trigger is the next slot, when the calendar has one. -/
theorem nextFireAfter_eq_some_iff (hprevious : IsSlot interval startAt previous) :
    (every interval startAt).nextFireAfter previous now = some slot ↔
      IsNextSlot interval startAt previous now slot := by
  by_cases hstep : 0 < interval.nanos ∧ interval.isOffset
  · rw [nextFireAfter_eq hstep.1 hstep.2, isNextSlot_iff hstep.1 hprevious]
    exact Instant.ofNanos?_eq_some_iff
  · have hnone : (every interval startAt).nextFireAfter previous now = none := by
      have hskip : interval.isZero || !interval.isOffset := by
        simp only [Duration.isZero, Bool.or_eq_true, beq_iff_eq, Bool.not_eq_true']
        by_cases hoffset : interval.isOffset
        · exact .inl (Nat.eq_zero_of_not_pos fun hpos => hstep ⟨hpos, hoffset⟩)
        · exact .inr (Bool.eq_false_iff.mpr hoffset)
      unfold nextFireAfter
      simp only [hskip, ↓reduceIte]
    rw [hnone]
    refine iff_of_false nofun fun next => hstep ⟨?_, ?_⟩
    · exact (hprevious.exists_intervals next.onGrid next.afterPrevious).1
    · exact hprevious.isOffset next.onGrid next.afterPrevious

/-- A repeating trigger ends just when the calendar has no later slot. -/
theorem nextFireAfter_eq_none_iff (hprevious : IsSlot interval startAt previous) :
    (every interval startAt).nextFireAfter previous now = none ↔
      ∀ t, IsSlot interval startAt t → previous < t → ¬now < t := by
  rw [Option.eq_none_iff_forall_ne_some]
  constructor
  · intro hnone t ht hprev hnow
    have hpos := (hprevious.exists_intervals ht hprev).1
    obtain ⟨slot, next, -⟩ := exists_isNextSlot hpos hprevious ht hprev hnow
    exact hnone slot ((nextFireAfter_eq_some_iff hprevious).mpr next)
  · intro hlast slot hnext
    have next := (nextFireAfter_eq_some_iff hprevious).mp hnext
    exact hlast slot next.onGrid next.afterPrevious next.afterNow

end Schedule

end JobEngine
