import Mathlib.Order.Bounds.Defs
import JobEngine.Proofs.Slots
import JobEngine.Time.Offset
/-! The next slot of a schedule, sought operation by operation on numbers of bounded size. No
operation of the search leaves its bounds, and what is found is the least slot to come, to the
nanosecond, as long as the calendar has it. -/

namespace JobEngine

namespace Offset

variable {d : Duration} {n : Int}

theorem bounds (o : Offset) :
    -9223372036854775807000000 ≤ o.nanos ∧ o.nanos ≤ 9223372036854775807000000 :=
  ⟨o.min_le, o.le_max⟩

theorem count_eq (o : Offset) : o.count = .ok o.nanos := by
  have hbounds := o.bounds
  have hsubsecond : o.subsecond < 1000000000 := o.subsecond_lt
  have hnanos : o.nanos = o.seconds * 1000000000 + o.subsecond := rfl
  have hsum : o.wholeSeconds * 1000000000 + o.remainder = o.nanos := by
    unfold wholeSeconds remainder nanosPerSecond
    split <;> omega
  have hremainder : -1000000000 ≤ o.remainder ∧ o.remainder ≤ 1000000000 := by
    unfold remainder nanosPerSecond
    split <;> omega
  have hroom : (twoTo (128 - 1) : Int) = 170141183460469231731687303715884105728 := by decide
  have hmul : Signed.mul o.wholeSeconds nanosPerSecond = .ok (o.wholeSeconds * 1000000000) :=
    Signed.within_eq_ok (by rw [hroom]; change _ ≤ _ * 1000000000; omega)
      (by rw [hroom]; change _ * 1000000000 < _; omega)
  have hadd : Signed.add (o.wholeSeconds * 1000000000) o.remainder = .ok o.nanos := by
    unfold Signed.add
    rw [hsum]
    exact Signed.within_eq_ok (by rw [hroom]; omega) (by rw [hroom]; omega)
  unfold count
  rw [hmul]
  exact hadd

theorem ofNanos?_eq_some (hmin : -(Duration.maxOffsetNanos : Int) ≤ n)
    (hmax : n ≤ Duration.maxOffsetNanos) : ∃ o, ofNanos? n = some o ∧ o.nanos = n := by
  have hoffset : Duration.maxOffsetNanos = 9223372036854775807000000 := by decide
  have hroom : (twoTo (64 - 1) : Int) = 9223372036854775808 := by decide
  have hseconds : Signed.within 64 (n / nanosPerSecond) = .ok (n / nanosPerSecond) := by
    unfold nanosPerSecond
    exact Signed.within_eq_ok (by rw [hroom]; omega) (by rw [hroom]; omega)
  have hparts : n / nanosPerSecond * nanosPerSecond + (n % nanosPerSecond).toNat = n := by
    unfold nanosPerSecond
    omega
  have hsubsecond : (n % nanosPerSecond).toNat < nanosPerSecond := by
    unfold nanosPerSecond
    omega
  obtain ⟨o, ho, hnanos⟩ := ofParts?_eq_some (n / nanosPerSecond) hsubsecond
    (by rw [hparts]; exact hmin) (by rw [hparts]; exact hmax)
  refine ⟨o, ?_, hnanos.trans hparts⟩
  unfold ofNanos?
  rw [hseconds]
  exact ho

theorem ofNanos?_eq_none (h : (Duration.maxOffsetNanos : Int) < n) : ofNanos? n = none := by
  unfold ofNanos?
  split
  · rfl
  next seconds hseconds =>
    have heq : n / nanosPerSecond = seconds := by
      unfold Signed.within at hseconds
      split at hseconds
      · exact Except.ok.inj hseconds
      · cases hseconds
    refine ofParts?_eq_none ?_
    rw [← heq]
    unfold nanosPerSecond
    omega

private theorem ofDuration?_eq_some (h : d.isOffset) :
    ∃ o, ofDuration? d = some o ∧ o.nanos = d.nanos := by
  have hmax : d.nanos ≤ Duration.maxOffsetNanos := of_decide_eq_true h
  have hparts : (d.seconds : Int) * nanosPerSecond + d.subsecond = d.nanos := by
    have := d.seconds_mul_add_subsecond
    omega
  have hsubsecond : d.subsecond < nanosPerSecond := Nat.mod_lt _ (by decide)
  obtain ⟨o, ho, hnanos⟩ := ofParts?_eq_some d.seconds hsubsecond
    (by rw [hparts]; omega) (by rw [hparts]; omega)
  exact ⟨o, ho, hnanos.trans hparts⟩

private theorem ofDuration?_eq_none (h : d.isOffset = false) : ofDuration? d = none := by
  have hmax : Duration.maxOffsetNanos < d.nanos := Nat.lt_of_not_le (of_decide_eq_false h)
  refine ofParts?_eq_none ?_
  have := d.seconds_mul_add_subsecond
  omega

theorem between_eq (earlier later : Instant) :
    ∃ o, between earlier later = .ok o ∧ o.nanos = later.nanos - earlier.nanos := by
  have hlow := earlier.min_le
  have hhigh := earlier.le_max
  have hlow' := later.min_le
  have hhigh' := later.le_max
  have hoffset : Duration.maxOffsetNanos = 9223372036854775807000000 := by decide
  unfold Instant.minNanos at hlow hlow'
  unfold Instant.maxNanos at hhigh hhigh'
  obtain ⟨o, ho, hnanos⟩ :=
    ofNanos?_eq_some (n := later.nanos - earlier.nanos) (by omega) (by omega)
  refine ⟨o, ?_, hnanos⟩
  unfold between
  rw [ho]

end Offset

theorem Instant.shift?_eq_none_of_lt {t : Instant} {n : Int}
    (h : (Duration.maxOffsetNanos : Int) < n) : t.shift? n = none := by
  refine dif_neg fun hin => ?_
  have hlow := t.min_le
  have hhigh := hin.2
  have hoffset : Duration.maxOffsetNanos = 9223372036854775807000000 := by decide
  unfold Instant.minNanos at hlow
  unfold Instant.maxNanos at hhigh
  omega

namespace Schedule

variable {interval : Duration} {step : Offset} {previous now : Instant}

def jump (step : Offset) (previous now : Instant) : Except ArithmeticFault (Option Instant) := do
  let stepNanos ← step.count
  let elapsed ← (← Offset.between previous now).count
  let slots ← Signed.add (← Signed.div elapsed stepNanos) 1
  return do
    let nanos ← (Signed.mul stepNanos slots).toOption
    previous.add? (← Offset.ofNanos? nanos)

def search (s : Schedule) (previous now : Instant) : Except ArithmeticFault (Option Instant) :=
  match s with
  | .once _ => .ok none
  | .every interval _ =>
    match Offset.ofDuration? interval with
    | none => .ok none
    | some step =>
      if step.nanos ≤ 0 then .ok none
      else
        match previous.add? step with
        | none => .ok none
        | some next => if now < next then .ok (some next) else jump step previous now

theorem tdiv_add_one (hpos : 0 < interval.nanos)
    (hnear : previous.nanos < now.nanos + interval.nanos) :
    (now.nanos - previous.nanos).tdiv interval.nanos + 1 = ahead interval previous now := by
  by_cases hpassed : previous.nanos ≤ now.nanos
  · have hdiv := Int.ediv_nonneg (Int.sub_nonneg.mpr hpassed) (Int.natCast_nonneg interval.nanos)
    rw [Int.tdiv_eq_ediv_of_nonneg (Int.sub_nonneg.mpr hpassed)]
    unfold ahead slotsUntil
    omega
  · have hdiv : (previous.nanos - now.nanos).tdiv interval.nanos = 0 :=
      Int.tdiv_eq_zero_of_lt (by omega) (by omega)
    rw [ahead_eq_one hpos (by omega), ← Int.neg_sub, Int.neg_tdiv, hdiv]
    rfl

theorem mul_ahead_le (hpos : 0 < interval.nanos) :
    interval.nanos * ahead interval previous now ≤
      max 0 (now.nanos - previous.nanos) + interval.nanos := by
  by_cases hnow : now.nanos < previous.nanos + interval.nanos
  · rw [ahead_eq_one hpos hnow]
    omega
  · have hfloor := Int.mul_ediv_self_le (x := now.nanos - previous.nanos)
      (k := (interval.nanos : Int)) (by omega)
    rw [ahead_eq_slotsUntil hpos (by omega)]
    unfold slotsUntil
    rw [Int.mul_add, Int.mul_one]
    omega

theorem jump_eq (hstep : step.nanos = interval.nanos) (hpos : 0 < interval.nanos)
    (hnear : previous.nanos < now.nanos + interval.nanos) :
    jump step previous now =
      .ok (previous.shift? (interval.nanos * ahead interval previous now)) := by
  obtain ⟨elapsed, hbetween, helapsed⟩ := Offset.between_eq previous now
  have hbound := elapsed.bounds
  have hstepBound := step.bounds
  have hroom : (twoTo (128 - 1) : Int) = 170141183460469231731687303715884105728 := by decide
  have hslots : elapsed.nanos.tdiv step.nanos + 1 = ahead interval previous now := by
    rw [helapsed, hstep]
    exact tdiv_add_one hpos hnear
  have hone : 1 ≤ ahead interval previous now := Int.le_max_left _ _
  have hproduct : step.nanos * ahead interval previous now ≤ max 0 elapsed.nanos + step.nanos := by
    rw [helapsed, hstep]
    exact mul_ahead_le hpos
  have hcount : ahead interval previous now ≤ step.nanos * ahead interval previous now := by
    have hmul := Int.mul_le_mul_of_nonneg_right (a := 1) (b := step.nanos) (by omega)
      (c := ahead interval previous now) (by omega)
    rwa [Int.one_mul] at hmul
  have hdiv : Signed.div elapsed.nanos step.nanos = .ok (elapsed.nanos.tdiv step.nanos) := by
    unfold Signed.div
    rw [if_neg (by omega)]
    exact Signed.within_eq_ok (by rw [hroom]; omega) (by rw [hroom]; omega)
  have hadd : Signed.add (elapsed.nanos.tdiv step.nanos) 1 =
      .ok (ahead interval previous now) := by
    unfold Signed.add
    rw [hslots]
    exact Signed.within_eq_ok (by rw [hroom]; omega) (by rw [hroom]; omega)
  have hmul : Signed.mul step.nanos (ahead interval previous now) =
      .ok (step.nanos * ahead interval previous now) :=
    Signed.within_eq_ok (by rw [hroom]; omega) (by rw [hroom]; omega)
  have hjump : jump step previous now =
      .ok ((Offset.ofNanos? (step.nanos * ahead interval previous now)).bind previous.add?) := by
    unfold jump
    simp only [Offset.count_eq, hbetween, hdiv, hadd, hmul, bind, Except.bind]
    rfl
  rw [hjump, ← hstep]
  by_cases hfar : (Duration.maxOffsetNanos : Int) < step.nanos * ahead interval previous now
  · rw [Offset.ofNanos?_eq_none hfar, Instant.shift?_eq_none_of_lt hfar]
    rfl
  · obtain ⟨o, ho, hnanos⟩ := Offset.ofNanos?_eq_some
      (n := step.nanos * ahead interval previous now) (by omega) (by omega)
    rw [ho, ← hnanos]
    rfl

/-- The search has an answer, which is the next slot. -/
theorem search_eq (s : Schedule) (previous now : Instant) :
    s.search previous now = .ok (s.nextFireAfter previous now) := by
  cases s with
  | once t => rfl
  | every interval startAt =>
    cases hoffset : interval.isOffset with
    | false =>
      have hnone : (every interval startAt).nextFireAfter previous now = none := by
        simp only [nextFireAfter, hoffset, Bool.not_false, Bool.or_true, ↓reduceIte]
      rw [hnone]
      simp only [search, Offset.ofDuration?_eq_none hoffset]
    | true =>
      obtain ⟨step, hstep, hnanos⟩ := Offset.ofDuration?_eq_some hoffset
      simp only [search, hstep]
      by_cases hzero : interval.nanos = 0
      · have hskip : interval.isZero = true := beq_iff_eq.mpr hzero
        rw [if_pos (by omega)]
        simp only [nextFireAfter, hskip, Bool.true_or, ↓reduceIte]
      · have hskip : interval.isZero = false := beq_eq_false_iff_ne.mpr hzero
        have hadd : previous.add? step = previous.shift? interval.nanos :=
          congrArg previous.shift? hnanos
        rw [if_neg (by omega), hadd]
        simp only [nextFireAfter, hskip, hoffset, Bool.not_true, Bool.or_self, Bool.false_eq_true,
          ↓reduceIte]
        cases hnext : previous.shift? interval.nanos with
        | none => rfl
        | some next =>
          simp only [Option.bind_eq_bind, Option.bind_some]
          split
          · rfl
          next hnow =>
            have hnanosNext := Instant.ofNanos?_eq_some_iff.mp hnext
            change ¬now.nanos < next.nanos at hnow
            rw [jump_eq hnanos (Nat.pos_of_ne_zero hzero) (by omega),
              ahead_eq_slotsUntil (Nat.pos_of_ne_zero hzero) (by omega)]

/-- The places, in nanoseconds, that lie a whole number of intervals after the previous slot and
after the present. The calendar may not reach that far. -/
def placesAhead (interval : Duration) (previous now : Instant) : Set Int :=
  {n | ∃ k : Int, 1 ≤ k ∧ n = previous.nanos + k * interval.nanos ∧ now.nanos < n}

private theorem isLeast_placesAhead (hpos : 0 < interval.nanos) :
    IsLeast (placesAhead interval previous now)
      (previous.nanos + ahead interval previous now * interval.nanos) := by
  refine ⟨⟨_, Int.le_max_left _ _, rfl, lt_ahead_mul hpos⟩, ?_⟩
  rintro _ ⟨k, hk, rfl, hnow⟩
  have hmul := Int.mul_le_mul_of_nonneg_right (ahead_le hpos hk hnow)
    (Int.natCast_nonneg interval.nanos)
  omega

/-- The next fire is found without any operation that leaves its bounds, and it is exact. It is the
least instant that lies a whole number of intervals after the previous one and after the present,
when the calendar has that instant. The jump leads there from every slot that lies less than an
interval ahead of the present, so it agrees with the short way wherever it counts an interval at
all. There is no next fire when the interval is zero or longer than the longest offset, nor for a
single fire. -/
theorem next_fire_exact (s : Schedule) (previous now : Instant) :
    s.search previous now = .ok (s.nextFireAfter previous now) ∧
      match s with
      | .once _ => s.nextFireAfter previous now = none
      | .every interval _ =>
        if 0 < interval.nanos ∧ interval.nanos ≤ Duration.maxOffsetNanos then
          (∃ n, IsLeast (placesAhead interval previous now) n ∧
            s.nextFireAfter previous now = Instant.ofNanos? n) ∧
          ∃ step, Offset.ofDuration? interval = some step ∧
            (previous.nanos < now.nanos + interval.nanos →
              jump step previous now = .ok (s.nextFireAfter previous now))
        else s.nextFireAfter previous now = none := by
  refine ⟨search_eq s previous now, ?_⟩
  cases s with
  | once t => rfl
  | every interval startAt =>
    dsimp only
    split
    next hstep =>
      obtain ⟨hpos, hmax⟩ := hstep
      have hoffset : interval.isOffset := decide_eq_true hmax
      have hnext : (every interval startAt).nextFireAfter previous now =
          previous.shift? (ahead interval previous now * interval.nanos) :=
        nextFireAfter_eq hpos hoffset
      obtain ⟨step, hparts, hnanos⟩ := Offset.ofDuration?_eq_some hoffset
      refine ⟨⟨_, isLeast_placesAhead hpos, hnext⟩, step, hparts, fun hnear => ?_⟩
      rw [jump_eq hnanos hpos hnear, hnext, Int.mul_comm]
    next hstep =>
      have hskip : interval.isZero || !interval.isOffset := by
        simp only [Duration.isZero, Duration.isOffset, Bool.or_eq_true, beq_iff_eq,
          Bool.not_eq_true', decide_eq_false_iff_not]
        omega
      simp only [nextFireAfter, hskip, ↓reduceIte]

/-- After an hour of missed slots, one in every quarter of a millisecond. -/
theorem next_fire_after_backlog :
    let hour := Duration.ofSeconds 3600
    ∃ n, IsLeast (placesAhead (.clamp 250000) .epoch (Instant.epoch.plus hour)) n ∧
      (every (.clamp 250000) .epoch).nextFireAfter .epoch (Instant.epoch.plus hour) =
        Instant.ofNanos? n := by
  have h := (next_fire_exact (every (.clamp 250000) .epoch) .epoch
    (Instant.epoch.plus (Duration.ofSeconds 3600))).2
  exact ((if_pos (by decide)).mp h).1

end Schedule

end JobEngine
