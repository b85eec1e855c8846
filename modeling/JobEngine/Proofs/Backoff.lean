import JobEngine.Proofs.RefireChain
import JobEngine.Proofs.Succession
import JobEngine.Time.Offset
/-! How the delay before an attempt grows. Attempts are counted in 32 bits and a duration is kept as
64 bits of seconds and 32 of nanoseconds, where nothing overflows. What comes out is the base delay
times its factor, cut at the longest duration and then at the cap, and so it never decreases from
one attempt to the next. -/

namespace JobEngine

namespace Unsigned

def within (bits n : Nat) : Except ArithmeticFault Nat :=
  if n < twoTo bits then .ok n else .error .overflow

theorem within_eq_ok {bits n : Nat} (h : n < twoTo bits) : within bits n = .ok n := if_pos h

theorem within_eq_error {bits n : Nat} (h : twoTo bits ≤ n) : within bits n = .error .overflow :=
  if_neg (Nat.not_lt.mpr h)

private theorem within_add (bits a b : Nat) :
    (within bits a >>= fun n => within bits (n + b)) = within bits (a + b) := by
  by_cases h : a < twoTo bits
  · rw [within_eq_ok h]
    rfl
  · rw [within_eq_error (Nat.le_of_not_lt h), within_eq_error (by omega)]
    rfl

def sub (a b : Nat) : Except ArithmeticFault Nat :=
  if b ≤ a then .ok (a - b) else .error .overflow

/-- Moves the bits of a number up. Those that leave it are lost, but it cannot lose all of them. -/
def shiftLeft? (bits n places : Nat) : Option Nat :=
  if places < bits then some (n * twoTo places % twoTo bits) else none

end Unsigned

structure SplitDuration where
  seconds : Nat
  subsecond : Nat
  seconds_lt : seconds < twoTo 64
  subsecond_lt : subsecond < nanosPerSecond

namespace SplitDuration

def nanos (s : SplitDuration) : Nat := s.seconds * nanosPerSecond + s.subsecond

def ofParts (seconds subsecond : Nat) : Except ArithmeticFault SplitDuration :=
  if h : seconds < twoTo 64 ∧ subsecond < nanosPerSecond then .ok ⟨seconds, subsecond, h.1, h.2⟩
  else .error .overflow

def zero : SplitDuration := ⟨0, 0, by decide, by decide⟩

def longest : SplitDuration := ⟨twoTo 64 - 1, nanosPerSecond - 1, by decide, by decide⟩

def isZero (s : SplitDuration) : Bool := s.seconds == 0 && s.subsecond == 0

def times (s : SplitDuration) (n : Nat) : Except ArithmeticFault SplitDuration := do
  let total ← Unsigned.within 64 (s.subsecond * n)
  let carried := do
    let seconds ← Unsigned.within 64 (s.seconds * n)
    Unsigned.within 64 (seconds + total / nanosPerSecond)
  match carried with
  | .ok seconds => ofParts seconds (total % nanosPerSecond)
  | .error _ => .ok longest

def shorter (a b : SplitDuration) : Bool :=
  a.seconds < b.seconds || (a.seconds == b.seconds && a.subsecond < b.subsecond)

def min (a b : SplitDuration) : SplitDuration := if b.shorter a then b else a

def of (d : Duration) : SplitDuration where
  seconds := d.seconds
  subsecond := d.subsecond
  seconds_lt := by
    have hle := d.nanos_le
    have hmax : Duration.maxNanos = 18446744073709551615999999999 := by decide
    have hroom : twoTo 64 = 18446744073709551616 := by decide
    unfold Duration.seconds nanosPerSecond
    omega
  subsecond_lt := Nat.mod_lt _ (by decide)

section

variable {s t : SplitDuration} {d d' : Duration} {n : Nat}

theorem eq_of_nanos (h : s.nanos = t.nanos) : s = t := by
  have hs := s.subsecond_lt
  have ht := t.subsecond_lt
  unfold nanos nanosPerSecond at h
  unfold nanosPerSecond at hs ht
  have hseconds : s.seconds = t.seconds := by omega
  have hsubsecond : s.subsecond = t.subsecond := by omega
  cases s
  cases t
  simp_all

@[simp] theorem nanos_of (d : Duration) : (of d).nanos = d.nanos := d.seconds_mul_add_subsecond

@[simp] private theorem isZero_of (d : Duration) : (of d).isZero = d.isZero := by
  rw [Bool.eq_iff_iff]
  simp only [isZero, of, Duration.isZero, Duration.seconds, Duration.subsecond, Bool.and_eq_true,
    beq_iff_eq]
  unfold nanosPerSecond
  omega

private theorem zero_eq : zero = of Duration.zero := by
  apply eq_of_nanos
  rw [nanos_of]
  rfl

private theorem shorter_iff : s.shorter t ↔ s.nanos < t.nanos := by
  have hs := s.subsecond_lt
  have ht := t.subsecond_lt
  unfold nanosPerSecond at hs ht
  simp only [shorter, nanos, nanosPerSecond, Bool.or_eq_true, Bool.and_eq_true, beq_iff_eq,
    decide_eq_true_eq]
  omega

private theorem min_of (d d' : Duration) : (of d).min (of d') = of (d.min d') := by
  simp only [min, Duration.min, shorter_iff, nanos_of]
  by_cases h : d.nanos ≤ d'.nanos
  · rw [if_pos h, if_neg (Nat.not_lt.mpr h)]
  · rw [if_neg h, if_pos (Nat.lt_of_not_le h)]

/-- Multiplying never fails, and is exact up to the longest duration. -/
theorem times_of (d : Duration) (h : n < twoTo 32) : (of d).times n = .ok (of (d.scale n)) := by
  have hsub : d.subsecond < 1000000000 := Nat.mod_lt _ (by decide)
  have hroom : twoTo 64 = 18446744073709551616 := by decide
  have hcount : twoTo 32 = 4294967296 := by decide
  have hmax : Duration.maxNanos = 18446744073709551615999999999 := by decide
  rw [hcount] at h
  have htotal : d.subsecond * n < 1000000000 * 4294967296 := Nat.mul_lt_mul'' hsub h
  have hproduct : d.nanos * n = d.seconds * n * 1000000000 + d.subsecond * n := by
    rw [← d.seconds_mul_add_subsecond, Nat.add_mul, Nat.mul_right_comm]
    rfl
  have hscaled : (of (d.scale n)).nanos = Min.min (d.nanos * n) Duration.maxNanos := nanos_of _
  have htimes : (of d).times n =
      match Unsigned.within 64 (d.seconds * n + d.subsecond * n / nanosPerSecond) with
      | .ok seconds => ofParts seconds (d.subsecond * n % nanosPerSecond)
      | .error _ => .ok longest := by
    rw [← Unsigned.within_add]
    change (Unsigned.within 64 (d.subsecond * n) >>= _) = _
    rw [Unsigned.within_eq_ok (by omega)]
    rfl
  rw [htimes]
  unfold nanosPerSecond
  by_cases hfits : d.seconds * n + d.subsecond * n / 1000000000 < twoTo 64
  · have hrest : d.subsecond * n % 1000000000 < nanosPerSecond := Nat.mod_lt _ (by decide)
    rw [Unsigned.within_eq_ok hfits]
    refine (dif_pos ⟨hfits, hrest⟩).trans (congrArg Except.ok (eq_of_nanos ?_))
    change (d.seconds * n + d.subsecond * n / 1000000000) * 1000000000 +
      d.subsecond * n % 1000000000 = _
    omega
  · have hlongest : longest.nanos = 18446744073709551615999999999 := by decide
    rw [Unsigned.within_eq_error (Nat.le_of_not_lt hfits)]
    refine congrArg Except.ok (eq_of_nanos ?_)
    omega

end

end SplitDuration

namespace Backoff

def grow (strategy : BackoffStrategy) (base : SplitDuration) (attempt : Nat) :
    Except ArithmeticFault SplitDuration :=
  match strategy with
  | .fixed => .ok base
  | .linear => base.times attempt
  | .exponential => do
    let places ← Unsigned.sub attempt 1
    base.times ((Unsigned.shiftLeft? 32 1 places).getD maxAttempt)

def compute (b : Backoff) (attempt : Nat) : Except ArithmeticFault SplitDuration :=
  let base := SplitDuration.of b.base
  let cap := SplitDuration.of b.cap
  if attempt = 0 || base.isZero then .ok .zero
  else do
    let delay ← grow b.strategy base attempt
    return if cap.isZero then delay else delay.min cap

/-- The nanoseconds that a strategy asks for before an attempt, when nothing bounds them. -/
def ideal (b : Backoff) (attempt : Nat) : Nat :=
  match b.strategy with
  | .fixed => b.base.nanos
  | .linear => b.base.nanos * attempt
  | .exponential => b.base.nanos * twoTo (attempt - 1)

def cut (b : Backoff) (delay : Duration) : Duration :=
  if b.cap = Duration.zero then delay else delay.min b.cap

/-- What the delay before an attempt is, and that it can be computed. -/
structure Regular (b : Backoff) : Prop where
  idle : ∀ n, n = 0 ∨ b.base = Duration.zero → b.delayFor n = Duration.zero
  grown : ∀ n, n ≠ 0 → b.base ≠ Duration.zero → (b.strategy = .exponential → n ≤ 32) →
    b.delayFor n = b.cut (Duration.clamp (b.ideal n))
  mono : ∀ m n, m ≤ n → (b.delayFor m).nanos ≤ (b.delayFor n).nanos
  capped : b.cap ≠ Duration.zero → ∀ n, (b.delayFor n).nanos ≤ b.cap.nanos
  computed : ∀ n ≤ maxAttempt, b.compute n = .ok (.of (b.delayFor n))

section

variable (b : Backoff) {m n : Nat} {d d' : Duration}

theorem factor_mono (strategy : BackoffStrategy) (h : m ≤ n) :
    factor strategy m ≤ factor strategy n := by
  cases strategy with
  | fixed => exact Nat.le_refl _
  | linear => exact h
  | exponential =>
    simp only [factor]
    by_cases hn : n - 1 < 32
    · rw [if_pos hn, if_pos (by omega)]
      exact twoTo_le_twoTo (by omega)
    · rw [if_neg hn]
      split
      · next hm =>
        -- the last power of two before the factor stays where it is
        have hlast : twoTo 31 ≤ maxAttempt := by decide
        exact Nat.le_trans (twoTo_le_twoTo (by omega)) hlast
      · exact Nat.le_refl _

private theorem factor_le (strategy : BackoffStrategy) (h : n ≤ maxAttempt) :
    factor strategy n ≤ maxAttempt := by
  cases strategy with
  | fixed => exact Nat.le_of_ble_eq_true rfl
  | linear => exact h
  | exponential =>
    have hend : factor .exponential maxAttempt = maxAttempt := rfl
    exact hend ▸ factor_mono .exponential h

private theorem shiftLeft_eq_factor (n : Nat) :
    (Unsigned.shiftLeft? 32 1 (n - 1)).getD maxAttempt = factor .exponential n := by
  simp only [Unsigned.shiftLeft?, factor]
  split
  · next h =>
    have hle : twoTo (n - 1) ≤ twoTo 31 := twoTo_le_twoTo (by omega)
    have hlt : twoTo 31 < twoTo 32 := by decide
    rw [Option.getD_some, Nat.one_mul, Nat.mod_eq_of_lt (by omega)]
  · rfl

private theorem cut_mono (h : d.nanos ≤ d'.nanos) : (b.cut d).nanos ≤ (b.cut d').nanos := by
  unfold cut Duration.min
  repeat' split
  all_goals omega

@[simp] private theorem cut_zero : b.cut Duration.zero = Duration.zero := by
  unfold cut Duration.min
  split
  · rfl
  · exact if_pos (Nat.zero_le _)

private theorem cut_le (h : b.cap ≠ Duration.zero) (d : Duration) :
    (b.cut d).nanos ≤ b.cap.nanos := by
  unfold cut Duration.min
  rw [if_neg h]
  split
  · assumption
  · exact Nat.le_refl _

theorem isZero_iff : d.isZero ↔ d = Duration.zero := by
  cases d
  simp [Duration.isZero, Duration.zero]

@[simp] private theorem scale_zero (n : Nat) : Duration.zero.scale n = Duration.zero := by
  unfold Duration.scale Duration.clamp
  simp [Duration.zero]

theorem delayFor_eq (h : n ≠ 0) : b.delayFor n = b.cut (b.base.scale (factor b.strategy n)) := by
  by_cases hbase : b.base = Duration.zero
  · have hzero : b.delayFor n = Duration.zero := if_pos (by simp [hbase, isZero_iff.mpr])
    simp [hzero, hbase]
  · unfold delayFor cut
    simp [h, hbase, isZero_iff]

@[simp] private theorem delayFor_zero : b.delayFor 0 = Duration.zero := rfl

theorem delayFor_mono (h : m ≤ n) : (b.delayFor m).nanos ≤ (b.delayFor n).nanos := by
  by_cases hm : m = 0
  · rw [hm, delayFor_zero]
    exact Nat.zero_le _
  · rw [delayFor_eq b hm, delayFor_eq b (by omega)]
    apply cut_mono
    have hproduct := Nat.mul_le_mul_left b.base.nanos (factor_mono b.strategy h)
    change Min.min _ Duration.maxNanos ≤ Min.min _ Duration.maxNanos
    omega

private theorem ideal_eq (h : b.strategy = .exponential → n ≤ 32) :
    b.base.scale (factor b.strategy n) = Duration.clamp (b.ideal n) := by
  unfold Duration.scale ideal factor
  cases hstrategy : b.strategy with
  | fixed => rw [Nat.mul_one]
  | linear => rfl
  | exponential =>
    have hn := h hstrategy
    simp only
    rw [if_pos (by omega)]

@[simp] private theorem scale_one (d : Duration) : d.scale 1 = d := by
  have hle := d.nanos_le
  unfold Duration.scale Duration.clamp
  cases d
  simp only [Duration.mk.injEq, Nat.mul_one]
  exact Nat.min_eq_left hle

theorem grow_eq (strategy : BackoffStrategy) (d : Duration) (hn : n ≠ 0) (h : n ≤ maxAttempt) :
    grow strategy (.of d) n = .ok (.of (d.scale (factor strategy n))) := by
  have hroom : twoTo 32 = maxAttempt + 1 := by decide
  have htimes : (SplitDuration.of d).times (factor strategy n) =
      .ok (.of (d.scale (factor strategy n))) := by
    have hfactor := factor_le strategy h
    exact SplitDuration.times_of d (by omega)
  cases strategy with
  | fixed =>
    change Except.ok _ = Except.ok (SplitDuration.of (d.scale 1))
    simp
  | linear => exact htimes
  | exponential =>
    have hplaces : Unsigned.sub n 1 = .ok (n - 1) := if_pos (by omega)
    rw [← htimes, ← shiftLeft_eq_factor]
    change (Unsigned.sub n 1 >>= _) = _
    rw [hplaces]
    rfl

theorem compute_eq (h : n ≤ maxAttempt) : b.compute n = .ok (.of (b.delayFor n)) := by
  unfold compute delayFor
  simp only [SplitDuration.isZero_of]
  by_cases hidle : (decide (n = 0) || b.base.isZero) = true
  · rw [if_pos hidle, if_pos hidle, SplitDuration.zero_eq]
  · have hn : n ≠ 0 := fun hn => hidle (by simp [hn])
    rw [if_neg hidle, if_neg hidle, grow_eq _ _ hn h]
    change Except.ok _ = Except.ok _
    by_cases hcap : b.cap.isZero = true
    · simp only [hcap, ↓reduceIte]
    · simp only [hcap, Bool.false_eq_true, ↓reduceIte, SplitDuration.min_of]

theorem regular : b.Regular where
  idle n h := by
    apply if_pos
    obtain h | h := h
    · simp [h]
    · simp [isZero_iff.mpr h]
  grown n hn _ hfew := by rw [delayFor_eq b hn, ideal_eq b hfew]
  mono _ _ h := delayFor_mono b h
  capped hcap n := by
    by_cases hn : n = 0
    · rw [hn, delayFor_zero]
      exact Nat.zero_le _
    · rw [delayFor_eq b hn]
      exact cut_le b hcap _
  computed n h := compute_eq b h

end

end Backoff

theorem RetryPolicy.decide_mono (p : RetryPolicy) {m n : Nat} (h : m ≤ n) {k k' : FailureKind}
    (hm : (p.decide m k).retry) (hn : (p.decide n k').retry) :
    (p.decide m k).delay.nanos ≤ (p.decide n k').delay.nanos := by
  have hdelay : ∀ {n : Nat} {k : FailureKind}, (p.decide n k).retry → (p.decide n k).delay =
      p.backoff.delayFor (Nat.min (n + 1) Backoff.maxAttempt) := fun hretry => if_pos hretry
  rw [hdelay hm, hdelay hn]
  apply Backoff.delayFor_mono
  change Min.min _ _ ≤ Min.min _ _
  omega

namespace Traffic

variable {σ η ν : Type} {harness : Harness σ} {t : Traffic η ν}

def delays (t : Traffic η ν) (x : Nat) : List Duration :=
  (t.line x).filterMap fun d => (t.landings.get? d.number).bind fun landing => landing.1.delay?

theorem Reachable.delay_eq (h : Reachable harness t) {d : Departure ν} (hd : d ∈ t.departures)
    {delay : Duration} (hdelay : (t.landings.get? d.number).bind (·.1.delay?) = some delay) :
    delay = harness.policy.backoff.delayFor
      (Nat.min (d.taken.fire.refireCount + 1) Backoff.maxAttempt) := by
  cases hlanded : t.landings.get? d.number with
  | none =>
    rw [hlanded] at hdelay
    cases hdelay
  | some landing =>
    rw [hlanded] at hdelay
    obtain ⟨registry, hending⟩ := h.evaluated d hd landing.1 landing.2 hlanded
    exact hending.delay_eq hdelay

theorem Reachable.delays_sorted (h : Reachable harness t) (x : Nat) :
    (t.delays x).Pairwise fun d d' => d.nanos ≤ d'.nanos := by
  obtain ⟨p, hline⟩ := h.succession x
  unfold delays
  rw [List.pairwise_filterMap, List.pairwise_iff_getElem]
  intro i j hi hj hij delay hdelay delay' hdelay'
  have hcount : ∀ i (hi : i < (t.line x).length), (t.line x)[i].taken.fire.refireCount = i :=
    fun i hi => by rw [hline.counted i _ (List.getElem?_eq_getElem hi)]
  have hmem : ∀ i (hi : i < (t.line x).length), (t.line x)[i] ∈ t.departures := fun i hi =>
    (List.mem_filter.mp (List.getElem_mem hi)).1
  rw [h.delay_eq (hmem i hi) hdelay, h.delay_eq (hmem j hj) hdelay', hcount, hcount]
  apply Backoff.delayFor_mono
  change Min.min _ _ ≤ Min.min _ _
  omega

/-- While the attempts of a line can be counted in 32 bits, each delay is the one for the attempt to
come. -/
theorem Reachable.delay_counted (h : Reachable harness t) {x : Nat}
    (few : (t.line x).length < twoTo 32) {i : Nat} {d : Departure ν}
    (hd : (t.line x)[i]? = some d) {delay : Duration}
    (hdelay : (t.landings.get? d.number).bind (·.1.delay?) = some delay) :
    delay = harness.policy.backoff.delayFor (i + 1) := by
  obtain ⟨p, hline⟩ := h.succession x
  have hcount : d.taken.fire.refireCount = i := by rw [hline.counted i _ hd]
  have hi : i < (t.line x).length := (List.getElem?_eq_some_iff.mp hd).1
  have hmin : Nat.min (i + 1) Backoff.maxAttempt = i + 1 := Nat.min_eq_left (by
    unfold Backoff.maxAttempt
    omega)
  rw [h.delay_eq (List.mem_filter.mp (List.mem_of_getElem? hd)).1 hdelay, hcount, hmin]

/-- Every backoff is regular, and so the delays along a line of attempts never decrease. Below
`twoTo 32` attempts, as far as a counter of 32 bits goes, each is the delay for the attempt to come;
past that `PendingFire.refireCount` goes on, and the delay stays that of the last number. -/
theorem backoff_regular (b : Backoff) : b.Regular ∧ ∀ p : RetryPolicy, p.backoff = b →
    (∀ m n k k', m ≤ n → (p.decide m k).retry → (p.decide n k').retry →
      (p.decide m k).delay.nanos ≤ (p.decide n k').delay.nanos) ∧
    ∀ {σ η ν : Type} (harness : Harness σ) (t : Traffic η ν), harness.policy = p →
      Reachable harness t → ∀ x, (t.delays x).Pairwise (fun d d' => d.nanos ≤ d'.nanos) ∧
        ((t.line x).length < twoTo 32 → ∀ i d delay, (t.line x)[i]? = some d →
          (t.landings.get? d.number).bind (·.1.delay?) = some delay →
            delay = b.delayFor (i + 1)) := by
  refine ⟨b.regular, fun p hb => ⟨?_, ?_⟩⟩
  · exact fun m n k k' h hm hn => p.decide_mono h hm hn
  · rintro σ η ν harness t rfl h x
    exact ⟨h.delays_sorted x, fun few i d delay hd hdelay => hb ▸ h.delay_counted few hd hdelay⟩

def doubling : Harness Unit where
  policy := { maxRetries := 2, backoff := { strategy := .exponential, base := ⟨1, by decide⟩ } }
  bus := .ofPublish fun _ => pure (.ok ())

def failing (attempt : Nat) : FireOutcome :=
  let job : Job Unit := { name := "report", body := fun _ => Body.fail (.conflict "busy") }
  let fire : FireContext :=
    { definition := report, data := Dict.empty, refireCount := attempt
      scheduledFor := .epoch, firedAt := .epoch }
  .dispatched (doubling.run job fire { clock := .epoch, app := () }).1

theorem delays_double : ∃ t : Traffic Unit Unit, Reachable doubling t ∧
    (t.delays 1).map (·.nanos) = [1, 2] ∧
    (t.delays 1).Pairwise fun d d' => d.nanos ≤ d'.nanos := by
  have opened : Reachable doubling vacant := .start [("report", ())] [] []
  have stored := opened.next (.scheduleJob report { schedule := .once .epoch } rfl)
  have first := stored.next (.depart .epoch rfl rfl)
  have refired :=
    first.next (.land (failing 0) .epoch List.mem_cons_self rfl (.ran _ _ _ rfl))
  have second := refired.next (.depart ⟨1, by decide, by decide⟩ rfl rfl)
  have again := second.next (.land (failing 1) ⟨1, by decide, by decide⟩
    (List.mem_cons_of_mem _ List.mem_cons_self) rfl (.ran _ _ _ rfl))
  have patient := (backoff_regular doubling.policy.backoff).2 doubling.policy rfl
  exact ⟨_, again, rfl, (patient.2 doubling _ rfl again 1).1⟩

end Traffic

end JobEngine
