import JobEngine.Time.Calendar
import Mathlib.Tactic.IntervalCases
/-! Days and their dates. Years are taken to start in March, so that a leap day ends its year. A
cycle is four centuries, a century 25 spans of four years; the last year of a span is a day longer,
except in a century's last span, where only the cycle's last century keeps the day. -/

namespace JobEngine.Date

/-- A day of a cycle, by its century, the span of years in it, the year in that, and the day. -/
structure InCycle (n century span year day : Int) : Prop where
  sum : n = 36524 * century + 1461 * span + 365 * year + day
  century_nonneg : 0 ≤ century
  century_le : century ≤ 3
  span_nonneg : 0 ≤ span
  span_le : span ≤ 24
  year_nonneg : 0 ≤ year
  year_le : year ≤ 3
  day_nonneg : 0 ≤ day
  day_le : day ≤ 364 ∨ day = 365 ∧ year = 3 ∧ (span = 24 → century = 3)

theorem exists_inCycle {n : Int} (hlow : 0 ≤ n) (hhigh : n < cycleDays) :
    ∃ century span year day, InCycle n century span year day := by
  unfold cycleDays at hhigh
  by_cases hlast : n = 146096
  · exact ⟨3, 24, 3, 365, by omega, by omega, by omega, by omega, by omega, by omega, by omega,
      by omega, by omega⟩
  · let inSpan := n % 36524 % 1461
    by_cases hleap : inSpan = 1460
    · exact ⟨n / 36524, n % 36524 / 1461, 3, 365, by omega, by omega, by omega, by omega, by omega,
        by omega, by omega, by omega, by omega⟩
    · exact ⟨n / 36524, n % 36524 / 1461, inSpan / 365, inSpan % 365, by omega, by omega, by omega,
        by omega, by omega, by omega, by omega, by omega, by omega⟩

namespace InCycle

variable {n century span year day : Int}

private theorem year_eq (h : InCycle n century span year day) :
    (n - n / 1460 + n / 36524 - n / 146096) / 365 = 100 * century + 4 * span + year := by
  obtain ⟨hsum, hc, hc', hs, hs', hy, hy', hd, hd'⟩ := h
  by_cases hlast : n = 146096
  · omega
  · have hcentury : n / 36524 = century := by omega
    have hspan : n / 1460 = 25 * century + span ∨ n / 1460 = 25 * century + span + 1 := by omega
    omega

private theorem start_eq (h : InCycle n century span year day) {whole : Int}
    (hwhole : whole = 100 * century + 4 * span + year) :
    365 * whole + whole / 4 - whole / 100 = 36524 * century + 1461 * span + 365 * year := by
  obtain ⟨-, -, -, hs, hs', hy, hy', -, -⟩ := h
  omega

theorem leap (h : InCycle n century span year day) (hday : day = 365) (cycle : Int) :
    isLeapYear (100 * century + 4 * span + year + cycle * 400 + 1) = true := by
  obtain ⟨-, hc, hc', hs, hs', -, -, -, hd⟩ := h
  obtain ⟨-, hyear, hkept⟩ := hd.resolve_left (by omega)
  unfold isLeapYear
  simp only [Bool.and_eq_true, Bool.or_eq_true, beq_iff_eq, bne_iff_ne, ne_eq]
  omega

end InCycle

def fromMarch (year day : Int) : Date :=
  let fromMarch := (5 * day + 2) / 153
  let month := if fromMarch < 10 then fromMarch + 3 else fromMarch - 9
  { year := if month ≤ 2 then year + 1 else year
    month := month.toNat
    day := (day - (153 * fromMarch + 2) / 5 + 1).toNat }

theorem ofDays_eq {days century span year day : Int}
    (h : InCycle ((days + epochOffset) % cycleDays) century span year day) :
    ofDays days =
      fromMarch (100 * century + 4 * span + year + (days + epochOffset) / cycleDays * 400) day := by
  have hday := h.sum
  have hyear := h.year_eq
  have hstart := h.start_eq rfl
  unfold ofDays fromMarch
  simp only [hyear, hstart]
  rw [show (days + epochOffset) % cycleDays - (36524 * century + 1461 * span + 365 * year) = day by
    omega]

theorem isValid_fromMarch {year day : Int} (hlow : 0 ≤ day) (hhigh : day ≤ 365)
    (hleap : day = 365 → isLeapYear (year + 1) = true) : (fromMarch year day).isValid = true := by
  obtain ⟨month, hmonth⟩ : ∃ month, (5 * day + 2) / 153 = month := ⟨_, rfl⟩
  have hmonth_low : 0 ≤ month := by omega
  have hmonth_high : month ≤ 11 := by omega
  unfold fromMarch isValid
  simp only [hmonth, Bool.and_eq_true, decide_eq_true_eq]
  interval_cases month
  case «11» =>
    change 1 ≤ _ ∧ _ ≤ if isLeapYear (year + 1) then 29 else 28
    obtain hday | hday : day = 365 ∨ day ≤ 364 := by omega
    · rw [if_pos (hleap hday)]
      omega
    · split <;> omega
  all_goals
    simp only [Int.reduceLT, Int.reduceAdd, Int.reduceSub, Int.reduceMul, Int.reduceDiv,
      Int.reduceToNat, ↓reduceIte, daysInMonth]
    omega

theorem toDays_fromMarch {year day : Int} (hlow : 0 ≤ day) (hhigh : day ≤ 365) :
    (fromMarch year day).toDays =
      year / 400 * cycleDays + (year % 400 * 365 + year % 400 / 4 - year % 400 / 100 + day) -
        epochOffset := by
  obtain ⟨month, hmonth⟩ : ∃ month, (5 * day + 2) / 153 = month := ⟨_, rfl⟩
  have hmonth_low : 0 ≤ month := by omega
  have hmonth_high : month ≤ 11 := by omega
  have hstart : (153 * month + 2) / 5 ≤ day := by omega
  unfold fromMarch toDays
  simp only [hmonth]
  by_cases h : month < 10
  · have hnumber : (((month + 3).toNat : Int) + 9) % 12 = month := by omega
    have hwhole : ¬month + 3 ≤ 2 := by omega
    have hwhole' : ¬(month + 3).toNat ≤ 2 := by omega
    simp only [h, hnumber, hwhole, hwhole', ↓reduceIte]
    omega
  · have hnumber : (((month - 9).toNat : Int) + 9) % 12 = month := by omega
    have hwhole : month - 9 ≤ 2 := by omega
    have hwhole' : (month - 9).toNat ≤ 2 := by omega
    simp only [h, hnumber, hwhole, hwhole', ↓reduceIte, Int.add_sub_cancel]
    omega

theorem exists_fromMarch (days : Int) : ∃ year day, ofDays days = fromMarch year day ∧
    0 ≤ day ∧ day ≤ 365 ∧ (day = 365 → isLeapYear (year + 1) = true) ∧
    year / 400 * cycleDays + (year % 400 * 365 + year % 400 / 4 - year % 400 / 100 + day) -
      epochOffset = days := by
  have hpositive : 0 < cycleDays := by decide
  obtain ⟨century, span, year, day, h⟩ := exists_inCycle
    (Int.emod_nonneg (days + epochOffset) hpositive.ne') (Int.emod_lt_of_pos _ hpositive)
  refine ⟨_, day, ofDays_eq h, h.day_nonneg, ?_, fun heq => h.leap heq _, ?_⟩
  · obtain hday | ⟨hday, -⟩ := h.day_le <;> omega
  · have hstart := h.start_eq rfl
    obtain ⟨hsum, hc, hc', hs, hs', hy, hy', -, -⟩ := h
    unfold cycleDays at *
    omega

@[simp] theorem toDays_ofDays (days : Int) : (ofDays days).toDays = days := by
  obtain ⟨year, day, hdate, hlow, hhigh, -, hdays⟩ := exists_fromMarch days
  rw [hdate, toDays_fromMarch hlow hhigh, hdays]

@[simp] theorem isValid_ofDays (days : Int) : (ofDays days).isValid = true := by
  obtain ⟨year, day, hdate, hlow, hhigh, hleap, -⟩ := exists_fromMarch days
  rw [hdate, isValid_fromMarch hlow hhigh hleap]

private theorem daysInMonth_le (year : Int) (month : Nat) : daysInMonth year month ≤ 31 := by
  unfold daysInMonth
  split <;> first | decide | (split <;> decide)

theorem lt_of_isValid {d : Date} (h : d.isValid = true) : d.month < 13 ∧ d.day < 32 := by
  unfold isValid at h
  simp only [Bool.and_eq_true, decide_eq_true_eq] at h
  have hday := Nat.le_trans h.2 (daysInMonth_le d.year d.month)
  refine ⟨Nat.lt_of_not_le fun hmonth => ?_, by omega⟩
  have hnone : daysInMonth d.year d.month = 0 := by
    unfold daysInMonth
    split <;> omega
  omega

end JobEngine.Date
