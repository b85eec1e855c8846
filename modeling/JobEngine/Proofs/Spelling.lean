import JobEngine.Data.Uuid
import JobEngine.Proofs.DayCount
import JobEngine.Time.Rfc3339
/-! Identifiers and times are read as they were written. A reader takes from a text what was written
for it, whatever stands behind, so the readers of the parts of a text compose as the parts do. -/

namespace JobEngine

namespace Uuid

@[simp] private theorem length_hexDigits (width n : Nat) : (hexDigits width n).length = width := by
  induction width generalizing n with
  | zero => rfl
  | succ width ih => rw [hexDigits, List.length_append, ih, List.length_singleton]

def IsHexDigit (c : Char) : Prop := ∃ d < 16, c = hexDigit d

private theorem isHexDigit_of_mem {width n : Nat} {c : Char} (h : c ∈ hexDigits width n) :
    IsHexDigit c := by
  induction width generalizing n with
  | zero => cases h
  | succ width ih =>
    obtain h | h := List.mem_append.mp h
    · exact ih h
    · exact ⟨n % 16, Nat.mod_lt _ (by decide), List.mem_singleton.mp h⟩

private theorem hexValue?_hexDigit : ∀ n < 16, hexValue? (hexDigit n) = some n := by decide

private theorem readHex_append (acc : Nat) (front back : List Char) :
    readHex acc (front ++ back) = (readHex acc front).bind (readHex · back) := by
  induction front generalizing acc with
  | nil => rfl
  | cons c rest ih =>
    rw [List.cons_append, readHex, readHex]
    cases hexValue? c with
    | none => rfl
    | some d => exact ih (acc * 16 + d)

@[simp] theorem readHex_hexDigits (width acc n : Nat) :
    readHex acc (hexDigits width n) = some (acc * 16 ^ width + n % 16 ^ width) := by
  induction width generalizing n with
  | zero =>
    rw [Nat.pow_zero, Nat.mod_one, Nat.mul_one]
    rfl
  | succ width ih =>
    have hlast : n % 16 < 16 := Nat.mod_lt _ (by decide)
    rw [hexDigits, readHex_append, ih, Option.bind_some, readHex, hexValue?_hexDigit _ hlast,
      Option.bind_some, readHex, Nat.pow_succ', Nat.mod_mul, Nat.mul_left_comm acc 16]
    congr 1
    omega

private theorem head_hyphenate (g : Nat) (gs : List Nat) (c : Char) (rest : List Char) :
    ∃ tail, hyphenate ((g + 1) :: gs) (c :: rest) = c :: tail := by
  cases gs with
  | nil => exact ⟨rest, rfl⟩
  | cons next others => exact ⟨_, rfl⟩

@[simp] private theorem length_hyphenate (g : Nat) (gs : List Nat) (cs : List Char) :
    (hyphenate (g :: gs) cs).length = cs.length + gs.length := by
  induction gs generalizing g cs with
  | nil => rfl
  | cons next rest ih =>
    rw [hyphenate, List.length_append, List.length_cons, ih, List.length_take, List.length_drop,
      List.length_cons]
    · omega
    · simp

theorem dehyphenate?_hyphenate (gs : List Nat) {cs : List Char} (h : gs.sum ≤ cs.length) :
    dehyphenate? gs (hyphenate gs cs) = some cs := by
  induction gs generalizing cs with
  | nil => rfl
  | cons g rest ih =>
    cases rest with
    | nil => rfl
    | cons next others =>
      rw [List.sum_cons] at h
      have htake : (cs.take g).length = g := by
        rw [List.length_take]
        omega
      have hrest := @ih (cs.drop g) (by rw [List.length_drop]; omega)
      rw [hyphenate, dehyphenate?, List.drop_left' htake]
      change (dehyphenate? (next :: others) _).map _ = _
      rw [hrest, List.take_left' htake, Option.map_some, List.take_append_drop]
      all_goals simp

private theorem urnStart_eq : urnStart = 'u' :: "rn:uuid:".toList := by decide

theorem unwrap_of_isHexDigit {c : Char} (h : IsHexDigit c) (rest : List Char) :
    unwrap (c :: rest) = c :: rest := by
  have hplain : ∀ d < 16, hexDigit d ≠ '\x7b' ∧ (hexDigit d).toLower ≠ 'u' := by decide
  obtain ⟨d, hd, rfl⟩ := h
  obtain ⟨hbrace, hurn⟩ := hplain d hd
  unfold unwrap
  split
  next heq => exact absurd (List.cons.inj heq).1 hbrace
  next =>
    have hstart : urnStart.isPrefixOf ((hexDigit d :: rest).map Char.toLower) = false := by
      rw [urnStart_eq, List.map_cons, List.isPrefixOf, beq_eq_false_iff_ne.mpr hurn.symm,
        Bool.false_and]
    rw [if_neg (by rw [hstart]; exact Bool.false_ne_true)]

@[simp] private theorem ofNat_value (u : Uuid) : ofNat u.value = u := by
  cases u with
  | mk value lt => simp only [ofNat, Nat.mod_eq_of_lt lt]

@[simp] theorem ofText?_text (u : Uuid) : ofText? u.text = some u := by
  have hlength : (hexDigits 32 u.value).length = 32 := length_hexDigits ..
  have hwritten : (hyphenate groups (hexDigits 32 u.value)).length = 36 := by
    unfold groups
    rw [length_hyphenate, hlength]
    rfl
  have hunwrap : unwrap (hyphenate groups (hexDigits 32 u.value)) =
      hyphenate groups (hexDigits 32 u.value) := by
    cases hdigits : hexDigits 32 u.value with
    | nil => rw [hdigits] at hlength; cases hlength
    | cons c rest =>
      have hc : c ∈ hexDigits 32 u.value := by rw [hdigits]; exact List.mem_cons_self
      obtain ⟨tail, htail⟩ := head_hyphenate 7 [4, 4, 4, 12] c rest
      unfold groups
      rw [htail, unwrap_of_isHexDigit (isHexDigit_of_mem hc)]
  have hvalue : readHex 0 (hexDigits 32 u.value) = some u.value := by
    have hbound : 16 ^ 32 = twoTo 128 := by decide
    simp [hbound, Nat.mod_eq_of_lt u.lt]
  unfold ofText? text
  rw [String.toList_ofList, if_neg (by rw [hwritten]; decide), hunwrap]
  unfold readHyphenated?
  rw [if_pos hwritten, dehyphenate?_hyphenate groups (by rw [hlength]; decide), Option.bind_some]
  unfold readPlain?
  simp [hlength, hvalue]

end Uuid

namespace Rfc3339

open Text

private theorem isDigit_eq (c : Char) : isDigit c = c.isDigit := rfl

private theorem isBlankChar_of_isDigit {c : Char} (h : isDigit c = true) :
    isBlankChar c = false := by
  rw [isDigit_eq, Char.isDigit_iff_toNat] at h
  change 48 ≤ c.toNat ∧ c.toNat ≤ 57 at h
  unfold isBlankChar blankRanges
  simp only [List.any_cons, List.any_nil, Bool.or_eq_false_iff, Bool.and_eq_false_imp,
    decide_eq_true_eq, decide_eq_false_iff_not, and_true]
  and_intros <;> omega

theorem skipBlanks_cons {c : Char} (h : isBlankChar c = false) (rest : List Char) :
    skipBlanks (c :: rest) = c :: rest :=
  List.dropWhile_cons_of_neg (by rw [h]; exact Bool.false_ne_true)

/-- A number as it is written. -/
structure Numeral (digits : List Char) (n : Nat) : Prop where
  nonempty : digits ≠ []
  digit : ∀ c ∈ digits, isDigit c = true
  value : digitsValue digits = n

private theorem digitsValue_eq (digits : List Char) :
    digitsValue digits = Nat.ofDigitChars 10 digits 0 := by
  unfold digitsValue
  rw [Nat.ofDigitChars_eq_foldl]
  simp only [Nat.mul_comm]

private theorem toList_padded (width n : Nat) : (padded width n).toList =
    List.replicate (width - (Nat.toDigits 10 n).length) '0' ++ Nat.toDigits 10 n :=
  String.toList_ofList

theorem numeral_padded (width n : Nat) : Numeral (padded width n).toList n := by
  rw [toList_padded]
  constructor
  · simp [Nat.toDigits_ne_nil]
  · intro c hc
    obtain hc | hc := List.mem_append.mp hc
    · rw [List.eq_of_mem_replicate hc]
      rfl
    · exact Nat.isDigit_of_mem_toDigits (by decide) (by decide) hc
  · rw [digitsValue_eq, Nat.ofDigitChars_append, Nat.ofDigitChars_replicate_zero, Nat.mul_zero,
      Nat.ofDigitChars_ten_toDigits]

theorem length_padded {width n : Nat} (hwidth : 0 < width) (h : n < 10 ^ width) :
    (padded width n).toList.length = width := by
  have hdigits := (Nat.length_toDigits_le_iff (by decide) hwidth).mpr h
  rw [toList_padded, List.length_append, List.length_replicate]
  omega

variable {digits rest : List Char} {width n : Nat}

theorem readDigits_append (h : Numeral digits n) (hfit : digits.length ≤ width)
    (hstop : digits.length = width ∨ ∀ c ∈ rest.head?, isDigit c = false) :
    readDigits width (digits ++ rest) = some (digits, rest) := by
  have hrest : (rest.take (width - digits.length)).takeWhile isDigit = [] := by
    obtain hwidth | hother := hstop
    · rw [hwidth, Nat.sub_self, List.take_zero, List.takeWhile_nil]
    · cases rest with
      | nil => rw [List.take_nil, List.takeWhile_nil]
      | cons c others =>
        have hc := hother c rfl
        cases width - digits.length with
        | zero => rfl
        | succ k => rw [List.take_succ_cons, List.takeWhile_cons_of_neg (by simp [hc])]
  have hdigits : ((digits ++ rest).take width).takeWhile isDigit = digits := by
    rw [List.take_append, List.take_of_length_le hfit,
      List.takeWhile_append_of_pos h.digit, hrest, List.append_nil]
  unfold readDigits
  simp only [hdigits, List.isEmpty_eq_false_iff.mpr h.nonempty, List.drop_left]
  rfl

private theorem skipBlanks_append (h : Numeral digits n) :
    skipBlanks (digits ++ rest) = digits ++ rest := by
  cases digits with
  | nil => exact absurd rfl h.nonempty
  | cons c others =>
    exact skipBlanks_cons (isBlankChar_of_isDigit (h.digit c List.mem_cons_self)) _

theorem readNumber_padded (hwidth : 0 < width) (h : n < 10 ^ width) (rest : List Char) :
    readNumber width ((padded width n).toList ++ rest) = some (n, rest) := by
  have hnumeral := numeral_padded width n
  have hlength := length_padded hwidth h
  unfold readNumber
  rw [skipBlanks_append hnumeral, readDigits_append hnumeral hlength.le (.inl hlength),
    Option.map_some, hnumeral.value]

private theorem readMark_cons {mark : Char} (h : isBlankChar mark = false) (rest : List Char) :
    readMark mark (mark :: rest) = some rest := by
  unfold readMark
  rw [skipBlanks_cons h]
  exact if_pos rfl

/-! Years. -/

theorem readYear_of_isDigit {c : Char} (h : isDigit c = true) (rest : List Char) :
    readYear (c :: rest) =
      (readDigits 4 (c :: rest)).map fun r => ((digitsValue r.1 : Int), r.2) := by
  unfold readYear
  rw [skipBlanks_cons (isBlankChar_of_isDigit h)]
  split
  next heq =>
    rw [(List.cons.inj heq).1] at h
    cases h
  next heq =>
    rw [(List.cons.inj heq).1] at h
    cases h
  next => rfl

private theorem readYear_minus (rest : List Char) : readYear ('-' :: rest) =
    (readDigits rest.length rest).map fun r => (-(digitsValue r.1 : Int), r.2) := by
  unfold readYear
  rw [skipBlanks_cons (by decide)]
  rfl

private theorem readYear_plus (rest : List Char) : readYear ('+' :: rest) =
    (readDigits rest.length rest).map fun r => ((digitsValue r.1 : Int), r.2) := by
  unfold readYear
  rw [skipBlanks_cons (by decide)]
  rfl

private theorem readYear_append (h : Numeral digits n) (hlength : digits.length = 4)
    (rest : List Char) : readYear (digits ++ rest) = some ((n : Int), rest) := by
  obtain ⟨c, others, rfl⟩ := List.exists_cons_of_ne_nil h.nonempty
  rw [List.cons_append, readYear_of_isDigit (h.digit c List.mem_cons_self), ← List.cons_append,
    readDigits_append h hlength.le (.inl hlength), Option.map_some, h.value]

/-- A year without a sign has four digits; one with a sign is read as far as there are digits. -/
theorem readYear_yearText (year : Int) (rest : List Char) :
    readYear ((Instant.yearText year).toList ++ '-' :: rest) = some (year, '-' :: rest) := by
  have hnumeral := numeral_padded 4 year.natAbs
  have hmark : ∀ c ∈ ('-' :: rest).head?, isDigit c = false := by
    intro c hc
    cases hc
    rfl
  have hread : readDigits ((padded 4 year.natAbs).toList ++ '-' :: rest).length
      ((padded 4 year.natAbs).toList ++ '-' :: rest) =
        some ((padded 4 year.natAbs).toList, '-' :: rest) :=
    readDigits_append hnumeral (by rw [List.length_append]; omega) (.inr hmark)
  unfold Instant.yearText
  by_cases hplain : 0 ≤ year ∧ year ≤ 9999
  · have hlength := @length_padded 4 year.toNat (by decide) (by omega)
    rw [if_pos hplain, readYear_append (numeral_padded 4 year.toNat) hlength,
      Int.toNat_of_nonneg hplain.1]
  · rw [if_neg hplain, String.toList_append]
    by_cases hneg : year < 0
    · rw [if_pos hneg]
      change readYear ('-' :: ((padded 4 year.natAbs).toList ++ '-' :: rest)) = _
      rw [readYear_minus, hread, Option.map_some, hnumeral.value,
        Int.ofNat_natAbs_of_nonpos hneg.le, Int.neg_neg]
    · rw [if_neg hneg]
      change readYear ('+' :: ((padded 4 year.natAbs).toList ++ '-' :: rest)) = _
      rw [readYear_plus, hread, Option.map_some, hnumeral.value,
        Int.natAbs_of_nonneg (Int.not_lt.mp hneg)]

def dateChars (d : Date) : List Char :=
  (Instant.yearText d.year).toList ++ '-' :: ((padded 2 d.month).toList ++
    '-' :: (padded 2 d.day).toList)

private theorem readDate_dateChars {d : Date} (h : d.isValid = true) (rest : List Char) :
    readDate (dateChars d ++ rest) = some (d, rest) := by
  obtain ⟨hmonth, hday⟩ := Date.lt_of_isValid h
  have hmark : isBlankChar '-' = false := by decide
  unfold readDate dateChars
  simp only [List.append_assoc, List.cons_append, readYear_yearText, Option.bind_eq_bind,
    Option.bind_some, readMark_cons hmark,
    readNumber_padded (by decide : 0 < 2) (by omega : d.month < 10 ^ 2),
    readNumber_padded (by decide : 0 < 2) (by omega : d.day < 10 ^ 2)]

def timeChars (hour minute second : Nat) : List Char :=
  (padded 2 hour).toList ++ ':' :: ((padded 2 minute).toList ++ ':' :: (padded 2 second).toList)

private theorem readTime_timeChars {hour minute second : Nat} (hhour : hour < 24)
    (hminute : minute < 60) (hsecond : second ≤ 60) (rest : List Char) :
    readTime (timeChars hour minute second ++ rest) =
      some (hour * 3600 + minute * 60 + min second 59, second == 60, rest) := by
  have hmark : isBlankChar ':' = false := by decide
  unfold readTime timeChars
  simp only [List.append_assoc, List.cons_append, Option.bind_eq_bind, Option.bind_some,
    readMark_cons hmark, readNumber_padded (by decide : 0 < 2) (by omega : hour < 10 ^ 2),
    readNumber_padded (by decide : 0 < 2) (by omega : minute < 10 ^ 2),
    readNumber_padded (by decide : 0 < 2) (by omega : second < 10 ^ 2)]
  exact if_pos ⟨hhour, hminute, hsecond⟩

theorem readFraction_padded (hwidth : 0 < width) (hmost : width ≤ 9) (h : n < 10 ^ width) :
    readFraction ('.' :: ((padded width n).toList ++ ['Z'])) =
      some (n * Nat.pow 10 (9 - width), ['Z']) := by
  have hnumeral := numeral_padded width n
  have hlength := length_padded hwidth h
  have hmark : ∀ c ∈ ['Z'].head?, isDigit c = false := by
    intro c hc
    cases hc
    rfl
  have hread := readDigits_append hnumeral (hlength.le.trans hmost) (.inr hmark)
  rw [readFraction, hread, Option.map_some, hnumeral.value, hlength]
  rfl

theorem readFraction_fractionText {nanos : Nat} (h : nanos < nanosPerSecond) :
    readFraction ((Instant.fractionText nanos).toList ++ ['Z']) = some (nanos, ['Z']) := by
  unfold nanosPerSecond at h
  have hwritten : ∀ width n, 0 < width → width ≤ 9 → n < 10 ^ width →
      n * Nat.pow 10 (9 - width) = nanos →
      readFraction (("." ++ padded width n).toList ++ ['Z']) = some (nanos, ['Z']) := by
    intro width n hwidth hmost hn hnanos
    rw [String.toList_append, ← hnanos]
    exact readFraction_padded hwidth hmost hn
  unfold Instant.fractionText
  split
  next hzero => rw [hzero]; rfl
  split
  next => exact hwritten 3 _ (by decide) (by decide) (by omega) (by simp; omega)
  split
  next => exact hwritten 6 _ (by decide) (by decide) (by omega) (by simp; omega)
  next => exact hwritten 9 _ (by decide) (by decide) (by omega) (by simp)

end Rfc3339

namespace Stamp

open Rfc3339 Text

def daySecond (t : Stamp) : Nat := (t.instant.seconds % Instant.secondsPerDay).toNat

def date (t : Stamp) : Date := Date.ofDays (t.instant.seconds / Instant.secondsPerDay)

private theorem toList_text (t : Stamp) : t.text.toList = dateChars t.date ++ 'T' ::
    (timeChars (t.daySecond / 3600) (t.daySecond / 60 % 60)
      (t.daySecond % 60 + if t.isLeap then 1 else 0) ++
        ((Instant.fractionText t.instant.subsecond).toList ++ ['Z'])) := by
  have hmarks : "-".toList = ['-'] ∧ "T".toList = ['T'] ∧ ":".toList = [':'] ∧ "Z".toList = ['Z'] :=
    ⟨rfl, rfl, rfl, rfl⟩
  unfold text dateChars timeChars daySecond date
  simp only [String.toList_append, hmarks, List.append_assoc, List.cons_append, List.nil_append]

private theorem daySecond_eq (t : Stamp) :
    (t.daySecond : Int) = t.instant.seconds % Instant.secondsPerDay := by
  unfold daySecond Instant.secondsPerDay
  omega

theorem min_second (t : Stamp) :
    min (t.daySecond % 60 + if t.isLeap then 1 else 0) 59 = t.daySecond % 60 ∧
      (t.daySecond % 60 + (if t.isLeap then 1 else 0) == 60) = t.isLeap := by
  have hday := t.daySecond_eq
  unfold Instant.secondsPerDay at hday
  cases hleap : t.isLeap with
  | false =>
    simp only [Bool.false_eq_true, ↓reduceIte, beq_eq_false_iff_ne, ne_eq]
    omega
  | true =>
    have hend := t.at_minute_end hleap
    simp only [↓reduceIte, beq_iff_eq]
    omega

private theorem ofParts?_seconds (t : Instant) :
    Instant.ofParts? t.seconds t.subsecond = some t := by
  refine Instant.ofNanos?_eq_some_iff.mpr ?_
  unfold Instant.seconds Instant.subsecond nanosPerSecond
  omega

/-- A time is read as it was written, in a leap second as in any other. -/
@[simp] theorem ofText?_text (t : Stamp) : ofText? t.text = some t := by
  have hday := t.daySecond_eq
  have hvalid : t.date.isValid = true := Date.isValid_ofDays _
  have hdays : t.date.toDays = t.instant.seconds / Instant.secondsPerDay := Date.toDays_ofDays _
  obtain ⟨hlast, hleap⟩ := t.min_second
  have hhour : t.daySecond / 3600 < 24 := by
    unfold Instant.secondsPerDay at hday
    omega
  have hminute : t.daySecond / 60 % 60 < 60 := Nat.mod_lt _ (by decide)
  have hsecond : (t.daySecond % 60 + if t.isLeap then 1 else 0) ≤ 60 := by split <;> omega
  have hsub : t.instant.subsecond < nanosPerSecond := by
    unfold Instant.subsecond nanosPerSecond
    omega
  have hzone : readOffset ['Z'] = some (0, []) := by decide
  have hclock : t.daySecond / 3600 * 3600 + t.daySecond / 60 % 60 * 60 + t.daySecond % 60 =
      t.daySecond := by omega
  have hinstant : Instant.ofParts? (t.date.toDays * Instant.secondsPerDay + t.daySecond)
      t.instant.subsecond = some t.instant := by
    have hseconds : t.date.toDays * Instant.secondsPerDay + t.daySecond = t.instant.seconds := by
      rw [hdays, hday, Int.mul_comm]
      exact Int.mul_ediv_add_emod ..
    rw [hseconds, ofParts?_seconds]
  have hshift : t.instant.shift? (-0 * nanosPerSecond) = some t.instant :=
    Instant.ofNanos?_eq_some_iff.mpr (by simp)
  have hmake : make? t.instant t.isLeap = some t := make?_eq_some_iff.mpr ⟨rfl, rfl⟩
  unfold ofText?
  rw [toList_text]
  simp only [readDate_dateChars hvalid, readSeparator, readTime_timeChars hhour hminute hsecond,
    readFraction_fractionText hsub, hzone, hlast, hleap, hclock, Option.bind_eq_bind,
    Option.bind_some]
  rw [if_pos ⟨rfl, hvalid, by decide⟩, hinstant, Option.bind_some, hshift, Option.bind_some, hmake]

end Stamp

end JobEngine
