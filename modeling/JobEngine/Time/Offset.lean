import JobEngine.Time.Instant
/-! Signed lengths of time, as what lies between two instants, and the counting of their nanoseconds
in numbers of 128 bits. Everything has bounds here, and an operation whose result would lie outside
of them has none. -/

namespace JobEngine

/-- Why an operation on numbers of bounded size has no result. -/
inductive ArithmeticFault where
  | overflow
  | divisionByZero
  deriving DecidableEq

namespace Signed

/-- The number itself, when it has a place among the signed numbers of so many bits. -/
def within (bits : Nat) (n : Int) : Except ArithmeticFault Int :=
  if -(twoTo (bits - 1) : Int) ≤ n ∧ n < twoTo (bits - 1) then .ok n else .error .overflow

theorem within_eq_ok {bits : Nat} {n : Int} (hlow : -(twoTo (bits - 1) : Int) ≤ n)
    (hhigh : n < twoTo (bits - 1)) : within bits n = .ok n := if_pos ⟨hlow, hhigh⟩

/-! Numbers of 128 bits. -/

def add (a b : Int) : Except ArithmeticFault Int := within 128 (a + b)

def mul (a b : Int) : Except ArithmeticFault Int := within 128 (a * b)

/-- The quotient, rounded towards zero. -/
def div (a b : Int) : Except ArithmeticFault Int :=
  if b = 0 then .error .divisionByZero else within 128 (a.tdiv b)

end Signed

/-- Whole seconds, and nanoseconds that are counted up from them. -/
structure Offset where
  seconds : Int
  subsecond : Nat
  subsecond_lt : subsecond < nanosPerSecond
  min_le : -(Duration.maxOffsetNanos : Int) ≤ seconds * nanosPerSecond + subsecond
  le_max : seconds * nanosPerSecond + subsecond ≤ Duration.maxOffsetNanos

namespace Offset

/-- The length as one number. -/
def nanos (o : Offset) : Int := o.seconds * nanosPerSecond + o.subsecond

def ofParts? (seconds : Int) (subsecond : Nat) : Option Offset :=
  if h : subsecond < nanosPerSecond ∧
      -(Duration.maxOffsetNanos : Int) ≤ seconds * nanosPerSecond + subsecond ∧
      seconds * nanosPerSecond + subsecond ≤ Duration.maxOffsetNanos then
    some ⟨seconds, subsecond, h.1, h.2.1, h.2.2⟩
  else none

def ofDuration? (d : Duration) : Option Offset := ofParts? d.seconds d.subsecond

/-- The seconds of a number of nanoseconds are kept in 64 bits. -/
def ofNanos? (nanos : Int) : Option Offset :=
  match Signed.within 64 (nanos / nanosPerSecond) with
  | .error _ => none
  | .ok seconds => ofParts? seconds (nanos % nanosPerSecond).toNat

/-- From one instant to another. -/
def between (earlier later : Instant) : Except ArithmeticFault Offset :=
  match ofNanos? (later.nanos - earlier.nanos) with
  | none => .error .overflow
  | some o => .ok o

/-- The seconds without their fraction, rounded towards zero. -/
def wholeSeconds (o : Offset) : Int :=
  if o.seconds < 0 ∧ 0 < o.subsecond then o.seconds + 1 else o.seconds

/-- What is left without the whole seconds, which has their sign. -/
def remainder (o : Offset) : Int :=
  if o.seconds < 0 ∧ 0 < o.subsecond then o.subsecond - nanosPerSecond else o.subsecond

/-- Counts the nanoseconds. -/
def count (o : Offset) : Except ArithmeticFault Int := do
  Signed.add (← Signed.mul o.wholeSeconds nanosPerSecond) o.remainder

theorem ofParts?_eq_some (seconds : Int) {subsecond : Nat} (hsub : subsecond < nanosPerSecond)
    (hmin : -(Duration.maxOffsetNanos : Int) ≤ seconds * nanosPerSecond + subsecond)
    (hmax : seconds * nanosPerSecond + subsecond ≤ Duration.maxOffsetNanos) :
    ∃ o, ofParts? seconds subsecond = some o ∧ o.nanos = seconds * nanosPerSecond + subsecond :=
  ⟨_, dif_pos ⟨hsub, hmin, hmax⟩, rfl⟩

theorem ofParts?_eq_none {seconds : Int} {subsecond : Nat}
    (h : Duration.maxOffsetNanos < seconds * nanosPerSecond + subsecond) :
    ofParts? seconds subsecond = none :=
  dif_neg fun hin => absurd hin.2.2 (Int.not_le.mpr h)

end Offset

namespace Instant

/-- The instant that far away, unless it leaves the calendar. -/
def add? (t : Instant) (o : Offset) : Option Instant := t.shift? o.nanos

end Instant

end JobEngine
