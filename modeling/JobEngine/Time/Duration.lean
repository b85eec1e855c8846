import JobEngine.Data.Bits
/-! Lengths of time with nanosecond precision, saturating at the longest one. -/

namespace JobEngine

def nanosPerSecond : Nat := 1000000000

/-- The longest duration: one nanosecond short of 2^64 seconds. -/
def Duration.maxNanos : Nat := twoTo 64 * nanosPerSecond - 1

structure Duration where
  nanos : Nat
  nanos_le : nanos ≤ Duration.maxNanos

namespace Duration

instance : DecidableEq Duration := fun a b =>
  if h : a.nanos = b.nanos then isTrue (by cases a; cases b; simp_all)
  else isFalse fun hab => h (hab ▸ rfl)

def zero : Duration := ⟨0, Nat.zero_le _⟩

instance : Inhabited Duration := ⟨zero⟩

/-- The duration of that many nanoseconds, or the longest one. -/
def clamp (nanos : Nat) : Duration := ⟨min nanos maxNanos, Nat.min_le_right _ _⟩

def ofNanos? (nanos : Nat) : Option Duration :=
  if h : nanos ≤ maxNanos then some ⟨nanos, h⟩ else none

def ofParts? (seconds nanos : Nat) : Option Duration :=
  ofNanos? (seconds * nanosPerSecond + nanos)

def ofMillis (millis : Nat) : Duration := clamp (millis * 1000000)

def ofSeconds (seconds : Nat) : Duration := clamp (seconds * nanosPerSecond)

def seconds (d : Duration) : Nat := d.nanos / nanosPerSecond

def subsecond (d : Duration) : Nat := d.nanos % nanosPerSecond

def isZero (d : Duration) : Bool := d.nanos == 0

def scale (d : Duration) (n : Nat) : Duration := clamp (d.nanos * n)

def min (a b : Duration) : Duration := if a.nanos ≤ b.nanos then a else b

/-- The longest offset that can be added to an instant: 2^63 - 1 milliseconds. -/
def maxOffsetNanos : Nat := (twoTo 63 - 1) * 1000000

/-- Whether the duration can be used as an offset between instants. -/
def isOffset (d : Duration) : Bool := d.nanos ≤ maxOffsetNanos

@[simp] theorem nanos_clamp (n : Nat) : (clamp n).nanos = Nat.min n maxNanos := rfl

@[simp] theorem seconds_mul_add_subsecond (d : Duration) :
    d.seconds * nanosPerSecond + d.subsecond = d.nanos := by
  unfold seconds subsecond
  rw [Nat.mul_comm]
  exact Nat.div_add_mod ..

end Duration

end JobEngine
