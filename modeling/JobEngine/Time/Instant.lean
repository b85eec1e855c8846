import JobEngine.Time.Duration
/-! Points in time on a calendar that reaches from the year -262143 to the year 262142, in whole
nanoseconds since 1970-01-01T00:00:00Z. -/

namespace JobEngine

def Instant.minNanos : Int := -8334601228800 * 1000000000

def Instant.maxNanos : Int := 8210266876799 * 1000000000 + 999999999

structure Instant where
  nanos : Int
  min_le : Instant.minNanos ≤ nanos
  le_max : nanos ≤ Instant.maxNanos

namespace Instant

instance : DecidableEq Instant := fun a b =>
  if h : a.nanos = b.nanos then isTrue (by cases a; cases b; simp_all)
  else isFalse fun hab => h (hab ▸ rfl)

instance : LE Instant := ⟨fun a b => a.nanos ≤ b.nanos⟩

instance : LT Instant := ⟨fun a b => a.nanos < b.nanos⟩

instance (a b : Instant) : Decidable (a ≤ b) := inferInstanceAs (Decidable (a.nanos ≤ b.nanos))

instance (a b : Instant) : Decidable (a < b) := inferInstanceAs (Decidable (a.nanos < b.nanos))

def ofNanos? (nanos : Int) : Option Instant :=
  if h : minNanos ≤ nanos ∧ nanos ≤ maxNanos then some ⟨nanos, h.1, h.2⟩ else none

def ofParts? (seconds : Int) (nanos : Nat) : Option Instant :=
  ofNanos? (seconds * nanosPerSecond + nanos)

def epoch : Instant := ⟨0, by decide, by decide⟩

instance : Inhabited Instant := ⟨epoch⟩

/-- The last instant of the calendar. -/
def last : Instant := ⟨maxNanos, by decide, by decide⟩

/-- Whole seconds since 1970, rounded towards the past. -/
def seconds (t : Instant) : Int := t.nanos / (nanosPerSecond : Int)

def subsecond (t : Instant) : Nat := (t.nanos % (nanosPerSecond : Int)).toNat

/-- The instant that many nanoseconds away, unless it leaves the calendar. -/
def shift? (t : Instant) (offset : Int) : Option Instant := ofNanos? (t.nanos + offset)

/-- The instant that much later, or the last one. -/
def plus (t : Instant) (d : Duration) : Instant := (t.shift? d.nanos).getD last

theorem ofNanos?_eq_some_iff {n : Int} {t : Instant} : ofNanos? n = some t ↔ t.nanos = n := by
  unfold ofNanos?
  split
  next h =>
    constructor
    · intro ht; cases ht; rfl
    · intro ht; subst ht; rfl
  next h =>
    constructor
    · intro ht; cases ht
    · intro ht; subst ht; exact absurd ⟨t.min_le, t.le_max⟩ h

end Instant

/-- The whole calendar is shorter than the longest duration that can be added to an instant. -/
theorem Duration.isOffset_of_le {t u : Instant} {d : Duration}
    (h : t.nanos + d.nanos ≤ u.nanos) : d.isOffset := by
  have hlow := t.min_le
  have hhigh := u.le_max
  have hoffset : maxOffsetNanos = 9223372036854775807000000 := by decide
  refine decide_eq_true ?_
  unfold Instant.minNanos at hlow
  unfold Instant.maxNanos at hhigh
  omega

end JobEngine
