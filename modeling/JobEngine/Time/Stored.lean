import JobEngine.Time.Instant
/-! Instants as a database keeps them, in whole microseconds from its own epoch. -/

namespace JobEngine

namespace Instant

/-- 2000-01-01T00:00:00Z, from which the database counts. -/
def databaseEpoch : Int := 946684800 * 1000000000

/-- The instant as the database keeps it, cut towards its epoch to a whole microsecond. -/
def stored (t : Instant) : Instant :=
  let d := t.nanos - databaseEpoch
  if h : 0 ≤ d then
    ⟨t.nanos - d % 1000,
      by have := t.min_le; simp only [d, databaseEpoch, minNanos] at *; omega,
      by have := t.le_max; simp only [d, databaseEpoch, maxNanos] at *; omega⟩
  else
    ⟨t.nanos + (-d) % 1000,
      by have := t.min_le; simp only [d, databaseEpoch, minNanos] at *; omega,
      by have := t.le_max; simp only [d, databaseEpoch, maxNanos] at *; omega⟩

/-- Whether the database keeps the instant as it is. -/
def IsStorable (t : Instant) : Prop := (t.nanos - databaseEpoch) % 1000 = 0

theorem ext_nanos {a b : Instant} (h : a.nanos = b.nanos) : a = b := by
  cases a; cases b; simp_all

theorem stored_eq_self {t : Instant} (h : t.IsStorable) : t.stored = t := by
  apply ext_nanos
  unfold IsStorable at h
  unfold stored
  dsimp only
  split
  · dsimp only; omega
  · dsimp only; omega

end Instant

end JobEngine
