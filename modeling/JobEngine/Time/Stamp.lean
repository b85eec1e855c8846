import JobEngine.Time.Stored
/-! Times as records keep them. A record may have been stamped in a leap second, which a minute has
after its second 59 and which has no place of its own on the time line. -/

namespace JobEngine

structure Stamp where
  /-- The instant; in a leap second, the one a second before. -/
  instant : Instant
  isLeap : Bool
  at_minute_end : isLeap = true → instant.seconds % 60 = 59

namespace Stamp

instance : DecidableEq Stamp := fun a b =>
  if h : a.instant = b.instant ∧ a.isLeap = b.isLeap then
    isTrue (by cases a; cases b; simp_all)
  else isFalse fun hab => h (hab ▸ ⟨rfl, rfl⟩)

def ofInstant (t : Instant) : Stamp := ⟨t, false, nofun⟩

instance : Coe Instant Stamp := ⟨ofInstant⟩

instance : Inhabited Stamp := ⟨ofInstant default⟩

/-- A stamp in the leap second after an instant, or in no leap second. -/
def make? (instant : Instant) (isLeap : Bool) : Option Stamp :=
  if h : isLeap = true → instant.seconds % 60 = 59 then some ⟨instant, isLeap, h⟩ else none

/-- The place among all stamps: a leap second counts as part of the second before it. -/
def rank (t : Stamp) : Int :=
  t.instant.seconds * (2 * nanosPerSecond) + (if t.isLeap then nanosPerSecond else 0) +
    t.instant.subsecond

instance : LE Stamp := ⟨fun a b => a.rank ≤ b.rank⟩

instance : LT Stamp := ⟨fun a b => a.rank < b.rank⟩

instance (a b : Stamp) : Decidable (a ≤ b) := inferInstanceAs (Decidable (a.rank ≤ b.rank))

instance (a b : Stamp) : Decidable (a < b) := inferInstanceAs (Decidable (a.rank < b.rank))

theorem le_refl (a : Stamp) : a ≤ a := Int.le_refl a.rank

theorem le_trans {a b c : Stamp} (hab : a ≤ b) (hbc : b ≤ c) : a ≤ c := Int.le_trans hab hbc

/-- Instants are ordered as the stamps that they are. -/
@[simp] theorem ofInstant_lt {a b : Instant} : ofInstant a < ofInstant b ↔ a < b := by
  change (ofInstant a).rank < (ofInstant b).rank ↔ a.nanos < b.nanos
  unfold rank Instant.seconds Instant.subsecond ofInstant nanosPerSecond
  simp only [Bool.false_eq_true, ↓reduceIte]
  omega

@[simp] theorem ofInstant_le {a b : Instant} : ofInstant a ≤ ofInstant b ↔ a ≤ b := by
  have hlt := @ofInstant_lt b a
  change (ofInstant b).rank < (ofInstant a).rank ↔ b.nanos < a.nanos at hlt
  change (ofInstant a).rank ≤ (ofInstant b).rank ↔ a.nanos ≤ b.nanos
  omega

/-- As the database keeps it, where a leap second is the second after it. -/
def stored (t : Stamp) : Instant :=
  (if t.isLeap then t.instant.plus (Duration.ofSeconds 1) else t.instant).stored

@[simp] theorem stored_ofInstant (t : Instant) : (ofInstant t).stored = t.stored := rfl

theorem make?_eq_some_iff {i : Instant} {leap : Bool} {t : Stamp} :
    make? i leap = some t ↔ t.instant = i ∧ t.isLeap = leap := by
  unfold make?
  split
  next h =>
    constructor
    · intro ht; cases ht; exact ⟨rfl, rfl⟩
    · rintro ⟨rfl, rfl⟩; rfl
  next h =>
    constructor
    · intro ht; cases ht
    · rintro ⟨rfl, rfl⟩; exact absurd t.at_minute_end h

end Stamp

end JobEngine
