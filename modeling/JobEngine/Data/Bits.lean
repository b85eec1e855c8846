/-! Powers of two, which bound the numbers that are kept in so many bits. -/

namespace JobEngine

/-- How many numbers there are of so many bits. -/
def twoTo (bits : Nat) : Nat := Nat.pow 2 bits

theorem twoTo_succ (n : Nat) : twoTo (n + 1) = twoTo n * 2 := rfl

theorem twoTo_le_twoTo {m n : Nat} (h : m ≤ n) : twoTo m ≤ twoTo n := by
  induction h with
  | refl => exact Nat.le_refl _
  | step _ ih => rw [twoTo_succ]; omega

end JobEngine
