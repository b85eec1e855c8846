import JobEngine.Data.Bits
/-! Binary floating-point numbers that are not negative: 53 binary digits and an exponent. Every
result is the number nearest to the exact one, and of two equally near the even one. -/

namespace JobEngine

/-- The number `mantissa * 2 ^ exponent`. -/
structure Binary64 where
  mantissa : Nat
  exponent : Int
  deriving DecidableEq

namespace Binary64

def leastExponent : Int := -1074

def zero : Binary64 := ⟨0, leastExponent⟩

/-- A ratio times a power of two, as a ratio. -/
def shifted (num den : Nat) (exponent : Int) : Nat × Nat :=
  if 0 ≤ exponent then (num * twoTo exponent.toNat, den) else (num, den * twoTo (-exponent).toNat)

/-- The whole number nearest to a ratio, and of two the even one. -/
def roundHalfEven (num den : Nat) : Nat :=
  let q := num / den
  let r := num % den
  if den < 2 * r ∨ (den = 2 * r ∧ q % 2 = 1) then q + 1 else q

/-- The number nearest to a ratio; there is none for one that is too large. -/
def nearest? (num den : Nat) : Option Binary64 :=
  if num = 0 then some zero
  else
    let guess : Int := max ((Nat.log2 num : Int) - Nat.log2 den - 53) leastExponent
    let (n, d) := shifted num den (-guess)
    let (d, exponent) := if twoTo 53 * d ≤ n then (d * 2, guess + 1) else (d, guess)
    let rounded := roundHalfEven n d
    let (mantissa, exponent) :=
      if rounded = twoTo 53 then (twoTo 52, exponent + 1) else (rounded, exponent)
    if 971 < exponent then none else some ⟨mantissa, exponent⟩

def mul? (a b : Binary64) : Option Binary64 :=
  let (n, d) := shifted (a.mantissa * b.mantissa) 1 (a.exponent + b.exponent)
  nearest? n d

def div? (a b : Binary64) : Option Binary64 :=
  let (n, d) := shifted a.mantissa b.mantissa (a.exponent - b.exponent)
  nearest? n d

/-- The digits of the exact decimal form, and how many of them stand after the point. -/
def toDecimal (a : Binary64) : Nat × Nat :=
  if 0 ≤ a.exponent then (a.mantissa * twoTo a.exponent.toNat, 0)
  else (a.mantissa * Nat.pow 5 (-a.exponent).toNat, (-a.exponent).toNat)

example : nearest? 1 1 = some ⟨twoTo 52, -52⟩ ∧ nearest? 1 3 = some ⟨6004799503160661, -54⟩ := by
  decide +kernel

end Binary64

end JobEngine
