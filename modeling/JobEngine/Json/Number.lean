import JobEngine.Data.Binary64
import JobEngine.Json.Basic
/-! Reading the numbers of a JSON text. One that is written without a point and an exponent and fits
in 64 bits is an integer. Every other one is a floating-point number, which is found in two steps
that both round: the digits, as far as they fit in 64 bits, are multiplied or divided by a power of
ten. It keeps the digits in which it was written when they say the same. -/

namespace JobEngine.Json.Number

def isDigit (c : Char) : Bool := '0' ≤ c && c ≤ '9'

/-- The digits at the front, at least one. -/
def readDigits (cs : List Char) : Option (List Char × List Char) :=
  let digits := cs.takeWhile isDigit
  if digits.isEmpty then none else some (digits, cs.drop digits.length)

def readSign : List Char → Bool × List Char
  | '-' :: rest => (true, rest)
  | cs => (false, cs)

def signed (isNegative : Bool) (n : Nat) : Int := if isNegative then -n else n

def digitValue (c : Char) : Nat := c.toNat - '0'.toNat

def digitsValue (digits : List Char) : Nat := digits.foldl (fun n c => n * 10 + digitValue c) 0

/-- The digits after a point, if there is one. -/
def readFraction : List Char → Option (List Char × List Char)
  | '.' :: rest => readDigits rest
  | cs => some ([], cs)

/-- The exponent, if there is one. -/
def readExponent : List Char → Option (Option Int × List Char)
  | 'e' :: rest | 'E' :: rest =>
    let (isNegative, rest) := match rest with
      | '+' :: rest => (false, rest)
      | rest => readSign rest
    (readDigits rest).map fun r => (some (signed isNegative (digitsValue r.1)), r.2)
  | cs => some (none, cs)

/-- Appends digits to a number as long as it has no more than 64 bits, and gives those left over. -/
def append64 : Nat → List Char → Nat × List Char
  | n, [] => (n, [])
  | n, c :: rest =>
    if n * 10 + digitValue c < twoTo 64 then append64 (n * 10 + digitValue c) rest
    else (n, c :: rest)

/-- The greatest power of ten that is a float. -/
def greatestPower : Nat := 308

/-- A number times a power of ten, rounded; there is none if it is too large. -/
def timesPower? (f : Binary64) (exponent : Int) : Option Binary64 := do
  let power ← Binary64.nearest? (Nat.pow 10 (min exponent.natAbs greatestPower)) 1
  if f = Binary64.zero then some f
  else if exponent > greatestPower then none
  else if 0 ≤ exponent then f.mul? power
  else f.div? power

/-- A float from its digits and an exponent. A power that is too small is applied in two parts. -/
def float? (digits : Nat) (exponent : Int) : Option Binary64 := do
  let f ← Binary64.nearest? digits 1
  if exponent < -greatestPower then
    timesPower? (← timesPower? f (-greatestPower)) (exponent + greatestPower)
  else timesPower? f exponent

/-- The float nearest to what the digits say. -/
def asWritten? (digits : Nat) (exponent : Int) : Option Binary64 :=
  if 0 ≤ exponent then Binary64.nearest? (digits * Nat.pow 10 exponent.toNat) 1
  else Binary64.nearest? digits (Nat.pow 10 (-exponent).toNat)

/-- The number of digits before and after the point, and an exponent. -/
def decimal? (isNegative : Bool) (whole fraction : List Char) (exponent : Int) : Option Json := do
  let (n, left) := append64 0 whole
  let (n, rest) := append64 n fraction
  let taken := fraction.length - rest.length
  let f ← float? n (exponent + left.length - taken)
  if f = Binary64.zero then return .decimal isNegative 0 0
  let digits := digitsValue (whole ++ fraction)
  let exponent := exponent - fraction.length
  if asWritten? digits exponent = some f then
    if 0 ≤ exponent then return .decimal isNegative (digits * Nat.pow 10 exponent.toNat) 0
    else return .decimal isNegative digits (-exponent).toNat
  else
    let (digits, places) := f.toDecimal
    return .decimal isNegative digits places

/-- An integer, unless it is a negative zero or too large for one. -/
def integer? (isNegative : Bool) (digits : List Char) : Option Json :=
  let n := digitsValue digits
  let value := signed isNegative n
  if twoTo 64 ≤ n then decimal? isNegative digits [] 0
  else if value < -twoTo 63 || (isNegative && n == 0) then some (.decimal isNegative n 0)
  else some (.int value)

/-- A number at the front; no zero may stand before another digit. -/
def read (cs : List Char) : Option (Json × List Char) := do
  let (isNegative, cs) := readSign cs
  let (digits, cs) ← readDigits cs
  if digits.head? = some '0' ∧ digits.length ≠ 1 then none
  let (fraction, cs) ← readFraction cs
  let (exponent, cs) ← readExponent cs
  if fraction.isEmpty && exponent.isNone then return (← integer? isNegative digits, cs)
  else return (← decimal? isNegative digits fraction (exponent.getD 0), cs)

end JobEngine.Json.Number
