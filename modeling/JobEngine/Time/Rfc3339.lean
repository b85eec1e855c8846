import JobEngine.Time.Calendar
import JobEngine.Time.Stamp
import JobEngine.Text.Blank
import JobEngine.Text.Numeral
/-! Times as RFC 3339 text. Writing is canonical: UTC, and a fraction of 0, 3, 6 or 9 digits, the
fewest that are exact. Reading takes any offset below 24 hours, allows blanks around the parts, and
cuts a fraction after nine digits. A year outside 0 to 9999 carries a sign, and the second 60 of a
minute is its leap second. -/

namespace JobEngine

namespace Instant

def secondsPerDay : Int := 86400

def yearText (year : Int) : String :=
  if 0 ≤ year ∧ year ≤ 9999 then Text.padded 4 year.toNat
  else (if year < 0 then "-" else "+") ++ Text.padded 4 year.natAbs

def fractionText (nanos : Nat) : String :=
  if nanos = 0 then ""
  else if nanos % 1000000 = 0 then "." ++ Text.padded 3 (nanos / 1000000)
  else if nanos % 1000 = 0 then "." ++ Text.padded 6 (nanos / 1000)
  else "." ++ Text.padded 9 nanos

end Instant

def Stamp.text (t : Stamp) : String :=
  let date := Date.ofDays (t.instant.seconds / Instant.secondsPerDay)
  let second := (t.instant.seconds % Instant.secondsPerDay).toNat
  Instant.yearText date.year ++ "-" ++ Text.padded 2 date.month ++ "-" ++ Text.padded 2 date.day ++
    "T" ++ Text.padded 2 (second / 3600) ++ ":" ++ Text.padded 2 (second / 60 % 60) ++ ":" ++
    Text.padded 2 (second % 60 + if t.isLeap then 1 else 0) ++
    Instant.fractionText t.instant.subsecond ++ "Z"

def Instant.text (t : Instant) : String := (Stamp.ofInstant t).text

namespace Rfc3339

def skipBlanks (cs : List Char) : List Char := cs.dropWhile Text.isBlankChar

def isDigit (c : Char) : Bool := '0' ≤ c && c ≤ '9'

def digitsValue (cs : List Char) : Nat :=
  cs.foldl (fun n c => n * 10 + (c.toNat - '0'.toNat)) 0

/-- The digits at the front, at most `width` of them and at least one. -/
def readDigits (width : Nat) (cs : List Char) : Option (List Char × List Char) :=
  let digits := (cs.take width).takeWhile isDigit
  if digits.isEmpty then none else some (digits, cs.drop digits.length)

def readNumber (width : Nat) (cs : List Char) : Option (Nat × List Char) :=
  (readDigits width (skipBlanks cs)).map fun r => (digitsValue r.1, r.2)

def readYear (cs : List Char) : Option (Int × List Char) :=
  match skipBlanks cs with
  | '-' :: rest => (readDigits rest.length rest).map fun r => (-(digitsValue r.1 : Int), r.2)
  | '+' :: rest => (readDigits rest.length rest).map fun r => ((digitsValue r.1 : Int), r.2)
  | rest => (readDigits 4 rest).map fun r => ((digitsValue r.1 : Int), r.2)

/-- Steps over one mark, with blanks allowed before it. -/
def readMark (mark : Char) (cs : List Char) : Option (List Char) :=
  match skipBlanks cs with
  | c :: rest => if c = mark then some rest else none
  | [] => none

def readSeparator : List Char → Option (List Char)
  | 'T' :: rest | 't' :: rest | ' ' :: rest => some rest
  | _ => none

/-- Nanoseconds after an optional point; digits after the ninth are dropped. -/
def readFraction : List Char → Option (Nat × List Char)
  | '.' :: rest =>
    (readDigits 9 rest).map fun r =>
      (digitsValue r.1 * Nat.pow 10 (9 - r.1.length), r.2.dropWhile isDigit)
  | cs => some (0, cs)

def readPair : List Char → Option (Nat × List Char)
  | a :: b :: rest => if isDigit a && isDigit b then some (digitsValue [a, b], rest) else none
  | _ => none

/-- Seconds east of UTC. -/
def readOffset (cs : List Char) : Option (Int × List Char) :=
  match skipBlanks cs with
  | 'Z' :: rest | 'z' :: rest => some (0, rest)
  | c :: rest =>
    if (c.toUpper = 'U') ∧ ((rest.take 2).map Char.toUpper = ['T', 'C']) then some (0, rest.drop 2)
    else if c = '+' ∨ c = '-' ∨ c = '−' then do
      let (hours, rest) ← readPair rest
      let (minutes, rest) ← readPair (rest.dropWhile fun c => c = ':' || Text.isBlankChar c)
      if minutes < 60 then
        let offset : Int := hours * 3600 + minutes * 60
        some (if c = '+' then offset else -offset, rest)
      else none
    else none
  | [] => none

def readDate (cs : List Char) : Option (Date × List Char) := do
  let (year, cs) ← readYear cs
  let (month, cs) ← readNumber 2 (← readMark '-' cs)
  let (day, cs) ← readNumber 2 (← readMark '-' cs)
  some ({ year, month, day }, cs)

/-- The second of the day, and whether its leap second is meant. -/
def readTime (cs : List Char) : Option (Nat × Bool × List Char) := do
  let (hour, cs) ← readNumber 2 cs
  let (minute, cs) ← readNumber 2 (← readMark ':' cs)
  let (second, cs) ← readNumber 2 (← readMark ':' cs)
  if hour < 24 ∧ minute < 60 ∧ second ≤ 60 then
    some (hour * 3600 + minute * 60 + min second 59, second == 60, cs)
  else none

end Rfc3339

/-- Both the local reading and the time itself must lie in the calendar. -/
def Stamp.ofText? (s : String) : Option Stamp := do
  let (date, cs) ← Rfc3339.readDate s.toList
  let (second, isLeap, cs) ← Rfc3339.readTime (← Rfc3339.readSeparator cs)
  let (nanos, cs) ← Rfc3339.readFraction cs
  let (offset, cs) ← Rfc3339.readOffset cs
  if (Rfc3339.skipBlanks cs).isEmpty ∧ date.isValid ∧ offset.natAbs < 86400 then
    let there ← Instant.ofParts? (date.toDays * Instant.secondsPerDay + second) nanos
    let here ← there.shift? (-offset * nanosPerSecond)
    Stamp.make? here isLeap
  else none

end JobEngine
